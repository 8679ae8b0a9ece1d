import Mathlib.Data.List.Basic
import Switchyard.Proofs.Dictionary
import Switchyard.Proofs.Text.Stripping
import Switchyard.Store

/-!
Which route answers a query. Main statement: of all routes under one of the names tried, it is the first one by the
name tried, then by the name of its table, then by its position in the table.
-/
namespace Switchyard

/-! ### What a search for the first finds -/

theorem exists_first_some {α β : Type} {l : List α} {f : α → Option β} {b : β} (h : l.findSome? f = some b) :
    ∃ (n : Nat) (a : α), l[n]? = some a ∧ f a = some b ∧ ∀ (k : Nat) a', l[k]? = some a' → (f a').isSome → n ≤ k := by
  obtain ⟨before, a, after, rfl, found, none⟩ := List.findSome?_eq_some_iff.1 h
  refine ⟨before.length, a, by simp, found, fun k a' at_k some => ?_⟩
  by_contra less
  rw [List.getElem?_append_left (Nat.lt_of_not_le less)] at at_k
  rw [none a' (List.mem_of_getElem? at_k)] at some
  cases some

theorem exists_first {α : Type} {l : List α} {p : α → Bool} {a : α} (h : l.find? p = some a) :
    p a = true ∧ ∃ n : Nat, l[n]? = some a ∧ ∀ (k : Nat) a', l[k]? = some a' → p a' = true → n ≤ k := by
  rw [List.find?_eq_findSome?_guard] at h
  obtain ⟨n, b, at_n, found, first⟩ := exists_first_some h
  obtain ⟨rfl, holds⟩ := Option.guard_eq_some_iff.1 found
  refine ⟨holds, n, at_n, fun k a' at_k holds' => first k a' at_k ?_⟩
  rw [Option.guard_pos holds']
  rfl

/-- The values stand in the order of their keys. -/
theorem Dictionary.exists_first_value {κ β γ : Type} [LT κ] [DecidableEq κ] [KeyOrder κ] {d : Dictionary κ β}
    {f : β → Option γ} {b : γ} (h : d.values.findSome? f = some b) :
    ∃ k v, d.find? k = some v ∧ f v = some b ∧ ∀ k' v', d.find? k' = some v' → (f v').isSome → k = k' ∨ k < k' := by
  rw [values, List.findSome?_map] at h
  obtain ⟨n, ⟨k, v⟩, at_n, found, first⟩ := exists_first_some h
  refine ⟨k, v, mem_entries_iff.1 (List.mem_of_getElem? at_n), found, fun k' v' stored some => ?_⟩
  obtain ⟨m, at_m⟩ := List.mem_iff_getElem?.1 (mem_entries_iff.2 stored)
  have le : n ≤ m := first m (k', v') at_m some
  rcases Nat.eq_or_lt_of_le le with rfl | less
  · have same : (k, v) = (k', v') := Option.some.inj (at_n.symm.trans at_m)
    exact .inl (congrArg Prod.fst same)
  · obtain ⟨hn, at_n⟩ := List.getElem?_eq_some_iff.1 at_n
    obtain ⟨hm, at_m⟩ := List.getElem?_eq_some_iff.1 at_m
    have ascending := List.pairwise_iff_getElem.1 d.ascending n m hn hm less
    rw [at_n, at_m] at ascending
    exact .inr ascending

/-! ### Where a route answers -/

/-- The name tried, by its position among the candidates of a query, and the place of a route: its table and its
position there. -/
structure Place where
  candidate : Nat
  table : String
  position : Nat
  deriving DecidableEq, Repr

def Place.Precedes (p q : Place) : Prop :=
  p.candidate < q.candidate ∨ p.candidate = q.candidate ∧
    (p.table < q.table ∨ p.table = q.table ∧ p.position < q.position)

theorem Place.not_precedes_both {p q : Place} (h : p.Precedes q) : ¬ q.Precedes p := by
  intro h'
  rcases h with less | ⟨same, less | ⟨table, less⟩⟩
  · rcases h' with less' | ⟨same', _⟩ <;> omega
  · rcases h' with less' | ⟨_, less' | ⟨table', _⟩⟩
    · omega
    · exact String.lt_irrefl _ (String.lt_trans less less')
    · exact String.lt_irrefl _ (table' ▸ less)
  · rcases h' with less' | ⟨_, less' | ⟨_, less'⟩⟩
    · omega
    · exact String.lt_irrefl _ (table ▸ less')
    · omega

namespace Store

variable {s : Store} {name : String} {p q : Place} {r r' : Route}

/-- The route `r` stands at that place, and the name tried is its own. -/
def Answers (s : Store) (name : String) (p : Place) (r : Route) : Prop :=
  ∃ c t, (s.search.candidates name)[p.candidate]? = some c ∧ s.table p.table = some t ∧
    t.routes[p.position]? = some r ∧ r.matchesName c = true

/-- No other place at which a route answers comes before. -/
def AnswersFirst (s : Store) (name : String) (p : Place) (r : Route) : Prop :=
  s.Answers name p r ∧ ∀ q r', s.Answers name q r' → q = p ∨ p.Precedes q

theorem Answers.route_unique (h : s.Answers name p r) (h' : s.Answers name p r') : r = r' := by
  obtain ⟨_, t, _, stored, at_p, _⟩ := h
  obtain ⟨_, t', _, stored', at_p', _⟩ := h'
  cases stored.symm.trans stored'
  exact Option.some.inj (at_p.symm.trans at_p')

/-- At most one place is the first. -/
theorem AnswersFirst.unique (h : s.AnswersFirst name p r) (h' : s.AnswersFirst name q r') : p = q ∧ r = r' := by
  have same : p = q := by
    rcases h.2 q r' h'.1 with same | less
    · exact same.symm
    · rcases h'.2 p r h.1 with same | less'
      · exact same
      · exact absurd less' (Place.not_precedes_both less)
  subst same
  exact ⟨rfl, h.1.route_unique h'.1⟩

/-! ### The three searches -/

theorem isSome_lookup {t : Table} {c : String} {k : Nat} (listed : t.routes[k]? = some r)
    (own : r.matchesName c = true) : (t.lookup c).isSome :=
  List.find?_isSome.2 ⟨r, List.mem_of_getElem? listed, own⟩

theorem isSome_findSome?_allTables {t : Table} {c : String} (stored : s.table name = some t)
    (found : (t.lookup c).isSome) : (s.allTables.findSome? (·.lookup c)).isSome := by
  have listed : t ∈ s.allTables := List.mem_map.2 ⟨(name, t), Dictionary.mem_entries_iff.2 stored, rfl⟩
  exact List.findSome?_isSome_iff.2 ⟨t, listed, found⟩

/-- What resolves stands at a place that no other comes before. -/
theorem exists_answersFirst (h : s.resolve name = some r) : ∃ p, s.AnswersFirst name p r := by
  obtain ⟨n, c, at_n, inTables, firstCandidate⟩ := exists_first_some h
  obtain ⟨key, t, stored, inTable, firstTable⟩ := Dictionary.exists_first_value inTables
  obtain ⟨own, k, at_k, firstRoute⟩ := exists_first inTable
  refine ⟨⟨n, key, k⟩, ⟨c, t, at_n, stored, at_k, own⟩, ?_⟩
  rintro ⟨n', key', k'⟩ r' ⟨c', t', at_n', stored', at_k', own'⟩
  have found := isSome_lookup at_k' own'
  have le := firstCandidate n' c' at_n' (isSome_findSome?_allTables stored' found)
  rcases Nat.eq_or_lt_of_le le with rfl | less
  · -- the same name is tried
    cases at_n.symm.trans at_n'
    rcases firstTable key' t' stored' found with rfl | less
    · cases stored.symm.trans stored'
      have le := firstRoute k' r' at_k' own'
      rcases Nat.eq_or_lt_of_le le with rfl | less
      · exact .inl rfl
      · exact .inr (.inr ⟨rfl, .inr ⟨rfl, less⟩⟩)
    · exact .inr (.inr ⟨rfl, .inl less⟩)
  · exact .inr (.inl less)

theorem exists_resolve (h : s.Answers name p r) : ∃ r', s.resolve name = some r' := by
  obtain ⟨c, t, candidate, stored, listed, own⟩ := h
  have found := isSome_findSome?_allTables stored (isSome_lookup listed own)
  apply Option.isSome_iff_exists.1
  exact List.findSome?_isSome_iff.2 ⟨c, List.mem_of_getElem? candidate, found⟩

theorem resolve_eq_some_iff : s.resolve name = some r ↔ ∃ p, s.AnswersFirst name p r := by
  constructor
  · exact exists_answersFirst
  · rintro ⟨p, first⟩
    obtain ⟨r', found⟩ := exists_resolve first.1
    obtain ⟨q, first'⟩ := exists_answersFirst found
    rw [found, (first.unique first').2]

theorem resolve_eq_none_iff : s.resolve name = none ↔
    ∀ c ∈ s.search.candidates name, ∀ t ∈ s.allTables, ∀ r ∈ t.routes, r.matchesName c = false := by
  simp only [resolve, Table.lookup, List.findSome?_eq_none_iff, List.find?_eq_none, Bool.not_eq_true]

/-! ### Qualified names -/

theorem canonicalName_dot (c : String) : Route.canonicalName (c ++ ".") = Route.canonicalName c := by
  have dot : ∀ d ∈ ['.'], decide (d = '.') = true := by simp
  rw [Route.canonicalName, Route.canonicalName, String.toList_append]
  exact congrArg (List.map Char.toLower) (Text.stripEnd_append c.toList dot)

theorem lookup_dot (t : Table) (c : String) : t.lookup (c ++ ".") = t.lookup c := by
  have same : (fun r : Route => r.matchesName (c ++ ".")) = fun r => r.matchesName c := by
    funext r
    rw [Route.matchesName, Route.matchesName, canonicalName_dot]
  rw [Table.lookup, Table.lookup, same]

theorem candidates_of_qualified (path : SearchPath) (qualified : name.toList.getLast? = some '.') :
    path.candidates name = [name] := if_pos qualified

theorem resolve_of_qualified (s : Store) (qualified : name.toList.getLast? = some '.') :
    s.resolve name = s.allTables.findSome? (·.lookup name) := by
  rw [resolve, candidates_of_qualified _ qualified, List.findSome?_singleton]

theorem resolve_dot (s : Store) (c : String) : s.resolve (c ++ ".") = s.allTables.findSome? (·.lookup c) := by
  have qualified : (c ++ ".").toList.getLast? = some '.' := by
    rw [String.toList_append]
    exact List.getLast?_concat
  rw [resolve_of_qualified s qualified]
  simp only [lookup_dot]

/-- A query is answered by the first route under one of the names tried, first by the name tried, then by the name of
the table, then by the position in the table; there is no answer just if no route has one of these names. To resolve a
name without a final dot is to resolve the names tried one after the other, each as a complete one. For a name with a
final dot nothing else is tried, whatever the search path. -/
theorem resolve_first (s : Store) (name : String) :
    (∀ r, s.resolve name = some r ↔
      ∃ p, s.Answers name p r ∧ ∀ q r', s.Answers name q r' → q = p ∨ p.Precedes q) ∧
    (s.resolve name = none ↔
      ∀ c ∈ s.search.candidates name, ∀ t ∈ s.allTables, ∀ r ∈ t.routes, r.matchesName c = false) ∧
    (name.toList.getLast? ≠ some '.' →
      s.resolve name = (s.search.candidates name).findSome? fun c => s.resolve (c ++ ".")) ∧
    (name.toList.getLast? = some '.' → s.search.candidates name = [name] ∧
      ∀ path : SearchPath, ({ s with search := path } : Store).resolve name = s.resolve name) := by
  refine ⟨fun r => resolve_eq_some_iff, resolve_eq_none_iff, fun _ => ?_, fun qualified => ⟨?_, fun path => ?_⟩⟩
  · simp only [resolve_dot]
    rfl
  · exact candidates_of_qualified s.search qualified
  · rw [resolve_of_qualified s qualified, resolve_of_qualified _ qualified]
    rfl

/-- The name tried first wins, though its table comes second. -/
example : (((({} : Store).update ⟨"a", [{ name := "db.prod", target := "one" }]⟩).update
    ⟨"b", [{ name := "DB.", target := "two" }]⟩).setSearch ⟨["prod"]⟩).resolve "db" =
      some { name := "DB.", target := "two" } := by
  decide

end Store

end Switchyard
