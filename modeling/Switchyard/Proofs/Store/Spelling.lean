import Switchyard.Proofs.Store.Resolution
import Switchyard.Proofs.Text.Letters

/-!
Spellings of names that make no difference. Main statement: what a query finds does not depend on the case of ASCII
letters, on final dots of route names, or on dots around search suffixes.
-/
namespace Switchyard

open Text

/-! ### Dots -/

def dots (n : Nat) : String := String.ofList (List.replicate n '.')

theorem toList_dots (n : Nat) : (dots n).toList = List.replicate n '.' := String.toList_ofList

theorem all_dots (n : Nat) : ∀ c ∈ (dots n).toList, decide (c = '.') = true := by
  intro c hc
  rw [toList_dots] at hc
  exact decide_eq_true (List.eq_of_mem_replicate hc)

theorem eq_dots {cs : List Char} (all : ∀ c ∈ cs, decide (c = '.') = true) : cs = (dots cs.length).toList := by
  rw [toList_dots]
  exact List.eq_replicate_iff.2 ⟨rfl, fun c hc => of_decide_eq_true (all c hc)⟩

/-- A dot has no case. -/
theorem isDot_toLower : (fun c : Char => decide (c = '.')) ∘ Char.toLower = fun c => decide (c = '.') := by
  funext c
  exact decide_eq_decide.2 toLower_eq_dot_iff

/-! ### Names of routes -/

namespace Route

/-- Names that differ in the case of letters and in the number of their final dots. -/
def SameName (n n' : String) : Prop :=
  ∃ base base' k k', n = base ++ dots k ∧ n' = base' ++ dots k' ∧ SameLetters base base'

/-- Routes whose names differ in no more than that, and are both given or both not. -/
def Respelled (r r' : Route) : Prop := (r.name = "" ↔ r'.name = "") ∧ SameName r.name r'.name

variable {n n' : String} {r r' : Route}

theorem SameName.symm (h : SameName n n') : SameName n' n := by
  obtain ⟨base, base', k, k', left, right, same⟩ := h
  exact ⟨base', base, k', k, right, left, same.symm⟩

theorem Respelled.symm (h : r.Respelled r') : r'.Respelled r := ⟨h.1.symm, h.2.symm⟩

theorem canonicalName_eq (n : String) :
    canonicalName n = stripEnd (fun c => decide (c = '.')) (n.toList.map Char.toLower) := by
  rw [stripEnd_map, isDot_toLower]
  rfl

theorem canonicalName_dots (n : String) (k : Nat) : canonicalName (n ++ dots k) = canonicalName n := by
  rw [canonicalName, String.toList_append, stripEnd_append _ (all_dots k)]
  rfl

theorem canonicalName_congr (h : SameLetters n n') : canonicalName n = canonicalName n' := by
  rw [canonicalName_eq, canonicalName_eq, sameLetters_iff.1 h]

theorem exists_base (n : String) :
    ∃ base k, n = base ++ dots k ∧ canonicalName n = base.toList.map Char.toLower := by
  obtain ⟨tail, split, all⟩ := exists_eq_stripEnd_append (fun c => decide (c = '.')) n.toList
  refine ⟨String.ofList (stripEnd (fun c => decide (c = '.')) n.toList), tail.length, ?_, ?_⟩
  · apply String.toList_inj.1
    rw [String.toList_append, String.toList_ofList, ← eq_dots all]
    exact split
  · rw [String.toList_ofList]
    rfl

/-- Names are compared as they are meant to be. -/
theorem canonicalName_eq_iff : canonicalName n = canonicalName n' ↔ SameName n n' := by
  constructor
  · intro same
    obtain ⟨base, k, left, canonical⟩ := exists_base n
    obtain ⟨base', k', right, canonical'⟩ := exists_base n'
    refine ⟨base, base', k, k', left, right, sameLetters_iff.2 ?_⟩
    rw [← canonical, ← canonical', same]
  · rintro ⟨base, base', k, k', rfl, rfl, same⟩
    rw [canonicalName_dots, canonicalName_dots, canonicalName_congr same]

theorem matchesName_iff : r.matchesName n = true ↔ r.name ≠ "" ∧ SameName r.name n := by
  rw [matchesName, Bool.and_eq_true, decide_eq_true_iff, decide_eq_true_iff, canonicalName_eq_iff]

theorem Respelled.matchesName (h : r.Respelled r') (query : SameLetters n n') (own : r.matchesName n = true) :
    r'.matchesName n' = true := by
  obtain ⟨given, same⟩ := matchesName_iff.1 own
  refine matchesName_iff.2 ⟨fun empty => given (h.1.2 empty), canonicalName_eq_iff.1 ?_⟩
  rw [← canonicalName_eq_iff.2 h.2, canonicalName_eq_iff.2 same, canonicalName_congr query]

end Route

/-! ### Search suffixes -/

namespace SearchPath

/-- Suffixes that differ in the case of letters and in the dots at their ends. -/
def SameSuffix (x x' : String) : Prop :=
  ∃ base base' j k j' k', x = dots j ++ base ++ dots k ∧ x' = dots j' ++ base' ++ dots k' ∧ SameLetters base base'

def Respelled (p p' : SearchPath) : Prop := List.Forall₂ SameSuffix p.suffixes p'.suffixes

variable {x x' n n' : String} {p p' : SearchPath}

theorem SameSuffix.symm (h : SameSuffix x x') : SameSuffix x' x := by
  obtain ⟨base, base', j, k, j', k', left, right, same⟩ := h
  exact ⟨base', base, j', k', j, k, right, left, same.symm⟩

theorem Respelled.symm (h : p.Respelled p') : p'.Respelled p := h.flip.imp fun _ _ => SameSuffix.symm

theorem map_stripWhile (s : List Char) :
    (stripWhile (fun c => decide (c = '.')) s).map Char.toLower =
      stripWhile (fun c => decide (c = '.')) (s.map Char.toLower) := by
  rw [stripWhile_map, isDot_toLower]

theorem SameSuffix.strip (h : SameSuffix x x') :
    (stripWhile (fun c => decide (c = '.')) x.toList).map Char.toLower =
      (stripWhile (fun c => decide (c = '.')) x'.toList).map Char.toLower := by
  obtain ⟨base, base', j, k, j', k', rfl, rfl, same⟩ := h
  simp only [String.toList_append]
  rw [stripWhile_between (all_dots j) _ (all_dots k), stripWhile_between (all_dots j') _ (all_dots k'),
    map_stripWhile, map_stripWhile, sameLetters_iff.1 same]

/-- Of two such suffixes both count or none does. -/
theorem SameSuffix.trim (h : SameSuffix x x') : Option.Rel SameLetters (trimSuffix x) (trimSuffix x') := by
  have same := h.strip
  unfold trimSuffix
  cases left : stripWhile (fun c => decide (c = '.')) x.toList with
  | nil =>
    rw [left, List.map_nil] at same
    rw [List.map_eq_nil_iff.1 same.symm]
    exact .none
  | cons c cs =>
    cases right : stripWhile (fun c => decide (c = '.')) x'.toList with
    | nil =>
      rw [left, right] at same
      cases same
    | cons c' cs' =>
      rw [left, right] at same
      refine .some (sameLetters_iff.2 ?_)
      rwa [String.toList_ofList, String.toList_ofList]

theorem Respelled.candidates (h : p.Respelled p') (query : SameLetters n n') :
    List.Forall₂ SameLetters (p.candidates n) (p'.candidates n') := by
  unfold SearchPath.candidates
  by_cases qualified : n.toList.getLast? = some '.'
  · rw [if_pos qualified, if_pos (query.getLast?_eq_dot_iff.1 qualified)]
    exact .cons query .nil
  · rw [if_neg qualified, if_neg (mt query.getLast?_eq_dot_iff.2 qualified)]
    have trimmed := List.rel_filterMap (fun _ _ same => SameSuffix.trim same) h
    refine .cons query ?_
    rw [List.forall₂_map_left_iff, List.forall₂_map_right_iff]
    exact trimmed.imp fun _ _ same => (query.append (.refl ".")).append same

end SearchPath

/-! ### Stores -/

namespace Store

variable {s s' : Store} {q q' : String} {p : Place} {r r' : Route}

/-- Stores with tables of the same names, alike but for the spelling of route names and search suffixes. -/
structure Respelled (s s' : Store) : Prop where
  tables : ∀ name, Option.Rel (fun t t' => List.Forall₂ Route.Respelled t.routes t'.routes) (s.table name)
    (s'.table name)
  search : s.search.Respelled s'.search

theorem Respelled.symm (h : s.Respelled s') : s'.Respelled s where
  tables name := by
    have here := h.tables name
    generalize s.table name = left at here ⊢
    generalize s'.table name = right at here ⊢
    cases here with
    | none => exact .none
    | some same => exact .some (same.flip.imp fun _ _ => Route.Respelled.symm)
  search := h.search.symm

theorem Respelled.update (h : s.Respelled s') {t t' : Table} (name : t.name = t'.name)
    (routes : List.Forall₂ Route.Respelled t.routes t'.routes) : (s.update t).Respelled (s'.update t') where
  tables other := by
    have here : (s.update t).table other = if other = t.name then some t else s.table other :=
      Dictionary.find?_insert s.tables t.name t other
    have there : (s'.update t').table other = if other = t'.name then some t' else s'.table other :=
      Dictionary.find?_insert s'.tables t'.name t' other
    rw [here, there, ← name]
    split
    · exact .some routes
    · exact h.tables other
  search := h.search

theorem Respelled.setSearch (h : s.Respelled s') {path path' : SearchPath} (suffixes : path.Respelled path') :
    (s.setSearch path).Respelled (s'.setSearch path') where
  tables := h.tables
  search := suffixes

theorem exists_getElem?_of_forall₂ {α β : Type} {R : α → β → Prop} {l : List α} {l' : List β}
    (h : List.Forall₂ R l l') {n : Nat} {a : α} (at_n : l[n]? = some a) : ∃ b, l'[n]? = some b ∧ R a b := by
  obtain ⟨length, same⟩ := List.forall₂_iff_get.1 h
  obtain ⟨bound, rfl⟩ := List.getElem?_eq_some_iff.1 at_n
  have bound' : n < l'.length := length ▸ bound
  exact ⟨l'[n], List.getElem?_eq_getElem bound', same n bound bound'⟩

theorem Respelled.stored (h : s.Respelled s') {name : String} {t : Table} (stored : s.table name = some t) :
    ∃ t', s'.table name = some t' ∧ List.Forall₂ Route.Respelled t.routes t'.routes := by
  have here := h.tables name
  rw [stored] at here
  generalize s'.table name = right at here ⊢
  cases here with
  | some same => exact ⟨_, rfl, same⟩

theorem Respelled.answers (h : s.Respelled s') (query : SameLetters q q') (there : s.Answers q p r) :
    ∃ r', s'.Answers q' p r' := by
  obtain ⟨c, t, candidate, stored, listed, own⟩ := there
  obtain ⟨c', candidate', letters⟩ := exists_getElem?_of_forall₂ (h.search.candidates query) candidate
  obtain ⟨t', stored', routes⟩ := h.stored stored
  obtain ⟨r', listed', same⟩ := exists_getElem?_of_forall₂ routes listed
  exact ⟨r', c', t', candidate', stored', listed', same.matchesName letters own⟩

theorem Respelled.answersFirst (h : s.Respelled s') (query : SameLetters q q') (first : s.AnswersFirst q p r) :
    ∃ r', s'.AnswersFirst q' p r' := by
  obtain ⟨r', there⟩ := h.answers query first.1
  refine ⟨r', there, fun p' r'' there' => ?_⟩
  obtain ⟨r₀, back⟩ := h.symm.answers query.symm there'
  exact first.2 p' r₀ back

/-- In two stores spelled differently, a query and another spelling of it find the routes at one and the same place, or
both find none. That is because a name is a route's own just if the two are the same but for final dots and for the case
of letters, which only letters of ASCII have. -/
theorem resolve_respelled (stores : s.Respelled s') (query : SameLetters q q') :
    (s.resolve q = none ∧ s'.resolve q' = none ∨
      ∃ p r r', s.resolve q = some r ∧ s'.resolve q' = some r' ∧ s.AnswersFirst q p r ∧ s'.AnswersFirst q' p r') ∧
    ∀ (r : Route) (name : String), r.matchesName name = true ↔ r.name ≠ "" ∧ Route.SameName r.name name := by
  refine ⟨?_, fun r name => Route.matchesName_iff⟩
  cases found : s.resolve q with
  | some r =>
    obtain ⟨p, first⟩ := resolve_eq_some_iff.1 found
    obtain ⟨r', first'⟩ := stores.answersFirst query first
    exact .inr ⟨p, r, r', rfl, resolve_eq_some_iff.2 ⟨p, first'⟩, first, first'⟩
  | none =>
    cases found' : s'.resolve q' with
    | none => exact .inl ⟨rfl, rfl⟩
    | some r' =>
      obtain ⟨p, first'⟩ := resolve_eq_some_iff.1 found'
      obtain ⟨r, first⟩ := stores.symm.answersFirst query.symm first'
      rw [resolve_eq_some_iff.2 ⟨p, first⟩] at found
      cases found

/-- A store spelled plainly, -/
def plain : Store :=
  (({} : Store).update ⟨"hosts", [{ name := "www" }, { name := "café.prod" }]⟩).setSearch ⟨["prod", ""]⟩

/-- and the same one with capitals and dots. -/
def dotted : Store :=
  (({} : Store).update ⟨"hosts", [{ name := "WWW." }, { name := "Café.PROD.." }]⟩).setSearch ⟨[".Prod.", "..."]⟩

theorem plain_respelled : plain.Respelled dotted := by
  have empty : ({} : Store).Respelled {} := ⟨fun _ => .none, .nil⟩
  have same (n n' : String) (h : Route.canonicalName n = Route.canonicalName n') : Route.SameName n n' :=
    Route.canonicalName_eq_iff.1 h
  have routes : List.Forall₂ Route.Respelled [{ name := "www" }, { name := "café.prod" }]
      [{ name := "WWW." }, { name := "Café.PROD.." }] :=
    .cons ⟨by decide, same _ _ (by decide)⟩ (.cons ⟨by decide, same _ _ (by decide)⟩ .nil)
  have suffixes : SearchPath.Respelled ⟨["prod", ""]⟩ ⟨[".Prod.", "..."]⟩ :=
    .cons ⟨"prod", "Prod", 0, 0, 1, 1, rfl, rfl, sameLetters_iff.2 (by decide)⟩
      (.cons ⟨"", "", 0, 0, 0, 3, rfl, rfl, .refl ""⟩ .nil)
  unfold plain dotted
  apply Respelled.setSearch
  · apply empty.update
    · rfl
    · exact routes
  · exact suffixes

theorem resolve_respelled_accented :
    plain.Respelled dotted ∧ SameLetters "café" "CAFé" ∧
      (∃ p r r', plain.resolve "café" = some r ∧ dotted.resolve "CAFé" = some r' ∧
        plain.AnswersFirst "café" p r ∧ dotted.AnswersFirst "CAFé" p r') ∧
      dotted.resolve "cafÉ" = none := by
  have letters : SameLetters "café" "CAFé" := sameLetters_iff.2 (by decide)
  have found : plain.resolve "café" ≠ none := by decide
  have both := (resolve_respelled plain_respelled letters).1
  exact ⟨plain_respelled, letters, both.resolve_left fun none => found none.1, by decide⟩

end Store

end Switchyard
