import Mathlib.Data.List.Sort
import Switchyard.Proofs.Dictionary
import Switchyard.Store

/-!
The store is what was last written to it: the table of a name is the last one put under it and not removed since.
-/
namespace Switchyard

/-! ### What a history leaves -/

namespace StoreChange

/-- The name of which the change speaks. -/
def name? : StoreChange → Option String
  | put t => some t.name
  | remove name => some name
  | setSearch _ => none

/-- Both speak of names, and not of the same. -/
def Apart (c c' : StoreChange) : Prop :=
  ∃ name name', c.name? = some name ∧ c'.name? = some name' ∧ name ≠ name'

/-- What the change leaves under a name, if it speaks of it. -/
def leaves (name : String) : StoreChange → Option (Option Table)
  | put t => if t.name = name then some (some t) else none
  | remove removed => if removed = name then some none else none
  | setSearch _ => none

def path? : StoreChange → Option SearchPath
  | setSearch path => some path
  | _ => none

end StoreChange

/-- The table that a history, oldest first, leaves under a name. -/
def lastTable (name : String) (history : List StoreChange) : Option Table :=
  (history.reverse.findSome? (·.leaves name)).join

def lastSearch (history : List StoreChange) : SearchPath := (history.reverse.findSome? (·.path?)).getD {}

/-- The change removes a table that the history before it left. -/
def StoreChange.removesAfter (before : List StoreChange) : StoreChange → Bool
  | remove name => (lastTable name before).isSome
  | _ => false

def StoreChange.isPut : StoreChange → Bool
  | put _ => true
  | _ => false

def puts (history : List StoreChange) : Nat := history.countP (·.isPut)

/-- How many removals find a table to remove. -/
def removals (history : List StoreChange) : Nat :=
  (List.range history.length).countP fun k => history[k]?.any (·.removesAfter (history.take k))

def replacements (history : List StoreChange) : Nat := history.countP (·.path?.isSome)

theorem lastSearch_concat (history : List StoreChange) (c : StoreChange) :
    lastSearch (history ++ [c]) = c.path?.getD (lastSearch history) := by
  rw [lastSearch, List.reverse_concat, List.findSome?_cons]
  cases c.path? with
  | none => rfl
  | some path => rfl

theorem puts_concat (history : List StoreChange) (c : StoreChange) :
    puts (history ++ [c]) = puts history + puts [c] := List.countP_append

theorem replacements_concat (history : List StoreChange) (c : StoreChange) :
    replacements (history ++ [c]) = replacements history + replacements [c] := List.countP_append

theorem removals_concat (history : List StoreChange) (c : StoreChange) :
    removals (history ++ [c]) = removals history + (c.removesAfter history).toNat := by
  rw [removals, List.length_append, List.length_singleton, List.range_succ, List.countP_append]
  congr 1
  · refine List.countP_congr fun k hk => ?_
    have before := List.mem_range.1 hk
    rw [List.getElem?_append_left before, List.take_append_of_le_length (Nat.le_of_lt before)]
  · rw [List.countP_singleton, List.getElem?_concat_length, List.take_left' rfl, Option.any_some]
    cases c.removesAfter history <;> rfl

namespace Store

variable {s s' : Store} {history : List StoreChange} {name : String}

def change (s : Store) : StoreChange → Store
  | .put t => s.update t
  | .remove name => (s.delete name).2
  | .setSearch path => s.setSearch path

def changes (s : Store) (history : List StoreChange) : Store := history.foldl change s

/-- Every question has one answer in both. -/
structure SameAnswers (s s' : Store) : Prop where
  table : ∀ name, s.table name = s'.table name
  allTables : s.allTables = s'.allTables
  render : ∀ name, s.render name = s'.render name
  search : s.search = s'.search
  resolve : ∀ name, s.resolve name = s'.resolve name
  routeByIp : ∀ ip, s.routeByIp ip = s'.routeByIp ip
  redirects : s.redirects = s'.redirects

/-- The counters answer no question. -/
theorem SameAnswers.of_contents (tables : s.tables = s'.tables) (search : s.search = s'.search) : SameAnswers s s' := by
  cases s
  cases s'
  cases tables
  cases search
  exact ⟨fun _ => rfl, rfl, fun _ => rfl, rfl, fun _ => rfl, fun _ => rfl, rfl⟩

theorem delete_of_missing (missing : s.table name = none) : s.delete name = (false, s) := by
  have absent : s.tables.contains name = false := Option.isSome_eq_false_iff.2 (Option.isNone_iff_eq_none.2 missing)
  rw [delete, absent]
  rfl

theorem delete_of_stored {t : Table} (stored : s.table name = some t) :
    s.delete name = (true, (s.write (.remove name)).bump.flush) := by
  have present : s.tables.contains name = true := Option.isSome_iff_exists.2 ⟨t, stored⟩
  rw [delete, if_pos present]

theorem table_change (s : Store) (c : StoreChange) (name : String) :
    (s.change c).table name = (c.leaves name).getD (s.table name) := by
  cases c with
  | put t =>
    refine (Dictionary.find?_insert s.tables t.name t name).trans ?_
    by_cases same : t.name = name
    · simp [StoreChange.leaves, same]
    · simp [StoreChange.leaves, same, Ne.symm same, table]
  | remove removed =>
    rw [change]
    by_cases same : removed = name
    · subst same
      cases stored : s.table removed with
      | none => simp [delete_of_missing stored, stored, StoreChange.leaves]
      | some t =>
        rw [delete_of_stored stored]
        refine (Dictionary.find?_erase_self s.tables removed).trans ?_
        simp [StoreChange.leaves]
    · cases stored : s.table removed with
      | none => simp [delete_of_missing stored, StoreChange.leaves, same]
      | some t =>
        rw [delete_of_stored stored]
        refine (Dictionary.find?_erase_of_ne s.tables (Ne.symm same)).trans ?_
        simp [StoreChange.leaves, same, table]
  | setSearch path => rfl

theorem search_change (s : Store) (c : StoreChange) : (s.change c).search = c.path?.getD s.search := by
  cases c with
  | put t => rfl
  | setSearch path => rfl
  | remove name =>
    rw [change]
    cases stored : s.table name with
    | none => rw [delete_of_missing stored]; rfl
    | some t => rw [delete_of_stored stored]; rfl

theorem changes_concat (s : Store) (history : List StoreChange) (c : StoreChange) :
    s.changes (history ++ [c]) = (s.changes history).change c := List.foldl_concat ..

theorem changes_append (s : Store) (history more : List StoreChange) :
    s.changes (history ++ more) = (s.changes history).changes more := List.foldl_append ..

/-- Under a name stands what the latest change that speaks of it has left there. -/
theorem table_changes_from (s : Store) (history : List StoreChange) (name : String) :
    (s.changes history).table name = (history.reverse.findSome? (·.leaves name)).getD (s.table name) := by
  induction history using List.reverseRecOn with
  | nil => rfl
  | append_singleton history c ih =>
    rw [changes_concat, table_change, ih, List.reverse_concat, List.findSome?_cons]
    cases c.leaves name with
    | none => rfl
    | some left => rfl

theorem table_changes (history : List StoreChange) (name : String) :
    (({} : Store).changes history).table name = lastTable name history := by
  rw [table_changes_from, lastTable]
  cases history.reverse.findSome? (·.leaves name) with
  | none => rfl
  | some left => rfl

/-- Of several tables of one name the last one stays. -/
theorem table_puts (s : Store) (ts : List Table) (name : String) :
    (s.changes (ts.map .put)).table name = (ts.reverse.find? (·.name = name)).or (s.table name) := by
  have leaves : (fun c : StoreChange => c.leaves name) ∘ StoreChange.put =
      fun t : Table => if t.name = name then some (some t) else none := rfl
  rw [table_changes_from, ← List.map_reverse, List.findSome?_map, leaves]
  induction ts.reverse with
  | nil => rfl
  | cons t ts ih =>
    rw [List.findSome?_cons, List.find?_cons]
    by_cases same : t.name = name
    · simp [same]
    · simp only [if_neg same, ih, decide_eq_false same]

theorem search_changes (history : List StoreChange) : (({} : Store).changes history).search = lastSearch history := by
  induction history using List.reverseRecOn with
  | nil => rfl
  | append_singleton history c ih => rw [changes_concat, search_change, ih, lastSearch_concat]

/-- What two histories leave alike is answered alike. -/
theorem sameAnswers_changes {history history' : List StoreChange}
    (tables : ∀ name, lastTable name history = lastTable name history')
    (search : lastSearch history = lastSearch history') :
    SameAnswers (({} : Store).changes history) (({} : Store).changes history') := by
  refine .of_contents (Dictionary.ext_find? fun name => ?_) ?_
  · exact (table_changes history name).trans ((tables name).trans (table_changes history' name).symm)
  · rw [search_changes, search_changes, search]

/-! ### Each table under its own name -/

def Keyed (s : Store) : Prop := ∀ name t, s.table name = some t → t.name = name

theorem Keyed.change (keyed : s.Keyed) (c : StoreChange) : (s.change c).Keyed := by
  intro name t stored
  rw [table_change] at stored
  cases c with
  | put put =>
    rw [StoreChange.leaves] at stored
    split at stored
    next same =>
      cases stored
      exact same
    next => exact keyed name t stored
  | remove removed =>
    rw [StoreChange.leaves] at stored
    split at stored
    next => cases stored
    next => exact keyed name t stored
  | setSearch path => exact keyed name t stored

theorem Keyed.changes (keyed : s.Keyed) (history : List StoreChange) : (s.changes history).Keyed := by
  induction history generalizing s with
  | nil => exact keyed
  | cons c history ih => exact ih (keyed.change c)

theorem keyed_changes (history : List StoreChange) : (({} : Store).changes history).Keyed :=
  Keyed.changes (fun name t stored => by cases stored) history

theorem Keyed.ascending (keyed : s.Keyed) : s.allTables.Pairwise (·.name < ·.name) := by
  refine List.pairwise_map.2 (s.tables.ascending.imp_of_mem fun {a b} ha hb less => ?_)
  rwa [keyed a.1 a.2 (Dictionary.mem_entries_iff.1 ha), keyed b.1 b.2 (Dictionary.mem_entries_iff.1 hb)]

theorem Keyed.mem_allTables (keyed : s.Keyed) {t : Table} : t ∈ s.allTables ↔ s.table t.name = some t := by
  constructor
  · intro mem
    obtain ⟨⟨name, _⟩, entry, rfl⟩ := List.mem_map.1 mem
    have stored := Dictionary.mem_entries_iff.1 entry
    have own := keyed _ _ stored
    exact own ▸ stored
  · exact fun stored => List.mem_map.2 ⟨(t.name, t), Dictionary.mem_entries_iff.2 stored, rfl⟩

/-- A removal takes the table of one name off the list. -/
theorem Keyed.allTables_remove (keyed : s.Keyed) (name : String) :
    (s.change (.remove name)).allTables = s.allTables.filter (·.name ≠ name) := by
  have left : (s.change (.remove name)).tables.entries = s.tables.entries.filter (·.1 ≠ name) := by
    rw [Store.change]
    cases stored : s.table name with
    | none => rw [delete_of_missing stored, ← Dictionary.entries_erase, Dictionary.erase_of_find?_eq_none stored]
    | some t =>
      rw [delete_of_stored stored]
      rfl
  have own : ∀ e ∈ s.tables.entries, decide (e.1 ≠ name) = decide (e.2.name ≠ name) := by
    intro e he
    rw [keyed e.1 e.2 (Dictionary.mem_entries_iff.1 he)]
  rw [allTables, Dictionary.values, left, List.filter_congr own, allTables, Dictionary.values, List.filter_map]
  rfl

/-- In whatever order the tables are found, to sort them by name is to list them. -/
theorem Keyed.sort (keyed : s.Keyed) {found : List Table} (perm : found.Perm s.tables.values) :
    found.mergeSort (fun a b => a.name ≤ b.name) = s.allTables := by
  have sorted : (found.mergeSort fun a b => a.name ≤ b.name).Pairwise fun a b => a.name ≤ b.name := by
    refine (List.pairwise_mergeSort ?_ ?_ found).imp of_decide_eq_true
    · exact fun a b c h h' => decide_eq_true (String.le_trans (of_decide_eq_true h) (of_decide_eq_true h'))
    · intro a b
      rcases String.le_total a.name b.name with h | h
      · simp [h]
      · simp [h]
  have listed := (List.mergeSort_perm found fun a b => a.name ≤ b.name).trans perm
  refine listed.eq_of_pairwise (fun a b ha hb less less' => ?_) sorted
    (keyed.ascending.imp fun {a b} less => String.not_lt.1 fun h => String.lt_irrefl _ (String.lt_trans less h))
  have here := keyed.mem_allTables.1 (listed.subset ha)
  rw [String.le_antisymm less less', keyed.mem_allTables.1 hb] at here
  exact (Option.some.inj here).symm

/-! ### What counts -/

/-- A change that changes something: all but the removal of a table that is not there. -/
def takes (s : Store) : StoreChange → Bool
  | .remove name => (s.table name).isSome
  | _ => true

theorem change_of_not_takes {c : StoreChange} (h : s.takes c = false) : s.change c = s := by
  cases c with
  | remove name => rw [change, delete_of_missing (Option.isNone_iff_eq_none.1 (Option.isSome_eq_false_iff.1 h))]
  | put t => cases h
  | setSearch path => cases h

theorem generation_change (s : Store) (c : StoreChange) :
    (s.change c).generation = s.generation + (s.takes c).toNat := by
  cases c with
  | put t => rfl
  | setSearch path => rfl
  | remove name =>
    rw [change, takes]
    cases stored : s.table name with
    | none => rw [delete_of_missing stored]; rfl
    | some t => rw [delete_of_stored stored]; rfl

/-- The search path is in no cache. -/
theorem flushes_change (s : Store) (c : StoreChange) :
    (s.change c).flushes = s.flushes + (s.takes c && c.path?.isNone).toNat := by
  cases c with
  | put t => rfl
  | setSearch path => rfl
  | remove name =>
    rw [change, takes]
    cases stored : s.table name with
    | none => rw [delete_of_missing stored]; rfl
    | some t => rw [delete_of_stored stored]; rfl

/-- A change takes effect in one of three ways, of which two concern the tables. -/
theorem takes_changes (history : List StoreChange) (c : StoreChange) :
    ((({} : Store).changes history).takes c).toNat =
        puts [c] + (c.removesAfter history).toNat + replacements [c] ∧
      ((({} : Store).changes history).takes c && c.path?.isNone).toNat =
        puts [c] + (c.removesAfter history).toNat := by
  cases c with
  | put t => exact ⟨rfl, rfl⟩
  | setSearch path => exact ⟨rfl, rfl⟩
  | remove name =>
    rw [takes, table_changes, StoreChange.removesAfter]
    cases lastTable name history with
    | none => exact ⟨rfl, rfl⟩
    | some t => exact ⟨rfl, rfl⟩

theorem counters_changes (history : List StoreChange) :
    (({} : Store).changes history).generation = puts history + removals history + replacements history ∧
      (({} : Store).changes history).flushes = puts history + removals history := by
  induction history using List.reverseRecOn with
  | nil => exact ⟨rfl, rfl⟩
  | append_singleton history c ih =>
    obtain ⟨counted, flushed⟩ := takes_changes history c
    rw [changes_concat, generation_change, flushes_change, counted, flushed, puts_concat, removals_concat,
      replacements_concat]
    omega

theorem generation_changes_le (s : Store) (history : List StoreChange) :
    s.generation ≤ (s.changes history).generation := by
  induction history generalizing s with
  | nil => exact Nat.le_refl _
  | cons c history ih =>
    refine Nat.le_trans ?_ (ih (s.change c))
    rw [generation_change]
    exact Nat.le_add_right ..

/-- Where nothing was counted, nothing was changed. -/
theorem changes_of_generation (h : (s.changes history).generation = s.generation) : s.changes history = s := by
  induction history generalizing s with
  | nil => rfl
  | cons c history ih =>
    have counted := generation_change s c
    have more := generation_changes_le (s.change c) history
    change ((s.change c).changes history).generation = _ at h
    cases takes : s.takes c with
    | false =>
      have same := change_of_not_takes takes
      change (s.change c).changes history = s
      rw [same] at h ⊢
      exact ih h
    | true =>
      rw [takes, Bool.toNat_true] at counted
      omega

/-! ### Changes of different names -/

theorem leaves_of_ne {c : StoreChange} (of : c.name? = some name) {name' : String} (differ : name ≠ name') :
    c.leaves name' = none := by
  cases c with
  | setSearch path => rfl
  | put t =>
    cases of
    exact if_neg differ
  | remove removed =>
    cases of
    exact if_neg differ

theorem path?_of_name? {c : StoreChange} (of : c.name? = some name) : c.path? = none := by
  cases c with
  | setSearch path => cases of
  | _ => rfl

/-- Whether a change takes effect is a matter of its own name. -/
theorem takes_change {c c' : StoreChange} {name name' : String} (of : c.name? = some name)
    (of' : c'.name? = some name') (differ : name ≠ name') : (s.change c').takes c = s.takes c := by
  cases c with
  | remove removed =>
    cases of
    rw [takes, takes, table_change, leaves_of_ne of' (Ne.symm differ)]
    rfl
  | _ => rfl

theorem eq_of_fields (tables : s.tables = s'.tables) (search : s.search = s'.search)
    (generation : s.generation = s'.generation) (flushes : s.flushes = s'.flushes) : s = s' := by
  cases s
  cases s'
  cases tables
  cases search
  cases generation
  cases flushes
  rfl

theorem change_comm (s : Store) {c c' : StoreChange} (apart : c.Apart c') :
    (s.change c).change c' = (s.change c').change c := by
  obtain ⟨name, name', of, of', differ⟩ := apart
  refine eq_of_fields (Dictionary.ext_find? fun asked => ?_) ?_ ?_ ?_
  · change ((s.change c).change c').table asked = ((s.change c').change c).table asked
    rw [table_change, table_change, table_change, table_change]
    by_cases first : name = asked
    · subst first
      rw [leaves_of_ne of' (Ne.symm differ)]
      rfl
    · rw [leaves_of_ne of first]
      rfl
  · rw [search_change, search_change, search_change, search_change, path?_of_name? of, path?_of_name? of']
  · rw [generation_change, generation_change, generation_change, generation_change, takes_change of of' differ,
      takes_change of' of (Ne.symm differ)]
    omega
  · rw [flushes_change, flushes_change, flushes_change, flushes_change, takes_change of of' differ,
      takes_change of' of (Ne.symm differ)]
    omega

theorem change_changes_comm (s : Store) {c : StoreChange} (apart : ∀ d ∈ history, c.Apart d) :
    (s.change c).changes history = (s.changes history).change c := by
  induction history generalizing s with
  | nil => rfl
  | cons d history ih =>
    obtain ⟨first, apart⟩ := List.forall_mem_cons.1 apart
    change ((s.change c).change d).changes history = ((s.change d).changes history).change c
    rw [change_comm s first, ih _ apart]

theorem changes_comm (s : Store) {history' : List StoreChange} (apart : ∀ c ∈ history, ∀ d ∈ history', c.Apart d) :
    (s.changes history).changes history' = (s.changes history').changes history := by
  induction history generalizing s with
  | nil => rfl
  | cons c history ih =>
    obtain ⟨first, apart⟩ := List.forall_mem_cons.1 apart
    change ((s.change c).changes history).changes history' = ((s.changes history').change c).changes history
    rw [ih _ apart, change_changes_comm s first]

end Store

end Switchyard
