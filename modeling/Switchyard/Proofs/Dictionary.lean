import Mathlib.Data.List.Induction
import Mathlib.Data.List.Nodup
import Mathlib.Data.List.Perm.Basic
import Mathlib.Data.Set.Card
import Switchyard.Dictionary

/-!
A dictionary is what looking up in it shows: its entries as a set, and what a write makes of them.
-/
namespace Switchyard

/-- A list without repetition has as many members as elements. -/
theorem ncard_of_nodup {α : Type} {l : List α} {P : α → Prop} (once : l.Nodup) (mem : ∀ a, a ∈ l ↔ P a) :
    {a | P a}.ncard = l.length := by
  classical
  have listed : {a | P a} = (l.toFinset : Set α) := by
    ext a
    simp [mem]
  rw [listed, Set.ncard_coe_finset, List.toFinset_card_of_nodup once]

namespace Dictionary

variable {κ β : Type} [LT κ] [DecidableEq κ] {d d' : Dictionary κ β} {k k' : κ} {v : β}

theorem contains_iff_mem_keys : d.contains k = true ↔ k ∈ d.keys := by
  simp [contains, find?, keys]

theorem find?_eq_none_iff : d.find? k = none ↔ k ∉ d.keys := by
  rw [← contains_iff_mem_keys, contains, Option.not_isSome_iff_eq_none]

theorem find?_erase (d : Dictionary κ β) (k k' : κ) :
    (d.erase k).find? k' = if k' = k then none else d.find? k' := by
  split
  case isTrue same => exact same ▸ find?_erase_self ..
  case isFalse differ => exact find?_erase_of_ne _ differ

theorem entries_erase (d : Dictionary κ β) (k : κ) : (d.erase k).entries = d.entries.filter (·.1 ≠ k) := rfl

theorem erase_of_find?_eq_none (h : d.find? k = none) : (d.erase k).entries = d.entries := by
  refine List.filter_eq_self.2 fun e he => decide_eq_true fun same => ?_
  exact find?_eq_none_iff.1 h (same ▸ List.mem_map_of_mem he)

section order
variable [DecidableLT κ] [KeyOrder κ]

theorem find?_insert (d : Dictionary κ β) (k : κ) (v : β) (k' : κ) :
    (d.insert k v).find? k' = if k' = k then some v else d.find? k' := by
  split
  case isTrue same => exact same ▸ find?_insert_self ..
  case isFalse differ => exact find?_insert_of_ne _ _ differ

omit [DecidableEq κ] [DecidableLT κ] in
theorem nodup_keys (d : Dictionary κ β) : d.keys.Nodup := by
  refine List.pairwise_map.2 (d.ascending.imp fun less same => ?_)
  exact KeyOrder.irrefl _ (same ▸ less)

omit [DecidableEq κ] [DecidableLT κ] in
theorem nodup_entries (d : Dictionary κ β) : d.entries.Nodup := d.nodup_keys.of_map _

omit [DecidableEq κ] [DecidableLT κ] in
theorem value_unique {v v' : β} (h : (k, v) ∈ d.entries) (h' : (k, v') ∈ d.entries) : v = v' := by
  have same := List.inj_on_of_nodup_map d.nodup_keys h h' rfl
  exact congrArg Prod.snd same

omit [DecidableLT κ] in
theorem mem_entries_iff : (k, v) ∈ d.entries ↔ d.find? k = some v := by
  constructor
  · intro h
    cases found : d.find? k with
    | none => exact absurd (List.mem_map_of_mem h) (find?_eq_none_iff.1 found)
    | some v' =>
      obtain ⟨⟨k', _⟩, he, rfl⟩ := Option.map_eq_some_iff.1 found
      have key : k' = k := by simpa using List.find?_some he
      subst key
      rw [value_unique h (List.mem_of_find?_eq_some he)]
  · intro h
    obtain ⟨⟨k', _⟩, he, rfl⟩ := Option.map_eq_some_iff.1 h
    have key : k' = k := by simpa using List.find?_some he
    exact key ▸ List.mem_of_find?_eq_some he

omit [DecidableEq κ] [DecidableLT κ] in
theorem eq_of_entries_perm (perm : d.entries.Perm d'.entries) : d = d' := by
  have entries : d.entries = d'.entries := by
    refine perm.eq_of_pairwise (fun a b _ _ less less' => ?_) d.ascending d'.ascending
    exact absurd (KeyOrder.trans less less') (KeyOrder.irrefl _)
  cases d
  cases d'
  cases entries
  rfl

omit [DecidableLT κ] in
/-- Two dictionaries that answer every look-up alike are one. -/
theorem ext_find? (h : ∀ k, d.find? k = d'.find? k) : d = d' := by
  refine eq_of_entries_perm ?_
  refine (List.perm_ext_iff_of_nodup d.nodup_entries d'.nodup_entries).2 fun ⟨k, v⟩ => ?_
  rw [mem_entries_iff, mem_entries_iff, h]

omit [DecidableLT κ] in
theorem entries_perm_cons_erase (h : d.find? k = some v) : d.entries.Perm ((k, v) :: (d.erase k).entries) := by
  have fresh : (k, v) ∉ (d.erase k).entries := by simp [entries_erase]
  refine (List.perm_ext_iff_of_nodup d.nodup_entries (List.nodup_cons.2 ⟨fresh, nodup_entries _⟩)).2
    fun ⟨k', v'⟩ => ?_
  rw [List.mem_cons, mem_entries_iff, mem_entries_iff, find?_erase]
  by_cases same : k' = k
  · simp [same, h, eq_comm]
  · simp [same]

theorem erase_insert (d : Dictionary κ β) (k : κ) (v : β) : (d.insert k v).erase k = d.erase k := by
  refine ext_find? fun k' => ?_
  rw [find?_erase, find?_erase]
  split
  case isTrue => rfl
  case isFalse differ => exact find?_insert_of_ne _ _ differ

theorem entries_insert_perm (d : Dictionary κ β) (k : κ) (v : β) :
    (d.insert k v).entries.Perm ((k, v) :: (d.erase k).entries) := by
  have split := entries_perm_cons_erase (d.find?_insert_self k v)
  rwa [erase_insert] at split

/-- Where all pairs have one value, it does not matter which of them come later. -/
theorem find?_ofList {l : List (κ × β)} (same : ∀ e ∈ l, e.2 = v) {v' : β} :
    (ofList l).find? k = some v' ↔ (k, v') ∈ l := by
  induction l using List.reverseRecOn with
  | nil => simp [ofList]
  | append_singleton l e ih =>
    have last : (ofList (l ++ [e])).find? k = if k = e.1 then some e.2 else (ofList l).find? k := by
      rw [ofList, List.foldl_concat, find?_insert]
      rfl
    have ih := ih fun e' he' => same e' (List.mem_append_left _ he')
    rw [last, List.mem_append, List.mem_singleton, ← ih]
    split
    case isFalse differ => simp [Prod.ext_iff, differ]
    case isTrue key =>
      have earlier : (ofList l).find? k = some v' → e.2 = v' := fun h =>
        (same e (by simp)).trans (same (k, v') (List.mem_append_left _ (ih.1 h))).symm
      rw [Option.some.injEq, Prod.ext_iff]
      exact ⟨fun value => .inr ⟨key, value.symm⟩, fun h => h.elim earlier fun h => h.2.symm⟩

end order

end Dictionary

end Switchyard
