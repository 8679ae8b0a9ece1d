import Switchyard.Proofs.Redirect.Mappings
import Switchyard.Redirect.Convergence

/-!
A pass over the table. Main statement: the calls between two tables, made one after the other on the first, give the
second.
-/
namespace Switchyard

namespace Mappings

variable {a : Address} {p : UInt16}

theorem find?_performAll_clear (as : List Address) (m : Mappings) (a : Address) :
    (performAll m (as.map .clear)).find? a = if a ∈ as then none else m.find? a := by
  induction as generalizing m with
  | nil => rfl
  | cons b as ih =>
    have first : performAll m ((b :: as).map .clear) = performAll (m.erase b) (as.map .clear) := by
      rw [← perform_clear]
      rfl
    rw [first, ih, Dictionary.find?_erase]
    by_cases same : a = b <;> simp [same]

theorem performAll_forward_cons (m : Mappings) (e : Address × UInt16) (es : List (Address × UInt16)) :
    performAll m ((e :: es).map fun e => .forward e.1 e.2) =
      performAll (m.insert e.1 e.2) (es.map fun e => .forward e.1 e.2) := by
  rw [← perform_forward]
  rfl

theorem find?_performAll_forward_of_not_mem {es : List (Address × UInt16)} (h : a ∉ es.map Prod.fst) (m : Mappings) :
    (performAll m (es.map fun e => .forward e.1 e.2)).find? a = m.find? a := by
  induction es generalizing m with
  | nil => rfl
  | cons e es ih =>
    obtain ⟨other, h⟩ := List.ne_and_not_mem_of_not_mem_cons h
    rw [performAll_forward_cons, ih h, Dictionary.find?_insert_of_ne _ _ other]

theorem find?_performAll_forward_of_mem {es : List (Address × UInt16)} (once : (es.map Prod.fst).Nodup)
    (h : (a, p) ∈ es) (m : Mappings) : (performAll m (es.map fun e => .forward e.1 e.2)).find? a = some p := by
  induction es generalizing m with
  | nil => exact absurd h List.not_mem_nil
  | cons e es ih =>
    obtain ⟨fresh, once⟩ := List.nodup_cons.1 once
    rw [performAll_forward_cons]
    rcases List.mem_cons.1 h with rfl | h
    · rw [find?_performAll_forward_of_not_mem fresh, Dictionary.find?_insert_self]
    · exact ih once h _

theorem performAll_between (current wanted : Mappings) :
    performAll current (Convergence.between current wanted).operations = wanted := by
  refine Dictionary.ext_find? fun a => ?_
  rw [Convergence.operations, performAll_append]
  cases want : wanted.find? a with
  | none =>
    have kept : a ∉ (wanted.entries.filter fun e => current.find? e.1 ≠ some e.2).map Prod.fst := fun h => by
      obtain ⟨e, he, rfl⟩ := List.mem_map.1 h
      exact Dictionary.find?_eq_none_iff.1 want (List.mem_map_of_mem (List.mem_of_mem_filter he))
    refine (find?_performAll_forward_of_not_mem kept _).trans ((find?_performAll_clear _ _ _).trans ?_)
    split
    case isTrue => rfl
    case isFalse held =>
      have unwanted : wanted.contains a = false := by rw [Dictionary.contains, want]; rfl
      refine Dictionary.find?_eq_none_iff.2 fun key => held (List.mem_filter.2 ⟨key, ?_⟩)
      rw [unwanted]
      rfl
  | some p =>
    have entry := Dictionary.mem_entries_iff.2 want
    by_cases right : current.find? a = some p
    · have kept : a ∉ (wanted.entries.filter fun e => current.find? e.1 ≠ some e.2).map Prod.fst := fun h => by
        obtain ⟨⟨b, q⟩, he, rfl⟩ := List.mem_map.1 h
        obtain ⟨entry', wrong⟩ := List.mem_filter.1 he
        rw [Dictionary.value_unique entry' entry] at wrong
        exact of_decide_eq_true wrong right
      have wanted' : wanted.contains a = true := by rw [Dictionary.contains, want]; rfl
      refine (find?_performAll_forward_of_not_mem kept _).trans ((find?_performAll_clear _ _ _).trans ?_)
      rw [if_neg (by simp [wanted']), right]
    · have once : ((wanted.entries.filter fun e => current.find? e.1 ≠ some e.2).map Prod.fst).Nodup :=
        wanted.nodup_keys.sublist (List.filter_sublist.map _)
      exact find?_performAll_forward_of_mem once (List.mem_filter.2 ⟨entry, decide_eq_true right⟩) _

end Mappings

theorem find?_wantedMappings (routes : List Route) (port : UInt16) (a : Address) (p : UInt16) :
    (wantedMappings routes port).find? a = some p ↔
      p = port ∧ ∃ r ∈ routes, r.proto = a.proto ∧ Ipv4.ofText? r.ip = some a.ip := by
  have same : ∀ e ∈ routes.filterMap fun r => (Ipv4.ofText? r.ip).map fun ip => (Address.mk r.proto ip, port),
      e.2 = port := by
    intro e he
    obtain ⟨r, -, he⟩ := List.mem_filterMap.1 he
    obtain ⟨ip, -, rfl⟩ := Option.map_eq_some_iff.1 he
    rfl
  rw [wantedMappings, Dictionary.find?_ofList same, List.mem_filterMap]
  constructor
  · rintro ⟨r, hr, entry⟩
    obtain ⟨ip, read, same⟩ := Option.map_eq_some_iff.1 entry
    cases same
    exact ⟨rfl, r, hr, rfl, read⟩
  · rintro ⟨rfl, r, hr, proto, read⟩
    refine ⟨r, hr, ?_⟩
    rw [read, proto]
    rfl

end Switchyard
