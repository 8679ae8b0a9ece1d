import Switchyard.Proofs.Dictionary
import Switchyard.Redirect.Redirector

/-!
What calls on the redirector make of its table, apart from the commands they issue. Main statement: after any calls, the
entry of an address that was forwarded does not depend on what the table held before.
-/
namespace Switchyard

namespace Mappings

def apply (m : Mappings) : Effect → Mappings
  | .issue _ => m
  | .forget dest => m.erase dest
  | .record dest port => m.insert dest port
  | .forgetAll => .empty

def perform (m : Mappings) (op : Operation) : Mappings := (op.effects m).foldl apply m

def performAll (m : Mappings) (ops : List Operation) : Mappings := ops.foldl perform m

variable (m : Mappings)

@[simp] theorem perform_enable : perform m .enable = m := rfl

@[simp] theorem perform_disable : perform m .disable = .empty := rfl

@[simp] theorem perform_clear (dest : Address) : perform m (.clear dest) = m.erase dest := by
  cases found : m.find? dest with
  | some port => simp [perform, Operation.effects, Operation.effects.removal, found, apply]
  | none =>
    have same : perform m (.clear dest) = m := by simp [perform, Operation.effects, Operation.effects.removal, found]
    refine Dictionary.ext_find? fun a => ?_
    rw [same, Dictionary.find?_erase]
    split
    case isTrue gone => rw [gone, found]
    case isFalse => rfl

@[simp] theorem perform_forward (dest : Address) (port : UInt16) :
    perform m (.forward dest port) = m.insert dest port := by
  cases found : m.find? dest with
  | none => simp [perform, Operation.effects, Operation.effects.removal, found, apply]
  | some old =>
    have replaced : perform m (.forward dest port) = (m.erase dest).insert dest port := by
      simp [perform, Operation.effects, Operation.effects.removal, found, apply]
    refine Dictionary.ext_find? fun a => ?_
    rw [replaced, Dictionary.find?_insert, Dictionary.find?_insert, Dictionary.find?_erase]
    split <;> rfl

theorem performAll_snoc (ops : List Operation) (op : Operation) :
    performAll m (ops ++ [op]) = (performAll m ops).perform op := List.foldl_concat ..

theorem performAll_append (ops ops' : List Operation) :
    performAll m (ops ++ ops') = (performAll m ops).performAll ops' := List.foldl_append ..

variable {ops : List Operation} {a : Address}

theorem find?_performAll_of_forwarded (m' : Mappings) (h : ∃ port, .forward a port ∈ ops) :
    (performAll m ops).find? a = (performAll m' ops).find? a := by
  induction ops using List.reverseRecOn with
  | nil =>
    obtain ⟨_, h⟩ := h
    exact absurd h List.not_mem_nil
  | append_singleton ops op ih =>
    obtain ⟨port, h⟩ := h
    rw [performAll_snoc, performAll_snoc]
    -- either the address was forwarded before, or it is by the last call
    rcases List.mem_append.1 h with earlier | last
    · have ih := ih ⟨port, earlier⟩
      cases op with
      | enable => exact ih
      | disable => rfl
      | clear dest =>
        rw [perform_clear, perform_clear, Dictionary.find?_erase, Dictionary.find?_erase, ih]
      | forward dest port =>
        rw [perform_forward, perform_forward, Dictionary.find?_insert, Dictionary.find?_insert, ih]
    · rw [← List.mem_singleton.1 last, perform_forward, perform_forward, Dictionary.find?_insert_self,
        Dictionary.find?_insert_self]

/-- From an empty table, an address never forwarded has no entry. -/
theorem find?_performAll_empty (h : ∀ port, .forward a port ∉ ops) : (performAll .empty ops).find? a = none := by
  induction ops using List.reverseRecOn with
  | nil => rfl
  | append_singleton ops op ih =>
    have ih := ih fun port hp => h port (List.mem_append_left _ hp)
    rw [performAll_snoc]
    cases op with
    | enable => exact ih
    | disable => rfl
    | clear dest =>
      rw [perform_clear, Dictionary.find?_erase, ih, ite_self]
    | forward dest port =>
      have other : a ≠ dest := fun same => h port (same ▸ List.mem_append_right _ (List.mem_singleton.2 rfl))
      rw [perform_forward, Dictionary.find?_insert_of_ne _ _ other, ih]

/-- Nothing is left from before the calls exactly when all that stands in the table was forwarded by them. -/
theorem performAll_eq_iff :
    performAll m ops = performAll .empty ops ↔ ∀ a ∈ (performAll m ops).keys, ∃ port, .forward a port ∈ ops := by
  constructor
  · intro same a known
    by_contra never
    have missing := find?_performAll_empty fun port h => never ⟨port, h⟩
    rw [← same] at missing
    exact Dictionary.find?_eq_none_iff.1 missing known
  · refine fun forwarded => Dictionary.ext_find? fun a => ?_
    by_cases h : ∃ port, .forward a port ∈ ops
    · exact find?_performAll_of_forwarded m .empty h
    · rw [find?_performAll_empty fun port hp => h ⟨port, hp⟩]
      exact Dictionary.find?_eq_none_iff.2 fun known => h (forwarded a known)

end Mappings

namespace Redirector

@[simp] theorem mappings_apply (t : Redirector) (e : Effect) : (t.apply e).mappings = t.mappings.apply e := by
  cases e <;> rfl

theorem mappings_foldl (es : List Effect) (t : Redirector) :
    (es.foldl apply t).mappings = es.foldl Mappings.apply t.mappings := by
  induction es generalizing t with
  | nil => rfl
  | cons e es ih => rw [List.foldl_cons, List.foldl_cons, ih, mappings_apply]

theorem mappings_perform (t : Redirector) (op : Operation) : (t.perform op).mappings = t.mappings.perform op :=
  mappings_foldl _ t

theorem mappings_performAll (ops : List Operation) (t : Redirector) :
    (t.performAll ops).mappings = t.mappings.performAll ops := by
  induction ops generalizing t with
  | nil => rfl
  | cons op ops ih =>
    have first : (t.performAll (op :: ops)).mappings = ((t.perform op).performAll ops).mappings := rfl
    rw [first, ih, mappings_perform]
    rfl

end Redirector

end Switchyard
