import Switchyard.Proofs.Text.Words
import Switchyard.Text.Natural

/-!
Numbers read with a bound. Main statements: a number that is read is below the bound, and every number below the bound
is read from its digits.
-/
namespace Switchyard.Text

variable {limit value n : Nat} {ds : List Char} {s : String}

theorem le_ofDigitChars (ds : List Char) (value : Nat) : value ≤ Nat.ofDigitChars 10 ds value := by
  have front : Nat.ofDigitChars 10 ds value = 10 ^ ds.length * value + Nat.ofDigitChars 10 ds 0 :=
    Nat.ofDigitChars_eq_ofDigitChars_zero
  have shifted : value ≤ 10 ^ ds.length * value := Nat.le_mul_of_pos_left value (Nat.pow_pos (by decide))
  omega

theorem readDigits_of_lt (digits : ∀ c ∈ ds, c.isDigit = true) (small : Nat.ofDigitChars 10 ds value < limit) :
    readDigits limit value ds = .ok (Nat.ofDigitChars 10 ds value) := by
  induction ds generalizing value with
  | nil => rfl
  | cons c ds ih =>
    obtain ⟨first, digits⟩ := List.forall_mem_cons.1 digits
    have read : digit? c = some (c.toNat - '0'.toNat) := if_pos first
    have shifted : value * 10 + (c.toNat - '0'.toNat) = 10 * value + (c.toNat - '0'.toNat) := by
      rw [Nat.mul_comm]
    rw [Nat.ofDigitChars_cons] at small ⊢
    have begun := le_ofDigitChars ds (10 * value + (c.toNat - '0'.toNat))
    simp only [readDigits, read, shifted]
    rw [if_neg (by omega)]
    exact ih digits small

/-- The bound holds of every number on the way. -/
theorem lt_of_readDigits (start : value < limit) (h : readDigits limit value ds = .ok n) : n < limit := by
  induction ds generalizing value with
  | nil =>
    cases h
    exact start
  | cons c ds ih =>
    unfold readDigits at h
    split at h
    next => cases h
    next d _ =>
      split at h
      next => cases h
      next within => exact ih (Nat.lt_of_not_le within) h

theorem lt_of_readNatural (positive : 0 < limit) (h : readNatural limit s = .ok n) : n < limit := by
  unfold readNatural at h
  split at h
  next => cases h
  next =>
    split at h
    next => cases h
    next => exact lt_of_readDigits positive h
  next => exact lt_of_readDigits positive h

theorem readNatural_toString (h : n < limit) : readNatural limit (toString n) = .ok n := by
  have written : (toString n).toList = Nat.toDigits 10 n := by rw [Nat.toString_eq_repr, Nat.toList_repr]
  have digits : ∀ c ∈ Nat.toDigits 10 n, c.isDigit = true := fun c hc =>
    Nat.isDigit_of_mem_toDigits (by decide) (by decide) hc
  have read : readDigits limit 0 (Nat.toDigits 10 n) = .ok n := by
    have value : Nat.ofDigitChars 10 (Nat.toDigits 10 n) 0 = n := Nat.ofDigitChars_ten_toDigits
    rw [readDigits_of_lt digits (by rw [value]; exact h), value]
  rw [readNatural, written]
  split
  next empty => exact absurd empty Nat.toDigits_ne_nil
  next sign => exact absurd (digits '+' (sign ▸ List.mem_cons_self)) (by decide)
  next => exact read

end Switchyard.Text
