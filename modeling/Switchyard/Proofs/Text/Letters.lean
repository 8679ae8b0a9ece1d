import Mathlib.Data.List.Forall2

/-!
Texts that differ in the case of ASCII letters only.
-/
namespace Switchyard.Text

/-- The same character, or one letter of ASCII in two cases. Outside ASCII only the character itself will do. -/
def SameLetter (a b : Char) : Prop := a = b ∨ a.toNat < 128 ∧ b.toNat < 128 ∧ a.toLower = b.toLower

def SameLetters (s s' : String) : Prop := List.Forall₂ SameLetter s.toList s'.toList

variable {a b : Char} {s s' t t' : String}

/-- Only the capitals of ASCII have another lower case. -/
theorem toNat_toLower (h : a.toLower ≠ a) :
    65 ≤ a.toNat ∧ a.toNat ≤ 90 ∧ a.toLower.toNat = a.toNat + 32 := by
  unfold Char.toLower at h ⊢
  split at h
  next capital =>
    have first : 65 ≤ a.toNat := UInt32.le_iff_toNat_le.1 capital.1
    have last : a.toNat ≤ 90 := UInt32.le_iff_toNat_le.1 capital.2
    have small : a.toNat + 32 < 2 ^ 32 := by omega
    rw [dif_pos capital]
    exact ⟨first, last, (UInt32.toNat_add ..).trans (Nat.mod_eq_of_lt small)⟩
  next => exact absurd rfl h

theorem sameLetter_iff : SameLetter a b ↔ a.toLower = b.toLower := by
  constructor
  · rintro (rfl | ⟨_, _, same⟩)
    · rfl
    · exact same
  · intro same
    by_cases ha : a.toLower = a
    · by_cases hb : b.toLower = b
      · exact .inl (ha.symm.trans (same.trans hb))
      · have capital := toNat_toLower hb
        have lower : a.toNat = b.toNat + 32 := by rw [← ha, same, capital.2.2]
        exact .inr ⟨by omega, by omega, same⟩
    · have capital := toNat_toLower ha
      by_cases hb : b.toLower = b
      · have lower : b.toNat = a.toNat + 32 := by rw [← hb, ← same, capital.2.2]
        exact .inr ⟨by omega, by omega, same⟩
      · have capital' := toNat_toLower hb
        exact .inr ⟨by omega, by omega, same⟩

theorem sameLetters_iff : SameLetters s s' ↔ s.toList.map Char.toLower = s'.toList.map Char.toLower := by
  have letters : SameLetter = fun a b => a.toLower = b.toLower := by
    funext a b
    exact propext sameLetter_iff
  rw [SameLetters, letters, ← List.forall₂_eq_eq_eq, List.forall₂_map_left_iff, List.forall₂_map_right_iff]

theorem SameLetters.refl (s : String) : SameLetters s s := sameLetters_iff.2 rfl

theorem SameLetters.symm (h : SameLetters s s') : SameLetters s' s :=
  sameLetters_iff.2 (sameLetters_iff.1 h).symm

theorem SameLetters.append (h : SameLetters s s') (h' : SameLetters t t') : SameLetters (s ++ t) (s' ++ t') := by
  rw [SameLetters, String.toList_append, String.toList_append]
  exact List.rel_append h h'

/-- No other character becomes a dot. -/
theorem toLower_eq_dot_iff : a.toLower = '.' ↔ a = '.' := by
  constructor
  · intro h
    by_contra other
    have moved : a.toLower ≠ a := fun same => other (same.symm.trans h)
    obtain ⟨first, _, lower⟩ := toNat_toLower moved
    have dot : a.toNat + 32 = 46 := by rw [← lower, h]; rfl
    omega
  · rintro rfl
    rfl

theorem SameLetters.getLast?_eq_dot_iff (h : SameLetters s s') :
    s.toList.getLast? = some '.' ↔ s'.toList.getLast? = some '.' := by
  have dotted (s : String) :
      s.toList.getLast? = some '.' ↔ (s.toList.map Char.toLower).getLast? = some '.' := by
    rw [List.getLast?_map]
    cases s.toList.getLast? with
    | none => simp
    | some c => simp [toLower_eq_dot_iff]
  rw [dotted s, dotted s', sameLetters_iff.1 h]

end Switchyard.Text
