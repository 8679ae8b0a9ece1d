import Mathlib.Data.List.Basic
import Mathlib.Tactic.Common
import Switchyard.Text.Utf8

/-!
The characters of some bytes against those of the same bytes with more behind them. Main statement: they are the same
but for a character that has been cut in two, of which each byte counts as none.
-/
namespace Switchyard.Text

variable {b : UInt8} {bs r t : List UInt8} {c : Char}

/-- A character is a byte and the bytes inside it, whatever stands behind. -/
theorem firstChar?_eq_some (h : firstChar? (b :: bs) = some (c, r)) :
    ∃ inside, bs = inside ++ r ∧ (∀ b' ∈ inside, isContinuation b' = true) ∧
      ∀ t, firstChar? (b :: (inside ++ t)) = some (c, t) := by
  unfold firstChar? at h
  dsimp only at h
  split at h
  case isTrue ascii =>
    simp only [Option.some.injEq, Prod.mk.injEq] at h
    obtain ⟨rfl, rfl⟩ := h
    exact ⟨[], rfl, nofun, fun t => by simp only [List.nil_append, firstChar?, if_pos ascii]⟩
  case isFalse =>
    repeat' split at h
    all_goals simp only [reduceCtorEq, Option.some.injEq, Prod.mk.injEq] at h
    all_goals
      obtain ⟨rfl, rfl⟩ := h
    · refine ⟨[_], rfl, by simpa, fun t => ?_⟩
      simp only [List.cons_append, List.nil_append, firstChar?, *, if_true, if_false]
    · refine ⟨[_, _], rfl, by simp_all, fun t => ?_⟩
      simp only [List.cons_append, List.nil_append, firstChar?, *, if_true, if_false]
      rfl
    · refine ⟨[_, _, _], rfl, by simp_all, fun t => ?_⟩
      simp only [List.cons_append, List.nil_append, firstChar?, *, if_true, if_false]
      rfl

/-- A byte inside a character begins none. -/
theorem firstChar?_continuation (h : isContinuation b = true) (bs : List UInt8) : firstChar? (b :: bs) = none := by
  simp only [isContinuation, Bool.and_eq_true, decide_eq_true_eq, UInt8.lt_iff_toNat_lt, UInt8.le_iff_toNat_le] at h
  simp only [firstChar?, Bool.and_eq_true, decide_eq_true_eq, UInt8.lt_iff_toNat_lt, UInt8.le_iff_toNat_le]
  obtain ⟨low, high⟩ := h
  have : (0x80 : UInt8).toNat = 0x80 := rfl
  have : (0xC0 : UInt8).toNat = 0xC0 := rfl
  have : (0xC2 : UInt8).toNat = 0xC2 := rfl
  have : (0xE0 : UInt8).toNat = 0xE0 := rfl
  have : (0xF0 : UInt8).toNat = 0xF0 := rfl
  rw [if_neg (by omega), if_neg (by omega), if_neg (by omega), if_neg (by omega)]

/-- Where more bytes make a character of none, all that there were belong to it. -/
theorem isContinuation_of_cut (short : firstChar? (b :: bs) = none)
    (whole : firstChar? (b :: (bs ++ t)) = some (c, r)) : ∀ b' ∈ bs, isContinuation b' = true := by
  obtain ⟨inside, split, continuation, any⟩ := firstChar?_eq_some whole
  rcases List.append_eq_append_iff.1 split with ⟨more, rfl, -⟩ | ⟨more, rfl, -⟩
  · exact fun b' hb => continuation b' (List.mem_append_left _ hb)
  · rw [any more] at short
    cases short

/-! ### All characters -/

/-- Fuel for every byte is enough. -/
theorem decodeFrom_congr {fuel fuel' : Nat} (h : bs.length ≤ fuel) (h' : bs.length ≤ fuel') :
    decodeFrom fuel bs = decodeFrom fuel' bs := by
  induction fuel generalizing fuel' bs with
  | zero =>
    obtain rfl := List.length_eq_zero_iff.1 (Nat.le_zero.1 h)
    cases fuel' <;> rfl
  | succ fuel ih =>
    cases bs with
    | nil => cases fuel' <;> rfl
    | cons b bs =>
      obtain ⟨fuel', rfl⟩ := Nat.exists_eq_add_one_of_ne_zero (Nat.ne_of_gt (Nat.lt_of_lt_of_le bs.length.succ_pos h'))
      rw [List.length_cons] at h h'
      rw [decodeFrom, decodeFrom]
      split
      next c r first =>
        obtain ⟨inside, rfl, -, -⟩ := firstChar?_eq_some first
        rw [List.length_append] at h h'
        exact congrArg _ (ih (by omega) (by omega))
      next => exact congrArg _ (ih (by omega) (by omega))

theorem decodeBytes_some (h : firstChar? (b :: bs) = some (c, r)) :
    decodeBytes (b :: bs) = some c :: decodeBytes r := by
  obtain ⟨inside, rfl, -, -⟩ := firstChar?_eq_some h
  have enough : r.length ≤ (inside ++ r).length := by simp
  rw [decodeBytes, List.length_cons, decodeFrom, h]
  simp only [decodeBytes, decodeFrom_congr enough (Nat.le_refl _)]

theorem decodeBytes_none (h : firstChar? (b :: bs) = none) : decodeBytes (b :: bs) = none :: decodeBytes bs := by
  rw [decodeBytes, List.length_cons, decodeFrom, h]
  rfl

theorem decodeBytes_continuation (h : ∀ b ∈ bs, isContinuation b = true) :
    decodeBytes bs = List.replicate bs.length none := by
  induction bs with
  | nil => rfl
  | cons b bs ih =>
    obtain ⟨first, h⟩ := List.forall_mem_cons.1 h
    rw [decodeBytes_none (firstChar?_continuation first bs), ih h]
    rfl

theorem decodeBytes_append (bs t : List UInt8) :
    decodeBytes (bs ++ t) = decodeBytes bs ++ decodeBytes t ∨
      ∃ front n behind, decodeBytes bs = front ++ List.replicate (n + 1) none ∧
        decodeBytes (bs ++ t) = front ++ behind := by
  induction h : bs.length using Nat.strongRecOn generalizing bs with
  | _ n ih =>
    cases bs with
    | nil => exact .inl rfl
    | cons b bs =>
      rw [List.length_cons] at h
      rw [List.cons_append]
      cases first : firstChar? (b :: bs) with
      | some read =>
        obtain ⟨c, r⟩ := read
        obtain ⟨inside, rfl, -, any⟩ := firstChar?_eq_some first
        rw [List.length_append] at h
        rw [List.append_assoc, decodeBytes_some (any (r ++ t)), decodeBytes_some first]
        rcases ih r.length (by omega) r rfl with apart | ⟨front, n, behind, short, whole⟩
        · exact .inl (by rw [apart, List.cons_append])
        · exact .inr ⟨some c :: front, n, behind, by rw [short, List.cons_append], by rw [whole, List.cons_append]⟩
      | none =>
        rw [decodeBytes_none first]
        cases whole : firstChar? (b :: (bs ++ t)) with
        | some read =>
          have cut := decodeBytes_continuation (isContinuation_of_cut first whole)
          exact .inr ⟨[], bs.length, _, by rw [cut]; rfl, rfl⟩
        | none =>
          rw [decodeBytes_none whole]
          rcases ih bs.length (by omega) bs rfl with apart | ⟨front, n, behind, short, whole⟩
          · exact .inl (by rw [apart, List.cons_append])
          · exact .inr ⟨none :: front, n, behind, by rw [short, List.cons_append], by rw [whole, List.cons_append]⟩

end Switchyard.Text
