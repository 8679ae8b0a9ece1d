import Switchyard.Backoff

/-!
The sequence of delays. Main statement: a policy in whole milliseconds has no delay that is not.
-/
namespace Switchyard

/-- Nothing below a millisecond. -/
def Duration.IsWhole (d : Duration) : Prop := d.toNanos % 1000000 = 0

instance (d : Duration) : Decidable d.IsWhole := inferInstanceAs (Decidable (_ = _))

theorem Duration.ceilMillis_of_isWhole {d : Duration} (h : d.IsWhole) : d.ceilMillis * 1000000 = d.toNanos := by
  simp only [IsWhole, toNanos, ceilMillis, nanosPerSecond] at *
  omega

theorem Duration.not_isWhole_longest : ¬ longest.IsWhole := by decide

theorem Duration.isWhole_min_mul {d max : Duration} (hd : d.IsWhole) (hmax : max.IsWhole) (n : Nat) :
    ((d.mul n).min max).IsWhole := by
  unfold Duration.min
  split
  case isFalse => exact hmax
  case isTrue below =>
    have below := (le_iff _ _).1 below
    have product := toNanos_mul d n
    by_cases fits : d.toNanos * n ≤ longest.toNanos
    · have uncut : (d.mul n).toNanos = d.toNanos * n := product.trans (Nat.min_eq_left fits)
      rw [IsWhole] at hd ⊢
      rw [uncut, Nat.mul_mod, hd, Nat.zero_mul, Nat.zero_mod]
    · -- the longest duration is not whole, so no product is cut off below a whole maximum
      have cut : (d.mul n).toNanos = longest.toNanos := product.trans (Nat.min_eq_right (Nat.le_of_not_le fits))
      have reached : longest.toNanos ≤ max.toNanos := Nat.le_trans (Nat.le_of_eq cut.symm) below
      have top : max.toNanos = longest.toNanos := Nat.le_antisymm (toNanos_longest_ge max) reached
      rw [IsWhole, top] at hmax
      exact absurd hmax not_isWhole_longest

namespace Backoff

/-- The delay after `n` others, the first of which had none before it. -/
def nth (b : Backoff) : Nat → Duration
  | 0 => b.next none
  | n + 1 => b.next (some (b.nth n))

/-- What stands before `nth`. -/
def before (b : Backoff) : Nat → Option Duration
  | 0 => none
  | n + 1 => some (b.nth n)

theorem next_before (b : Backoff) (n : Nat) : b.next (b.before n) = b.nth n := by
  cases n <;> rfl

theorem isWhole_nth {b : Backoff} (first : b.first.IsWhole) (max : b.max.IsWhole) (n : Nat) : (b.nth n).IsWhole := by
  induction n with
  | zero => exact first
  | succ n ih =>
    rw [nth, next]
    split
    · exact first
    · exact Duration.isWhole_min_mul ih max _

end Backoff

end Switchyard
