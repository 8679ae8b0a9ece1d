import Mathlib.Algebra.Group.Nat.Defs
import Switchyard.Proofs.Backoff

/-!
How delays grow from one to the next. Main statements: the delays of a policy that starts within its maximum and never
shrinks them are its first one times the powers of its factor, cut off at the maximum; and in any policy, only delays
that start a sequence can be longer than the maximum.
-/
namespace Switchyard.Backoff

variable (b : Backoff)

/-- Delays computed one by one. -/
theorem delays_before (count n : Nat) : b.delays count (b.before n) = (List.range' n count).map b.nth := by
  induction count generalizing n with
  | zero => rfl
  | succ count ih =>
    have later : some (b.nth n) = b.before (n + 1) := rfl
    rw [delays, next_before, later, ih, List.range'_succ, List.map_cons]

theorem toNanos_next_some (d : Duration) :
    (b.next (some d)).toNanos =
      if d.toNanos = 0 then b.first.toNanos else Nat.min (d.toNanos * b.factor) b.max.toNanos := by
  have zero := d.isZero_iff
  rw [next]
  by_cases h : d.toNanos = 0
  · rw [if_pos h, if_pos (zero.2 h)]
  · rw [if_neg h, if_neg fun z => h (zero.1 z), Duration.toNanos_min_mul]

/-! ### Growth up to the maximum -/

section growing
variable {b} (first : b.first.le b.max) (growing : 1 ≤ b.factor)
include first growing

theorem toNanos_nth (n : Nat) :
    (b.nth n).toNanos = Nat.min (b.first.toNanos * b.factor ^ n) b.max.toNanos := by
  have within := (Duration.le_iff _ _).1 first
  induction n with
  | zero =>
    rw [Nat.pow_zero, Nat.mul_one]
    exact (Nat.min_eq_left within).symm
  | succ n ih =>
    rw [nth, toNanos_next_some]
    split
    case isTrue zero =>
      -- the sequence starts over, but only because its first delay is zero
      have power : 0 < b.factor ^ n := Nat.pow_pos growing
      have none : b.first.toNanos = 0 := by
        rw [ih] at zero
        rcases Nat.min_eq_zero_iff.1 zero with product | max
        · exact (Nat.mul_eq_zero.1 product).resolve_right (Nat.ne_of_gt power)
        · omega
      rw [none, Nat.zero_mul]
      exact (Nat.zero_min _).symm
    case isFalse =>
      have above : b.max.toNanos ≤ b.max.toNanos * b.factor := Nat.le_mul_of_pos_right _ growing
      calc
        Nat.min ((b.nth n).toNanos * b.factor) b.max.toNanos =
            Nat.min (Nat.min (b.first.toNanos * b.factor ^ n * b.factor) (b.max.toNanos * b.factor)) b.max.toNanos := by
          rw [ih]
          exact congrArg (Nat.min · _) (Nat.mul_min_mul_right _ _ _).symm
        _ = Nat.min (b.first.toNanos * b.factor ^ n * b.factor) (Nat.min (b.max.toNanos * b.factor) b.max.toNanos) :=
          Nat.min_assoc _ _ _
        _ = Nat.min (b.first.toNanos * b.factor ^ (n + 1)) b.max.toNanos := by
          rw [Nat.pow_succ, Nat.mul_assoc]
          exact congrArg _ (Nat.min_eq_right above)

theorem nth_mono {m n : Nat} (h : m ≤ n) : (b.nth m).toNanos ≤ (b.nth n).toNanos := by
  have powers : b.factor ^ m ≤ b.factor ^ n := Nat.pow_le_pow_right growing h
  have products : b.first.toNanos * b.factor ^ m ≤ b.first.toNanos * b.factor ^ n := Nat.mul_le_mul_left _ powers
  rw [toNanos_nth first growing, toNanos_nth first growing]
  exact Nat.le_min.2 ⟨Nat.le_trans (Nat.min_le_left _ _) products, Nat.min_le_right _ _⟩

theorem nth_le_max (n : Nat) : (b.nth n).toNanos ≤ b.max.toNanos := by
  rw [toNanos_nth first growing]
  exact Nat.min_le_right _ _

/-- A policy that has come to its maximum stays there. -/
theorem nth_of_reached {m n : Nat} (reached : b.nth m = b.max) (h : m ≤ n) : b.nth n = b.max := by
  have lower := nth_mono first growing h
  have upper := nth_le_max first growing n
  rw [reached] at lower
  exact Duration.toNanos_inj.1 (Nat.le_antisymm upper lower)

end growing

/-- Computed one by one, in seconds and nanoseconds that are cut off at the longest duration, the delays are as exact as
if they were computed at once. -/
theorem delays_closed_form (first : b.first.le b.max) (growing : 1 ≤ b.factor) :
    (∀ count, b.delays count none = (List.range count).map b.nth) ∧
    (∀ n, (b.nth n).toNanos = min (b.first.toNanos * b.factor ^ n) b.max.toNanos) ∧
    (∀ m n, m ≤ n → (b.nth m).toNanos ≤ (b.nth n).toNanos) ∧
    ∀ m n, m ≤ n → b.nth m = b.max → b.nth n = b.max := by
  refine ⟨fun count => ?_, toNanos_nth first growing, fun m n => nth_mono first growing, fun m n h reached => ?_⟩
  · have computed := b.delays_before count 0
    rwa [← List.range_eq_range'] at computed
  · exact nth_of_reached first growing reached h

example : (standard.delays 8 none).map Duration.toMillis = [100, 200, 400, 800, 1600, 3000, 3000, 3000] := by decide

/-- The second delay is cut off, since it has more seconds than there is room for. -/
def widest : Backoff := ⟨⟨8589934592, 999999999, by decide, by decide⟩, .longest, 4294967295⟩

theorem delays_closed_form_widest :
    widest.first.le widest.max ∧ 1 ≤ widest.factor ∧
    ¬ widest.first.toNanos * widest.factor ≤ Duration.longest.toNanos ∧
    (∀ count, widest.delays count none = (List.range count).map widest.nth) ∧
    (∀ n, (widest.nth n).toNanos = min (widest.first.toNanos * widest.factor ^ n) widest.max.toNanos) ∧
    (∀ m n, m ≤ n → (widest.nth m).toNanos ≤ (widest.nth n).toNanos) ∧
    ∀ m n, m ≤ n → widest.nth m = widest.max → widest.nth n = widest.max := by
  have first : widest.first.le widest.max := by decide
  have growing : 1 ≤ widest.factor := by decide
  exact ⟨first, growing, by decide, delays_closed_form widest first growing⟩

/-! ### Delays longer than the maximum -/

/-- The first delay of a sequence is not cut off, nor is the one behind a zero delay, where it starts over. -/
theorem next_le_max_iff (previous : Option Duration) :
    (b.next previous).toNanos ≤ b.max.toNanos ↔
      b.first.toNanos ≤ b.max.toNanos ∨ ∃ d, previous = some d ∧ ¬ d.isZero := by
  cases previous with
  | none => simp [next]
  | some d =>
    have zero := d.isZero_iff
    rw [toNanos_next_some]
    split
    case isTrue h => simp [zero.2 h]
    case isFalse h =>
      have cut : Nat.min (d.toNanos * b.factor) b.max.toNanos ≤ b.max.toNanos := Nat.min_le_right _ _
      exact iff_of_true cut (.inr ⟨d, rfl, fun z => h (zero.1 z)⟩)

/-- Every delay behind one that is not zero is zero. -/
def Restarts : Prop := b.max.toNanos = 0 ∨ b.factor = 0

/-- A sequence starts over at every other delay or never. -/
theorem toNanos_nth_eq_zero_iff (positive : 0 < b.first.toNanos) (n : Nat) :
    (b.nth n).toNanos = 0 ↔ n % 2 = 1 ∧ b.Restarts := by
  induction n with
  | zero => simp [nth, next, Nat.ne_of_gt positive]
  | succ n ih =>
    have odd : (n + 1) % 2 = 1 ↔ ¬ n % 2 = 1 := by omega
    rw [nth, toNanos_next_some]
    split
    case isTrue zero =>
      have even : ¬ (n + 1) % 2 = 1 := fun h => odd.1 h (ih.1 zero).1
      exact iff_of_false (Nat.ne_of_gt positive) fun h => even h.1
    case isFalse other =>
      have cut : Nat.min ((b.nth n).toNanos * b.factor) b.max.toNanos = 0 ↔ b.Restarts := by
        refine Nat.min_eq_zero_iff.trans ?_
        rw [Nat.mul_eq_zero, or_iff_right other, Restarts]
        exact Or.comm
      rw [cut, odd]
      exact ⟨fun restarts => ⟨fun h => other (ih.2 ⟨h, restarts⟩), restarts⟩, And.right⟩

/-- In a sequence, too, only the delays with which it starts can be longer than the maximum. -/
theorem nth_le_max_iff (n : Nat) :
    (b.nth n).toNanos ≤ b.max.toNanos ↔
      b.first.toNanos ≤ b.max.toNanos ∨ n ≠ 0 ∧ (n % 2 = 0 → ¬ b.Restarts) := by
  rw [← next_before, next_le_max_iff]
  by_cases within : b.first.toNanos ≤ b.max.toNanos
  · exact iff_of_true (.inl within) (.inl within)
  · rw [or_iff_right within, or_iff_right within]
    cases n with
    | zero => simp [before]
    | succ n =>
      have positive : 0 < b.first.toNanos := Nat.zero_lt_of_lt (Nat.lt_of_not_le within)
      have zero : (b.nth n).isZero ↔ n % 2 = 1 ∧ b.Restarts :=
        (Duration.isZero_iff _).trans (toNanos_nth_eq_zero_iff b positive n)
      have parity : (n + 1) % 2 = 0 ↔ n % 2 = 1 := by omega
      constructor
      · rintro ⟨d, same, more⟩
        cases same
        exact ⟨Nat.succ_ne_zero n, fun even restarts => more (zero.2 ⟨parity.1 even, restarts⟩)⟩
      · intro h
        exact ⟨b.nth n, rfl, fun none => h.2 (parity.2 (zero.1 none).1) (zero.1 none).2⟩

end Switchyard.Backoff
