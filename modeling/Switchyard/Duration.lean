/-!
Lengths of time in whole seconds and nanoseconds, up to a largest one.
-/
namespace Switchyard

def nanosPerSecond : Nat := 1000000000

structure Duration where
  secs : Nat
  nanos : Nat
  secs_lt : secs < UInt64.size
  nanos_lt : nanos < nanosPerSecond
  deriving DecidableEq, Repr

namespace Duration

def zero : Duration := ⟨0, 0, by decide, by decide⟩

def longest : Duration := ⟨UInt64.size - 1, nanosPerSecond - 1, by decide, by decide⟩

instance : Inhabited Duration := ⟨zero⟩

/-- A second too many gives the longest duration. -/
def ofParts (secs nanos : Nat) : Duration :=
  if h : secs + nanos / nanosPerSecond < UInt64.size then
    ⟨secs + nanos / nanosPerSecond, nanos % nanosPerSecond, h, Nat.mod_lt _ (by decide)⟩
  else longest

def ofMillis (ms : Nat) : Duration := ofParts (ms / 1000) (ms % 1000 * 1000000)

/-- Each part is multiplied, then whole seconds are carried over. -/
def mul (d : Duration) (n : Nat) : Duration := ofParts (d.secs * n) (d.nanos * n)

def toNanos (d : Duration) : Nat := d.secs * nanosPerSecond + d.nanos

/-- Whole milliseconds; what is left over is dropped. -/
def toMillis (d : Duration) : Nat := d.secs * 1000 + d.nanos / 1000000

/-- Milliseconds until the duration is over. -/
def ceilMillis (d : Duration) : Nat := d.secs * 1000 + (d.nanos + 999999) / 1000000

def isZero (d : Duration) : Bool := d.secs = 0 && d.nanos = 0

/-- Seconds decide first. -/
def le (d e : Duration) : Bool := d.secs < e.secs || (d.secs = e.secs && d.nanos ≤ e.nanos)

def min (d e : Duration) : Duration := if d.le e then d else e

theorem toNanos_longest_ge (d : Duration) : d.toNanos ≤ longest.toNanos := by
  have h1 := d.secs_lt
  have h2 := d.nanos_lt
  simp only [toNanos, longest, nanosPerSecond, UInt64.size] at *
  omega

theorem le_iff (d e : Duration) : d.le e ↔ d.toNanos ≤ e.toNanos := by
  have h1 := d.nanos_lt
  have h2 := e.nanos_lt
  simp only [le, toNanos, nanosPerSecond, Bool.or_eq_true, Bool.and_eq_true, decide_eq_true_eq] at *
  omega

/-- The product of the whole, cut off at the longest duration. -/
theorem toNanos_mul (d : Duration) (n : Nat) :
    (d.mul n).toNanos = Nat.min (d.toNanos * n) longest.toNanos := by
  have split : d.toNanos * n = d.secs * n * nanosPerSecond + d.nanos * n := by
    simp only [toNanos, Nat.add_mul, Nat.mul_right_comm]
  have parts := Nat.div_add_mod (d.nanos * n) nanosPerSecond
  have small := Nat.mod_lt (d.nanos * n) (show nanosPerSecond > 0 by decide)
  rw [split, mul, ofParts]
  generalize d.secs * n = a at *
  generalize d.nanos * n = b at *
  by_cases h : a + b / nanosPerSecond < UInt64.size
  · have bound : a + b / 1000000000 < UInt64.size := h
    rw [dif_pos h]
    simp only [toNanos, longest, nanosPerSecond, Nat.min_def, UInt64.size] at *
    split <;> omega
  · rw [dif_neg h]
    simp only [toNanos, longest, nanosPerSecond, Nat.min_def, UInt64.size] at *
    split <;> omega

theorem toNanos_inj {d e : Duration} : d.toNanos = e.toNanos ↔ d = e := by
  refine ⟨fun same => ?_, congrArg toNanos⟩
  have h1 := d.nanos_lt
  have h2 := e.nanos_lt
  have parts : d.secs = e.secs ∧ d.nanos = e.nanos := by
    simp only [toNanos, nanosPerSecond] at *
    omega
  cases d
  cases e
  cases parts.1
  cases parts.2
  rfl

theorem isZero_iff (d : Duration) : d.isZero ↔ d.toNanos = 0 := by
  simp only [isZero, toNanos, nanosPerSecond, Bool.and_eq_true, decide_eq_true_eq]
  omega

theorem toNanos_min (d e : Duration) : (d.min e).toNanos = Nat.min d.toNanos e.toNanos := by
  have order := le_iff d e
  unfold Duration.min
  split
  case isTrue below => exact (Nat.min_eq_left (order.1 below)).symm
  case isFalse above => exact (Nat.min_eq_right (Nat.le_of_not_le fun h => above (order.2 h))).symm

/-- Where a largest value follows, it does not show that the product is cut off. -/
theorem toNanos_min_mul (d : Duration) (n : Nat) (e : Duration) :
    ((d.mul n).min e).toNanos = Nat.min (d.toNanos * n) e.toNanos := by
  have bound := toNanos_longest_ge e
  calc
    ((d.mul n).min e).toNanos = Nat.min (Nat.min (d.toNanos * n) longest.toNanos) e.toNanos := by
      rw [toNanos_min, toNanos_mul]
    _ = Nat.min (d.toNanos * n) (Nat.min longest.toNanos e.toNanos) := Nat.min_assoc _ _ _
    _ = Nat.min (d.toNanos * n) e.toNanos := congrArg _ (Nat.min_eq_right bound)

end Duration

end Switchyard
