import Switchyard.Duration

/-!
Growing delays between the attempts of a task that fails.
-/
namespace Switchyard

structure Backoff where
  first : Duration
  max : Duration
  factor : Nat
  deriving DecidableEq, Repr

namespace Backoff

def standard : Backoff := ⟨.ofMillis 100, .ofMillis 3000, 2⟩

instance : Inhabited Backoff := ⟨standard⟩

/-- The delay after `previous`. A sequence starts, and restarts behind a zero delay, with `first`, whether or not
that is within `max`. -/
def next (b : Backoff) : Option Duration → Duration
  | none => b.first
  | some d => if d.isZero then b.first else (d.mul b.factor).min b.max

/-- The delays that follow `previous`. -/
def delays (b : Backoff) : Nat → Option Duration → List Duration
  | 0, _ => []
  | n + 1, previous => b.next previous :: b.delays n (some (b.next previous))

end Backoff

end Switchyard
