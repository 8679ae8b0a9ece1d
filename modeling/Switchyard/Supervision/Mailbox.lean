import Switchyard.Supervision.Event

/-!
Bounded queues between the supervisor and those who listen to its events. A full queue loses the event for its own
listener only.
-/
namespace Switchyard

/-- An event with its place in the order of publication and its time. -/
structure Published where
  seq : Nat
  time : Nat
  event : Event
  deriving DecidableEq, Repr, Inhabited

structure Mailbox where
  capacity : Nat
  /-- Oldest first. -/
  queue : List Published := []
  /-- Newest first. -/
  received : List Published := []
  deriving Repr, Inhabited

namespace Mailbox

/-- A capacity of zero counts as one. -/
def ofCapacity (n : Nat) : Mailbox := { capacity := max n 1 }

def isFull (m : Mailbox) : Bool := m.capacity ≤ m.queue.length

def offer (m : Mailbox) (p : Published) : Mailbox :=
  if m.isFull then m else { m with queue := m.queue ++ [p] }

def deliver (m : Mailbox) : Option Mailbox :=
  match m.queue with
  | [] => none
  | p :: rest => some { m with queue := rest, received := p :: m.received }

end Mailbox

end Switchyard
