import Switchyard.Configuration
import Switchyard.Metrics
import Switchyard.Supervision.Supervisor

/-!
The supervisor as a configuration asks for it.
-/
namespace Switchyard

/-- A queue for each listener, of the capacity that the listener asks for. `channel` makes a queue, or refuses to: then
there is no supervisor. -/
def Supervisor.build (channel : Nat → Option Mailbox) (backoff : Backoff) (capacities : List Nat) :
    Option Supervisor := do
  let mailboxes ← capacities.mapM fun n => channel (Mailbox.ofCapacity n).capacity
  return { backoff, mailboxes }

namespace Configuration

/-- The listener that logs, with room for as many events as the configuration says. -/
def journal (c : Configuration) : Journal := .ofCapacity c.eventQueue

/-- The journal and the metrics listen. -/
def supervisor (c : Configuration) (channel : Nat → Option Mailbox) : Option Supervisor :=
  Supervisor.build channel .standard [c.journal.capacity, Metrics.queueCapacity]

end Configuration

end Switchyard
