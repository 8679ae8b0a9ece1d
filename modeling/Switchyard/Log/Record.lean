import Switchyard.Supervision.Event

/-!
The log record written for an event.
-/
namespace Switchyard

inductive LogLevel where
  | error
  | info
  | debug
  | trace
  deriving DecidableEq, Repr

def LogLevel.text : LogLevel → String
  | .error => "ERROR"
  | .info => "INFO"
  | .debug => "DEBUG"
  | .trace => "TRACE"

inductive LogValue where
  | text (s : String)
  | number (n : Nat)
  deriving DecidableEq, Repr

structure LogRecord where
  level : LogLevel
  message : String
  fields : List (String × LogValue)
  deriving DecidableEq, Repr

def EventKind.message : EventKind → String
  | taskAdded => "task registered"
  | taskBlocked => "task waiting for its requirements"
  | taskStarting => "task is starting"
  | taskRunning => "task running"
  | taskReady => "task ready; dependents may start"
  | taskFailed => "task failed"
  | backoffScheduled => "retry scheduled after failure"
  | taskShuttingDown => "task shutting down"
  | taskTerminated => "task terminated"
  | shutdownRequested => "shutdown requested"

def EventKind.level : EventKind → LogLevel
  | taskAdded | taskStarting | backoffScheduled | taskShuttingDown => .debug
  | taskBlocked | taskRunning => .trace
  | taskReady | taskTerminated | shutdownRequested => .info
  | taskFailed => .error

/-- The fields an event of the kind is logged with; what the event lacks is shown as `unknown` or zero. -/
def Event.logFields (e : Event) : List (String × LogValue) :=
  let task := ("task", LogValue.text (e.task.getD "unknown"))
  let attempt := ("attempt", LogValue.number (e.attempt.getD 0))
  let delay := ("delay_ms", LogValue.number (e.delayMs.getD 0))
  let reason := ("reason", LogValue.text (e.reason.getD "unknown"))
  match e.kind with
  | .taskStarting => [task, attempt]
  | .taskFailed => [task, attempt, reason]
  | .backoffScheduled => [task, attempt, delay, reason]
  | .shutdownRequested => []
  | _ => [task]

def Event.logRecord (e : Event) : LogRecord := ⟨e.kind.level, e.kind.message, e.logFields⟩

/-- The listener that logs every event. -/
structure Journal where
  capacity : Nat
  deriving DecidableEq, Repr

def Journal.defaultCapacity : Nat := 2048

/-- There is room for one event at least. -/
def Journal.ofCapacity (n : Nat) : Journal := ⟨max n 1⟩

def Journal.standard : Journal := .ofCapacity defaultCapacity

end Switchyard
