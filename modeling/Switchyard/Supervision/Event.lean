/-!
States of a task, and the events that tell of its way through them.
-/
namespace Switchyard

inductive TaskState where
  | registered
  | blocked
  | starting
  | running
  | ready
  | retrying
  | shuttingDown
  | terminated
  deriving DecidableEq, Repr, Inhabited

namespace TaskState

def isTerminal (s : TaskState) : Bool := s = terminated

def text : TaskState → String
  | registered => "registered"
  | blocked => "blocked"
  | starting => "starting"
  | running => "running"
  | ready => "ready"
  | retrying => "retrying"
  | shuttingDown => "shutting-down"
  | terminated => "terminated"

def all : List TaskState :=
  [registered, blocked, starting, running, ready, retrying, shuttingDown, terminated]

end TaskState

inductive EventKind where
  | taskAdded
  | taskBlocked
  | taskStarting
  | taskRunning
  | taskReady
  | taskFailed
  | backoffScheduled
  | taskShuttingDown
  | taskTerminated
  | shutdownRequested
  deriving DecidableEq, Repr, Inhabited

namespace EventKind

def text : EventKind → String
  | taskAdded => "task_added"
  | taskBlocked => "task_blocked"
  | taskStarting => "task_starting"
  | taskRunning => "task_running"
  | taskReady => "task_ready"
  | taskFailed => "task_failed"
  | backoffScheduled => "backoff_scheduled"
  | taskShuttingDown => "task_shutting_down"
  | taskTerminated => "task_terminated"
  | shutdownRequested => "shutdown_requested"

def all : List EventKind :=
  [taskAdded, taskBlocked, taskStarting, taskRunning, taskReady, taskFailed, backoffScheduled, taskShuttingDown,
    taskTerminated, shutdownRequested]

def ofText? (s : String) : Option EventKind := all.find? (·.text = s)

end EventKind

structure Event where
  kind : EventKind
  task : Option String := none
  reason : Option String := none
  /-- The number that the task counts, without a bound. -/
  attempt : Option Nat := none
  delayMs : Option Nat := none
  deriving DecidableEq, Repr, Inhabited

end Switchyard
