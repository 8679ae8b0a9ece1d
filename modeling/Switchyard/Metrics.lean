import Switchyard.Dictionary
import Switchyard.Supervision.Event

/-!
Counters and gauges kept from the supervisor's events, and their text exposition.
-/
namespace Switchyard

/-- The counts have no bound: to count to 2 ^ 64 is out of reach. -/
structure Metrics where
  /-- Events by kind. -/
  events : Dictionary String Nat := .empty
  /-- Failed attempts by task. -/
  failures : Dictionary String Nat := .empty
  /-- Retries scheduled by task. -/
  retries : Dictionary String Nat := .empty
  live : Int := 0
  /-- The names that are ready. -/
  ready : Dictionary String Unit := .empty
  deriving Inhabited

namespace Metrics

def increment (d : Dictionary String Nat) (k : String) : Dictionary String Nat :=
  d.insert k ((d.find? k).getD 0 + 1)

/-- An event without a task counts for the task `unknown`. -/
def record (m : Metrics) (e : Event) : Metrics :=
  let task := e.task.getD "unknown"
  let m := { m with events := increment m.events e.kind.text }
  match e.kind with
  | .taskAdded => { m with live := m.live + 1 }
  | .taskTerminated => { m with live := m.live - 1, ready := m.ready.erase task }
  | .taskReady => { m with ready := m.ready.insert task () }
  | .taskFailed => { m with failures := increment m.failures task, ready := m.ready.erase task }
  | .taskShuttingDown => { m with ready := m.ready.erase task }
  | .backoffScheduled => { m with retries := increment m.retries task }
  | _ => m

def ofEvents (es : List Event) : Metrics := es.foldl record {}

def name : String := "prometheus"

def queueCapacity : Nat := 4096

def contentType : String := "text/plain; version=0.0.4"

/-- A sample has a label or is the only one of its family. -/
structure Sample where
  label : Option (String × String)
  value : Int

structure Family where
  name : String
  help : String
  kind : String
  samples : List Sample

def escapeLabel (c : Char) : List Char :=
  match c with
  | '\\' => ['\\', '\\']
  | '\n' => ['\\', 'n']
  | '"' => ['\\', '"']
  | c => [c]

def Sample.text (family : String) (s : Sample) : String :=
  let label := match s.label with
    | none => ""
    | some (k, v) => "\x7b" ++ k ++ "=\"" ++ String.ofList (v.toList.flatMap escapeLabel) ++ "\"\x7d"
  family ++ label ++ " " ++ toString s.value ++ "\n"

def Family.text (f : Family) : String :=
  "# HELP " ++ f.name ++ " " ++ f.help ++ "\n# TYPE " ++ f.name ++ " " ++ f.kind ++ "\n" ++
    String.join (f.samples.map (·.text f.name))

def counters (label : String) (d : Dictionary String Nat) : List Sample :=
  d.entries.map fun (k, n) => ⟨some (label, k), n⟩

/-- By name, ascending. A family without samples is left out. -/
def families (m : Metrics) : List Family :=
  [⟨"slipway_supervisor_events_total", "Supervisor lifecycle events by kind.", "counter",
      counters "kind" m.events⟩,
    ⟨"slipway_task_failures_total", "Failed task attempts.", "counter", counters "task" m.failures⟩,
    ⟨"slipway_task_retries_total", "Retries scheduled after a failed attempt.", "counter",
      counters "task" m.retries⟩,
    ⟨"slipway_tasks_live", "Registered tasks not yet terminated.", "gauge", [⟨none, m.live⟩]⟩,
    ⟨"slipway_tasks_ready", "Tasks currently in the ready state.", "gauge", [⟨none, m.ready.size⟩]⟩].filter
    fun f => !f.samples.isEmpty

def exposition (m : Metrics) : String := String.join (m.families.map Family.text)

end Metrics

end Switchyard
