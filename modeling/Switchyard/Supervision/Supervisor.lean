import Switchyard.Backoff
import Switchyard.Dictionary
import Switchyard.Supervision.Mailbox
import Switchyard.Supervision.Task

/-!
The supervisor: every registration ever made, the registry of the latest one per name, and the events published.
-/
namespace Switchyard

/-- An entry of the history. `source` is the registration that an event tells of. -/
structure Logged where
  source : Option TaskId
  published : Published

structure RecordedFailure where
  source : TaskId
  time : Nat
  failure : Failure
  deriving DecidableEq, Repr

/-- The counters have no bound: to count to 2 ^ 64 is out of reach. -/
structure Supervisor where
  backoff : Backoff := .standard
  /-- In milliseconds. -/
  now : Nat := 0
  tasks : List Task := []
  /-- The latest registration of each name; terminated ones stay until the name is used again. -/
  registry : Dictionary String TaskId := .empty
  /-- Registrations so far. Whoever waits for a name watches it. -/
  registered : Nat := 0
  /-- Tasks not yet terminated. -/
  live : Nat := 0
  shuttingDown : Bool := false
  /-- In the order in which the tasks terminated. -/
  failures : List RecordedFailure := []
  nextSeq : Nat := 0
  /-- Newest first. -/
  history : List Logged := []
  mailboxes : List Mailbox := []
  deriving Inhabited

namespace Supervisor

def task? (s : Supervisor) (i : TaskId) : Option Task := s.tasks[i]?

def modifyTask (s : Supervisor) (i : TaskId) (f : Task → Task) : Supervisor :=
  { s with tasks := s.tasks.modify i f }

def lookup (s : Supervisor) (name : String) : Option TaskId := s.registry.find? name

def lookupTask (s : Supervisor) (name : String) : Option Task := (s.lookup name).bind s.task?

def everReady (s : Supervisor) (i : TaskId) : Bool := (s.task? i).any (·.everReady)

def isTerminated (s : Supervisor) (i : TaskId) : Bool := (s.task? i).any (·.isTerminated)

/-- Asked to stop, alone or together with all. -/
def isCancelled (s : Supervisor) (i : TaskId) : Bool :=
  s.shuttingDown || (s.task? i).any (·.stopRequested)

/-- What the units of the current attempt see: it also ends when the work does. -/
def attemptCancelled (s : Supervisor) (i : TaskId) : Bool :=
  s.isCancelled i || (s.task? i).any (·.isDraining)

def publish (s : Supervisor) (source : Option TaskId) (e : Event) : Supervisor :=
  let p : Published := ⟨s.nextSeq, s.now, e⟩
  { s with
    nextSeq := s.nextSeq + 1
    history := ⟨source, p⟩ :: s.history
    mailboxes := s.mailboxes.map (·.offer p) }

/-- Publishes under the name of registration `i`. -/
def publishFor (s : Supervisor) (i : TaskId) (e : Event) : Supervisor :=
  s.publish (some i) { e with task := (s.task? i).map (·.name) }

/-- A new state and the event that tells of it. -/
def transition (s : Supervisor) (i : TaskId) (state : TaskState) (e : Event) : Supervisor :=
  (s.modifyTask i ({ · with state })).publishFor i e

def setPhase (s : Supervisor) (i : TaskId) (phase : Phase) : Supervisor := s.modifyTask i ({ · with phase })

/-- Only a running task becomes ready. -/
def markReady (s : Supervisor) (i : TaskId) : Supervisor :=
  if (s.task? i).any (·.state = .running) then
    (s.transition i .ready { kind := .taskReady }).modifyTask i
      ({ · with readyInAttempt := true, everReady := true })
  else s

/-- Registers a worker. Its name must not belong to a task still alive. -/
def supervise (s : Supervisor) (w : Worker Action) : Except SupervisorError Supervisor :=
  if (s.lookupTask w.name).any (!·.isTerminated) then .error (.duplicateName w.name)
  else
    let i := s.tasks.length
    let s : Supervisor := { s with
      tasks := s.tasks ++ [{ worker := w }]
      registry := s.registry.insert w.name i
      live := s.live + 1 }
    let s := s.publishFor i { kind := .taskAdded }
    .ok { s with registered := s.registered + 1 }

/-- Asks every task to stop. A second request does nothing. -/
def shutdown (s : Supervisor) : Supervisor :=
  if s.shuttingDown then s
  else { s.publish none { kind := .shutdownRequested } with shuttingDown := true }

/-- Asks one task to stop; `false` if no live task has the name. -/
def stop (s : Supervisor) (name : String) : Bool × Supervisor :=
  match s.lookup name with
  | some i =>
    if s.isTerminated i then (false, s) else (true, s.modifyTask i ({ · with stopRequested := true }))
  | none => (false, s)

def state (s : Supervisor) (name : String) : Option TaskState := (s.lookupTask name).map (·.state)

def isLive (s : Supervisor) (name : String) : Bool := (s.lookupTask name).any (!·.isTerminated)

/-- Blocked tasks that require names nobody has registered, in the order of their messages. -/
def unsatisfied (s : Supervisor) : List SupervisorError :=
  let reports := s.registry.values.filterMap fun i => do
    let t ← s.task? i
    if t.state ≠ .blocked then none
    let missing := t.worker.requires.filter fun r => !s.registry.contains r
    if missing.isEmpty then none else some (SupervisorError.unsatisfiable t.name missing)
  reports.mergeSort fun a b => a.message ≤ b.message

def failureList (s : Supervisor) : List Failure := s.failures.map (·.failure)

def addSubUnit (s : Supervisor) (i : TaskId) (script : Script) : Supervisor :=
  s.modifyTask i fun t => { t with subUnits := t.subUnits ++ [{ progress := .running (.script script) }] }

/-- A sub-unit not yet started has none. -/
def progress? (s : Supervisor) (u : UnitId) : Option Progress := do
  let t ← s.task? u.task
  match u.sub with
  | none => some t.work
  | some j => do
    let u ← t.subUnits[j]?
    if u.watch = .idle then none else some u.progress

def setProgress (s : Supervisor) (u : UnitId) (p : Progress) : Supervisor :=
  s.modifyTask u.task fun t =>
    match u.sub with
    | none => { t with work := p }
    | some j => { t with subUnits := t.subUnits.modify j ({ · with progress := p }) }

end Supervisor

end Switchyard
