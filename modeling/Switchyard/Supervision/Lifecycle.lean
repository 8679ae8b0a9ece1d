import Switchyard.Supervision.Supervisor

/-!
The loop that drives a task from its registration to its end. A step is what happens between two waits.
-/
namespace Switchyard

/-- Which of the things waited for has come. Where several have, any may be taken, except that a request to stop
goes before the end of the work. -/
inductive Turn where
  | proceed
  /-- Somebody has registered since: look up the requirement again. -/
  | recheck
  | cancel
  deriving DecidableEq, Repr

namespace Supervisor

/-- The end of a task, with the error it failed with if it did. -/
def terminate (s : Supervisor) (i : TaskId) (error : Option TaskError) : Supervisor :=
  let recorded := (error.bind fun e => (s.task? i).map fun t => RecordedFailure.mk i s.now ⟨t.name, e⟩).toList
  let s := { s with failures := s.failures ++ recorded }
  let s := (s.transition i .terminated { kind := .taskTerminated }).setPhase i .done
  { s with live := s.live - 1 }

def startAttempt (s : Supervisor) (i : TaskId) : Supervisor :=
  match s.task? i with
  | none => s
  | some t =>
    let s := s.modifyTask i fun t => { t with attempt := t.attempt + 1 }
    let s := s.transition i .starting { kind := .taskStarting, attempt := some (t.attempt + 1) }
    let s := s.transition i .running { kind := .taskRunning }
    let s := if t.worker.readiness = .onStart then s.markReady i else s
    s.modifyTask i fun t => { t with
      phase := .attempting
      work := .running (.script (t.worker.script (t.attempt - 1)))
      subUnits := []
      subUnitError := none }

/-- Goes on to the next requirement, or to the first attempt. -/
def requirementMet (s : Supervisor) (i : TaskId) (rest : List String) : Supervisor :=
  if rest.isEmpty then s.startAttempt i else s.setPhase i (.blocked rest none)

/-- Looks up the first pending requirement. It is met if its latest registration has ever been ready. -/
def examine (s : Supervisor) (i : TaskId) : List String → Supervisor
  | [] => s.startAttempt i
  | r :: rest =>
    match s.lookup r with
    | some j =>
      if s.everReady j then s.requirementMet i rest
      else s.setPhase i (.blocked (r :: rest) (some ⟨some j, s.registered⟩))
    | none => s.setPhase i (.blocked (r :: rest) (some ⟨none, s.registered⟩))

/-- Milliseconds as events carry them. -/
def shownMillis (d : Duration) : Nat := min d.toMillis (UInt32.size - 1)

/-- After an attempt that failed: give up, or schedule another one. -/
def afterFailure (s : Supervisor) (i : TaskId) (t : Task) (previous : Option Duration) (e : TaskError) :
    Supervisor :=
  let s := s.publishFor i { kind := .taskFailed, attempt := some t.attempt, reason := some e.message }
  if !t.worker.retries || s.isCancelled i then s.terminate i (some e)
  else
    let delay := s.backoff.next previous
    let s := s.modifyTask i ({ · with delay := some delay })
    let s := s.transition i .retrying
      { kind := .backoffScheduled, attempt := some t.attempt, delayMs := some (shownMillis delay),
        reason := some e.message }
    s.setPhase i (.delayed (s.now + delay.ceilMillis) e)

/-- After the sub-units: success and cancellation end the task without a failure. -/
def finishAttempt (s : Supervisor) (i : TaskId) (o : Outcome) : Supervisor :=
  match s.task? i with
  | none => s
  | some t =>
    let previous := t.delayBefore
    let s := s.modifyTask i ({ · with readyInAttempt := false, delay := previous })
    match t.attemptResult o with
    | none => s.terminate i none
    | some .canceled => s.terminate i none
    | some e => s.afterFailure i t previous e

/-- `none` if the turn is not open to the task. -/
def actorStep (s : Supervisor) (i : TaskId) (turn : Turn) : Option Supervisor := do
  let t ← s.task? i
  match t.phase, turn with
  | .created, .proceed =>
    some ((s.transition i .blocked { kind := .taskBlocked }).setPhase i (.blocked t.worker.requires none))
  | .blocked pending none, .proceed => some (s.examine i pending)
  | .blocked (_ :: rest) (some p), .proceed =>
    if p.on.any s.everReady then some (s.requirementMet i rest) else none
  | .blocked pending (some p), .recheck => if s.registered ≠ p.seen then some (s.examine i pending) else none
  | .blocked _ _, .cancel => if s.isCancelled i then some (s.terminate i none) else none
  | .attempting, .cancel =>
    if s.isCancelled i then
      some ((s.transition i .shuttingDown { kind := .taskShuttingDown }).setPhase i .stopping)
    else none
  | .attempting, .proceed =>
    match t.work with
    | .ended e => if s.isCancelled i then none else some (s.setPhase i (.draining e.outcome))
    | .running _ => none
  | .stopping, .proceed =>
    match t.work with
    | .ended e => some (s.setPhase i (.draining e.outcome))
    | .running _ => none
  | .draining o, .proceed => if t.isDrained then some (s.finishAttempt i o) else none
  | .delayed time _, .proceed => if time ≤ s.now then some (s.startAttempt i) else none
  | .delayed _ e, .cancel => if s.isCancelled i then some (s.terminate i (some e)) else none
  | _, _ => none

/-- Starts a sub-unit, or notes its end. Its error is kept if it is the first and no cancellation. -/
def watchStep (s : Supervisor) (i : TaskId) (j : Nat) : Option Supervisor := do
  let t ← s.task? i
  let u ← t.subUnits[j]?
  match u.watch, u.progress with
  | .idle, _ =>
    some (s.modifyTask i fun t => { t with subUnits := t.subUnits.modify j ({ · with watch := .watching }) })
  | .watching, .ended e =>
    let error := e.outcome.filter (!·.isCanceled)
    some (s.modifyTask i fun t => { t with
      subUnits := t.subUnits.modify j ({ · with watch := .over })
      subUnitError := t.subUnitError <|> error })
  | _, _ => none

end Supervisor

end Switchyard
