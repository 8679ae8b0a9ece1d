import Switchyard.Duration
import Switchyard.Supervision.Action
import Switchyard.Supervision.Event

/-!
A registration: what is known of a task, where the loop that drives it stands, and the units of its current attempt.
-/
namespace Switchyard

/-- A wait for a requirement: the registration that was current when it began, and the count of registrations. -/
structure Parked where
  on : Option TaskId
  seen : Nat
  deriving DecidableEq, Repr

/-- Where the loop that drives a task waits. -/
inductive Phase where
  | created
  /-- For the requirements still to be met; `parked` once the first of them has been looked at. -/
  | blocked (pending : List String) (parked : Option Parked)
  /-- For the work, or for a request to stop. -/
  | attempting
  /-- For the work, after a request to stop. -/
  | stopping
  /-- For the sub-units. -/
  | draining (result : Outcome)
  /-- For the end of a delay, or for a request to stop. -/
  | delayed (until_ : Nat) (error : TaskError)
  | done

/-- How far the watch over a sub-unit has come. It starts the unit, and when that has ended notes how. -/
inductive Watch where
  | idle
  | watching
  | over
  deriving DecidableEq, Repr, Inhabited

structure SubUnit where
  progress : Progress
  watch : Watch := .idle
  deriving Inhabited

structure Task where
  worker : Worker Action
  phase : Phase := .created
  state : TaskState := .registered
  stopRequested : Bool := false
  /-- Set for good at the first readiness. -/
  everReady : Bool := false
  readyInAttempt : Bool := false
  /-- Attempts begun so far. No bound is kept: with the standard delays 32 bits last for more than four hundred years. -/
  attempt : Nat := 0
  delay : Option Duration := none
  work : Progress := .ended (.returned none)
  subUnits : List SubUnit := []
  /-- The first error noted of a sub-unit of this attempt. -/
  subUnitError : Option TaskError := none

instance : Inhabited Task := ⟨{ worker := default }⟩

namespace Task

def name (t : Task) : String := t.worker.name

def isTerminated (t : Task) : Bool := t.state.isTerminal

def isDraining (t : Task) : Bool :=
  match t.phase with
  | .draining _ => true
  | _ => false

/-- The outcome of an attempt: errors of sub-units count only where the work itself has none. -/
def attemptResult (t : Task) (o : Outcome) : Outcome := o <|> t.subUnitError

/-- Every watch is over. -/
def isDrained (t : Task) : Bool := t.subUnits.all (·.watch = .over)

/-- The delay before the next attempt starts over once an explicitly ready task has been ready. -/
def delayBefore (t : Task) : Option Duration :=
  if t.readyInAttempt && t.worker.readiness = .explicit then none else t.delay

/-- When the sleeps and delays of a task end. -/
def wakeTimes (t : Task) : List Nat :=
  let delays := match t.phase with
    | .delayed time _ => [time]
    | _ => []
  delays ++ t.work.wakeTime?.toList ++ t.subUnits.filterMap (·.progress.wakeTime?)

end Task

/-- The work function of a task, or one of its sub-units. -/
structure UnitId where
  task : TaskId
  sub : Option Nat := none
  deriving DecidableEq, Repr, Inhabited

end Switchyard
