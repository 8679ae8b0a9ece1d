import Switchyard.Redirect.Redirector
import Switchyard.Supervision.Error
import Switchyard.Supervision.Worker

/-!
What work functions do, one action after another, and how brackets combine two scripts into one.
-/
namespace Switchyard

/-- Registrations are numbered in the order in which they are made. -/
abbrev TaskId := Nat

/-- The second group are actions in progress: what the unit waits for has been fixed. -/
inductive Action where
  | ready
  | sleep (ms : Nat)
  | nap (ms : Nat)
  | awaitCancel
  | forever
  | finish (outcome : Outcome)
  | panic (reason : String)
  | spawn (script : List Action)
  | bracket (work cleanup : List Action)
  | note (text : String)
  | shutdown
  | stop (name : String)
  | wait (name : String)
  | supervise (worker : Worker Action)
  | redirect (op : Operation)
  | converge (port : UInt16)
  | follow (port : UInt16)
  | receive (feed : Nat)
  | sleepUntil (time : Nat)
  | napUntil (time : Nat)
  | waitFor (task : TaskId)
  | redirecting (op : Operation)
  | comparing (wanted : Mappings)
  | applying (effects : List Effect)
  | awaitChange (seen : Nat) (port : UInt16)
  | settling (feed : Nat)
  deriving Inhabited

abbrev Script := List Action

/-- How a unit came to its end. A panic passes over every bracket. -/
inductive Ending where
  | returned (outcome : Outcome)
  | panicked (reason : String)
  deriving DecidableEq, Repr, Inhabited

def Ending.outcome : Ending → Outcome
  | .returned o => o
  | .panicked reason => some (.panicked reason)

/-- What a unit has still to do. In `bracket` the work runs until it ends or the attempt is cancelled; in `cleanup`
the work is over and its outcome known. -/
inductive Work where
  | script (todo : Script)
  | bracket (work : Work) (cleanup : Script)
  | cleanup (worked : Outcome) (rest : Work)
  deriving Inhabited

inductive Progress where
  | running (work : Work)
  | ended (ending : Ending)
  deriving Inhabited

/-- What an action comes to. -/
inductive Reaction where
  /-- The action is done and these stand in its place. -/
  | goOn (more : Script)
  | bracket (work cleanup : Script)
  | finish (outcome : Outcome)
  | panic (reason : String)

namespace Work

/-- Running off the end of a script is success. -/
def next : Work → Action
  | .script [] => .finish none
  | .script (a :: _) => a
  | .bracket w _ => w.next
  | .cleanup _ w => w.next

/-- The error of the work wins over the error of the cleanup. -/
def resume (r : Reaction) : Work → Progress
  | .script todo =>
    match r with
    | .goOn more => .running (.script (more ++ todo.tail))
    | .bracket w c => .running (.bracket (.script w) c)
    | .finish o => .ended (.returned o)
    | .panic reason => .ended (.panicked reason)
  | .bracket w c =>
    match w.resume r with
    | .running w => .running (.bracket w c)
    | .ended (.returned o) => .running (.cleanup o (.script c))
    | .ended (.panicked reason) => .ended (.panicked reason)
  | .cleanup worked w =>
    match w.resume r with
    | .running w => .running (.cleanup worked w)
    | .ended (.returned o) => .ended (.returned (worked <|> o))
    | .ended (.panicked reason) => .ended (.panicked reason)

/-- Abandons the work of the bracket at `depth`, counted from the outermost, and begins its cleanup. -/
def abandon : Work → Nat → Option Work
  | .script _, _ => none
  | .bracket _ c, 0 => some (.cleanup none (.script c))
  | .bracket w c, depth + 1 => (w.abandon depth).map (.bracket · c)
  | .cleanup o w, depth => (w.abandon depth).map (.cleanup o ·)

/-- How many brackets can be abandoned. -/
def brackets : Work → Nat
  | .script _ => 0
  | .bracket w _ => w.brackets + 1
  | .cleanup _ w => w.brackets

end Work

/-- When an action that sleeps will go on. -/
def Action.wakeTime? : Action → Option Nat
  | .sleepUntil t => some t
  | .napUntil t => some t
  | _ => none

def Progress.wakeTime? : Progress → Option Nat
  | .running w => w.next.wakeTime?
  | .ended _ => none

end Switchyard
