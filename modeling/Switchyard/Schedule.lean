import Switchyard.System

/-!
One of the runs of a system. Threads that can go on stand in a line; the first one goes on as long as it can, and those
that can go on because of it join at the end. A task that may both begin and give up begins. The clock moves from one
wake time to the next.
-/
namespace Switchyard.System

/-- A thread of control: a listener to events, one of the units of a task, the watch over a sub-unit, the loop that
drives a task, or a pass of the reconciler. -/
inductive Thread where
  | listener (box : Nat)
  | unit (who : UnitId)
  | watch (task : TaskId) (sub : Nat)
  | actor (task : TaskId)
  | reconciler
  deriving DecidableEq, Repr

/-- The steps of one unit, in the order in which they are tried. -/
def unitLabels (s : System) (u : UnitId) : List Label :=
  match s.supervisor.progress? u with
  | some (.running w) =>
    (List.range w.brackets).map (fun depth => .unit u (.abandon depth)) ++ [.unit u .cancel, .unit u .proceed]
  | _ => []

def Thread.labels (s : System) : Thread → List Label
  | .listener box => [.deliver box]
  | .unit u => s.unitLabels u
  | .watch i j => [.watch i j]
  | .actor i => [.actor i .proceed, .actor i .cancel, .actor i .recheck]
  | .reconciler => [.reconciler]

def taskThreads (i : TaskId) (t : Task) : List Thread :=
  let subs := List.range t.subUnits.length
  .unit ⟨i, none⟩ :: subs.map (fun j => .unit ⟨i, some j⟩) ++ subs.map (.watch i) ++ [.actor i]

/-- All threads. Of those that can go on because of one step, the earlier in this list join the line first. -/
def threads (s : System) : List Thread :=
  (List.range s.supervisor.mailboxes.length).map .listener ++
    (s.supervisor.tasks.zipIdx.flatMap fun (t, i) => taskThreads i t) ++ [.reconciler]

/-- The first step of a thread that is open. -/
def stepThread (s : System) (t : Thread) : Option System := (t.labels s).findSome? s.step

/-- A thread goes on as long as it can. -/
def runThread : Nat → System → Thread → System
  | 0, s, _ => s
  | fuel + 1, s, t =>
    match s.stepThread t with
    | some s' => runThread fuel s' t
    | none => s

/-- The line with those added that can go on and do not stand in it yet. -/
def lineUp (s : System) (line : List Thread) : List Thread :=
  line ++ s.threads.filter fun t => !line.contains t && (s.stepThread t).isSome

def settleFrom : Nat → List Thread → System → System
  | 0, _, s => s
  | fuel + 1, line, s =>
    match s.lineUp line with
    | [] => s
    | t :: line => settleFrom fuel line (runThread fuel s t)

/-- Steps that one instant is allowed: more than any set of tasks takes whose delays are not zero. -/
def instantSteps : Nat := 1000000

/-- Lets everything happen that can happen now. -/
def settled (s : System) : System := settleFrom instantSteps [] s

/-- Each round moves the clock, so there are no more rounds than milliseconds. -/
def advanceFrom : Nat → Nat → System → System
  | 0, time, s => s.setClock time
  | fuel + 1, time, s =>
    match s.nextWake? with
    | some wake => if wake ≤ time then advanceFrom fuel time (s.setClock wake).settled else s.setClock time
    | none => s.setClock time

/-- Lets everything happen that is due up to and including `time`. -/
def advanceTo (s : System) (time : Nat) : System := advanceFrom (time - s.supervisor.now) time s

def runUntilFrom (done : System → Bool) : Nat → Nat → System → Bool × System
  | 0, time, s => (done s, s.setClock time)
  | fuel + 1, time, s =>
    if done s then (true, s)
    else match s.nextWake? with
      | some wake =>
        if wake ≤ time then runUntilFrom done fuel time (s.setClock wake).settled else (false, s.setClock time)
      | none => (false, s.setClock time)

/-- Lets time pass until `done` holds or the clock shows `time`; says which. -/
def runUntil (s : System) (done : System → Bool) (time : Nat) : Bool × System :=
  runUntilFrom done (time - s.supervisor.now + 1) time s

end Switchyard.System
