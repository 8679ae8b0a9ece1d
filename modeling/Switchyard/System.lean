import Switchyard.Reconciler
import Switchyard.Redirect.Convergence
import Switchyard.Supervision.Lifecycle

/-!
The supervisor together with what its tasks act on: store, redirector, reconcilers. Every step is a labelled one, so
that any order of steps and any choice between several is a run.
-/
namespace Switchyard

structure Note where
  time : Nat
  task : String
  text : String
  deriving DecidableEq, Repr

/-- A reconciler fed by snapshots through a bounded channel. -/
structure Feed where
  reconciler : Reconciler := {}
  /-- Oldest first. -/
  queue : List (List WatchSpec) := []
  /-- Whether more may be sent. -/
  isOpen : Bool := true
  /-- The registration that receives, if it was accepted. -/
  receiver : Option TaskId := none
  deriving Inhabited

def feedCapacity : Nat := 16

structure System where
  supervisor : Supervisor := {}
  store : Store := {}
  redirector : Redirector
  /-- Those who have asked for the redirector, in order; the first one has it. -/
  lock : List UnitId := []
  reconciler : Reconciler := {}
  feeds : List Feed := []
  /-- Newest first. -/
  notes : List Note := []
  deriving Inhabited

namespace System

def holds (s : System) (u : UnitId) : Bool := s.lock.head? = some u

def request (s : System) (u : UnitId) : System := { s with lock := s.lock ++ [u] }

/-- Also takes back a request not yet granted. -/
def release (s : System) (u : UnitId) : System := { s with lock := s.lock.filter (· ≠ u) }

def onSupervisor (s : System) (f : Supervisor → Supervisor) : System := { s with supervisor := f s.supervisor }

def taskName (s : System) (i : TaskId) : String := ((s.supervisor.task? i).map (·.name)).getD ""

def addNote (s : System) (u : UnitId) (text : String) : System :=
  let flag := toString (s.supervisor.attemptCancelled u.task)
  { s with notes := ⟨s.supervisor.now, s.taskName u.task, text ++ " shutting_down=" ++ flag⟩ :: s.notes }

/-- Takes the next snapshot of a feed and begins a pass with it; without one and with the feed closed, the receiver
is done. -/
def receive (s : System) (feed : Nat) : Option (System × Reaction) := do
  let f ← s.feeds[feed]?
  match f.queue with
  | specs :: rest =>
    let (r, sup) := f.reconciler.begin s.supervisor specs
    some ({ s with supervisor := sup, feeds := s.feeds.set feed { f with reconciler := r, queue := rest } },
      .goOn [.settling feed, .receive feed])
  | [] => if f.isOpen then none else some (s, .finish none)

def settle (s : System) (feed : Nat) : Option (System × Reaction) := do
  let f ← s.feeds[feed]?
  let r ← f.reconciler.advance s.supervisor
  some ({ s with feeds := s.feeds.set feed { f with reconciler := r } },
    .goOn (if r.pass.isSome then [.settling feed] else []))

/-- What the action of a unit does, if it need not wait. -/
def perform (s : System) (u : UnitId) : Action → Option (System × Reaction)
  | .ready => some (s.onSupervisor (·.markReady u.task), .goOn [])
  | .sleep ms => some (s, .goOn [.sleepUntil (s.supervisor.now + ms)])
  | .nap ms => some (s, .goOn [.napUntil (s.supervisor.now + ms)])
  | .awaitCancel => if s.supervisor.attemptCancelled u.task then some (s, .goOn []) else none
  | .forever => none
  | .finish o => some (s, .finish o)
  | .panic reason => some (s, .panic reason)
  | .spawn script => some (s.onSupervisor (·.addSubUnit u.task script), .goOn [])
  | .bracket work cleanup => some (s, .bracket work cleanup)
  | .note text => some (s.addNote u text, .goOn [])
  | .shutdown => some (s.onSupervisor (·.shutdown), .goOn [])
  | .stop name => some (s.onSupervisor fun sup => (sup.stop name).2, .goOn [])
  | .wait name =>
    match s.supervisor.lookup name with
    | none => some (s, .goOn [])
    | some i => some (s, .goOn [.waitFor i])
  | .supervise w =>
    match s.supervisor.supervise w with
    | .ok sup => some ({ s with supervisor := sup }, .goOn [])
    | .error e => some (s, .finish (some (.fail e.message)))
  | .redirect op => some (s.request u, .goOn [.redirecting op])
  | .converge port => some (s.request u, .goOn [.comparing (wantedMappings s.store.redirects port)])
  | .follow port => some (s, .goOn [.converge port, .ready, .awaitChange s.store.generation port])
  | .receive feed => s.receive feed
  | .sleepUntil time => if time ≤ s.supervisor.now then some (s, .goOn []) else none
  | .napUntil time => if time ≤ s.supervisor.now then some (s, .goOn []) else none
  | .waitFor i => if s.supervisor.isTerminated i then some (s, .goOn []) else none
  | .redirecting op =>
    if s.holds u then some (s, .goOn [.applying (op.effects s.redirector.mappings)]) else none
  | .comparing wanted =>
    if s.holds u then
      some (s.release u,
        .goOn ((Convergence.between s.redirector.mappings wanted).operations.map .redirect))
    else none
  | .applying [] => some (s.release u, .goOn [])
  | .applying (e :: es) => some ({ s with redirector := s.redirector.apply e }, .goOn [.applying es])
  | .awaitChange seen port => if s.store.generation ≠ seen then some (s, .goOn [.follow port]) else none
  | .settling feed => s.settle feed

/-- What an action that also waits for the end of its attempt does when that comes. -/
def onCancel : Action → Option Reaction
  | .napUntil _ => some (.finish (some .canceled))
  | .awaitChange _ _ => some (.finish none)
  | .receive _ => some (.finish none)
  | _ => none

/-- What a unit may do next. Where several are open, any may be taken. -/
inductive UnitTurn where
  | proceed
  | cancel
  /-- Give up the work of a bracket for its cleanup. -/
  | abandon (depth : Nat)
  deriving DecidableEq, Repr

def unitStep (s : System) (u : UnitId) (turn : UnitTurn) : Option System := do
  match ← s.supervisor.progress? u with
  | .ended _ => none
  | .running w =>
    match turn with
    | .proceed =>
      let (s, r) ← s.perform u w.next
      some (s.onSupervisor (·.setProgress u (w.resume r)))
    | .cancel =>
      let r ← onCancel w.next
      if s.supervisor.attemptCancelled u.task then some (s.onSupervisor (·.setProgress u (w.resume r))) else none
    | .abandon depth =>
      let w ← w.abandon depth
      if s.supervisor.attemptCancelled u.task then
        some ((s.release u).onSupervisor (·.setProgress u (.running w)))
      else none

def deliver (s : System) (box : Nat) : Option System := do
  let m ← s.supervisor.mailboxes[box]?
  let m ← m.deliver
  some (s.onSupervisor fun sup => { sup with mailboxes := sup.mailboxes.set box m })

/-- A step of the system itself, not of the clock and not of a caller from outside. -/
inductive Label where
  | actor (task : TaskId) (turn : Turn)
  | unit (who : UnitId) (turn : UnitTurn)
  | watch (task : TaskId) (sub : Nat)
  | deliver (box : Nat)
  | reconciler
  deriving DecidableEq, Repr

/-- `none` if the step is not open. -/
def step (s : System) : Label → Option System
  | .actor i turn => (s.supervisor.actorStep i turn).map fun sup => { s with supervisor := sup }
  | .unit u turn => s.unitStep u turn
  | .watch i j => (s.supervisor.watchStep i j).map fun sup => { s with supervisor := sup }
  | .deliver box => s.deliver box
  | .reconciler => (s.reconciler.advance s.supervisor).map fun r => { s with reconciler := r }

/-- Nothing can happen before time goes on or somebody calls. -/
def Settled (s : System) : Prop := ∀ l, s.step l = none

/-- The times at which some sleep or delay ends. -/
def wakeTimes (s : System) : List Nat := s.supervisor.tasks.flatMap (·.wakeTimes)

def nextWake? (s : System) : Option Nat := (s.wakeTimes.filter (s.supervisor.now < ·)).min?

/-- The clock at `time`. It may be moved only while nothing else can happen, and not past the end of a sleep. -/
def setClock (s : System) (time : Nat) : System := s.onSupervisor ({ · with now := time })

end System

end Switchyard
