import Switchyard.Http.Api
import Switchyard.Schedule

/-!
A system together with a caller from outside, who waits until nothing can happen before making the next call.
-/
namespace Switchyard

/-- What the caller may do. -/
inductive Call where
  | supervise (worker : Worker Action)
  /-- One after the other, with nothing happening in between. -/
  | superviseAll (workers : List (Worker Action))
  | advance (ms : Nat)
  | shutdown
  | stop (name : String)
  | state (name : String)
  | states (names : List String)
  | isShuttingDown
  | unsatisfied
  | failures
  | wait (name : String)
  | run
  /-- Here and in `send` a watcher is asked for by its key. -/
  | reconcile (specs : List WatchSpec)
  | watched
  | watchWorker (name : String)
  | send (specs : List WatchSpec)
  | close
  | refuseCommands (refuse : Bool)
  | redirect (op : Operation)
  | mappings
  | update (table : Table)
  | delete (name : String)
  | setSearch (path : SearchPath)
  | search
  | render (name : String)
  | table (name : String)
  | tables
  | resolve (name : String)
  | routeByIp (ip : String)
  | redirects
  | changed
  | apiUpdate (tables : List Table)
  | apiRender (name : String)
  | converge (port : UInt16)
  | chainWorker
  | redirectWorker (port : UInt16)
  | http (request : Http.Request)
  | metrics

/-- What a call answers. -/
inductive Reply where
  | nothing
  | done
  | refused (e : SupervisorError)
  | apiRefused (e : ApiError)
  | each (replies : List Reply)
  | flag (b : Bool)
  | flags (a b : Bool)
  | text (s : Option String)
  | names (ns : List String)
  | state (s : Option TaskState)
  | states (ss : List (Option TaskState × Bool))
  | failures (fs : List Failure)
  | finished (fs : Option (List Failure))
  | reconciled (r : Option ReconcileReport)
  | mappings (m : Mappings)
  | stored (reply : Reply) (generation flushes : Nat)
  | table (t : Option Table)
  | tables (ts : List Table)
  | route (r : Option Route)
  | routes (rs : List Route)
  | changed (unseen : Bool) (generation : Nat)
  | converged (installed removed : Nat) (m : Mappings)
  | response (r : Http.Response)

/-- `recorded`, `noted` and `issued` count what the caller has been told of so far. -/
structure Session where
  system : System
  /-- Without listeners, without a cache to flush, and with nobody who notes the packet filter commands. -/
  plain : Bool := false
  /-- The kinds of events the caller keeps; all if `none`. -/
  kinds : Option (List EventKind) := none
  seenGeneration : Nat := 0
  recorded : Nat := 0
  noted : Nat := 0
  issued : Nat := 0
  deriving Inhabited

/-- What came of a call: the time after it, the reply, and what happened since the call before. -/
structure Outcomes where
  time : Nat
  reply : Reply
  events : List Published
  notes : List Note
  commands : List (List String)

namespace Session

/-- How long a call may block, in milliseconds. -/
def patience : Nat := 60000

def recorderBox : Nat := 0

def start (chain : String) (backoff : Backoff) (queue : Nat) (kinds : Option (List EventKind)) (plain : Bool) :
    Session :=
  let boxes := if plain then [] else [Mailbox.ofCapacity queue, Mailbox.ofCapacity Metrics.queueCapacity]
  { system := { redirector := { chain }, supervisor := { backoff, mailboxes := boxes } }, plain, kinds }

/-- Failures of one instant by their messages; without listeners nothing tells instants apart. -/
def orderFailures (s : Session) (fs : List RecordedFailure) : List Failure :=
  let key (f : RecordedFailure) : Nat := if s.plain then 0 else f.time
  (fs.mergeSort fun a b =>
    key a < key b || (key a = key b && a.failure.message ≤ b.failure.message)).map (·.failure)

def failures (s : Session) : List Failure := s.orderFailures s.system.supervisor.failures

def now (s : Session) : Nat := s.system.supervisor.now

def settle (s : Session) : Session := { s with system := s.system.settled }

def on (s : Session) (f : System → System) : Session := ({ s with system := f s.system }).settle

def supervise (s : Session) (w : Worker Action) : Reply × Session :=
  match s.system.supervisor.supervise w with
  | .ok sup => (.done, { s with system := { s.system with supervisor := sup } })
  | .error e => (.refused e, s)

def superviseAll (s : Session) : List (Worker Action) → List Reply × Session
  | [] => ([], s)
  | w :: ws =>
    let (r, s) := s.supervise w
    let (rs, s) := s.superviseAll ws
    (r :: rs, s)

def stored (s : Session) (r : Reply) : Reply :=
  .stored r s.system.store.generation (if s.plain then 0 else s.system.store.flushes)

def blocking (s : Session) (done : System → Bool) : Bool × Session :=
  let (finished, system) := s.system.runUntil done (s.now + patience)
  (finished, { s with system })

def wait (s : Session) (name : String) : Bool × Session :=
  match s.system.supervisor.lookup name with
  | none => (true, s)
  | some i => s.blocking fun system => system.supervisor.isTerminated i

/-- The name of the watcher for a key. -/
def watchName (key : String) : String := "watch:" ++ key

/-- What the caller's maker makes of a watcher asked for by its key. -/
def makeWatch (spec : WatchSpec) : WatchSpec := { spec with watchName := watchName spec.watchName }

def reconcile (s : Session) (specs : List WatchSpec) : Reply × Session :=
  let (r, sup) := s.system.reconciler.begin s.system.supervisor specs
  let report := r.pass.map (·.report)
  let s := ({ s with system := { s.system with reconciler := r, supervisor := sup } }).settle
  let (finished, s) := s.blocking fun system => system.reconciler.pass.isNone
  if finished then (.reconciled report, s)
  else (.reconciled none, { s with system := { s.system with reconciler := s.system.reconciler.abandon } })

/-- A watcher of snapshots, ready as soon as it listens, done when the feed closes. -/
def watchWorkerFor (feed : Nat) (name : String) : Worker Action :=
  (Worker.ofTask name [[.ready, .receive feed]]).explicitReady

/-- The new feed takes the place of the one before, whose sender goes away. -/
def watchWorker (s : Session) (name : String) : Reply × Session :=
  let feed := s.system.feeds.length
  let closed := s.system.feeds.map ({ · with isOpen := false })
  let (reply, s) := s.supervise (watchWorkerFor feed name)
  let receiver := match reply with
    | .done => s.system.supervisor.lookup name
    | _ => none
  (reply, { s with system := { s.system with feeds := closed ++ [{ receiver }] } })

/-- `none` if there is no open feed; `false` if it is full or nobody receives any more. -/
def send (s : Session) (specs : List WatchSpec) : Option Bool × Session :=
  match s.system.feeds.getLast? with
  | some f =>
    if !f.isOpen then (none, s)
    else
      let received := f.receiver.any fun i => !s.system.supervisor.isTerminated i
      if received && f.queue.length < feedCapacity then
        let f := { f with queue := f.queue ++ [specs] }
        (some true, { s with system := { s.system with feeds := s.system.feeds.dropLast ++ [f] } })
      else (some false, s)
  | none => (none, s)

def close (s : Session) : Bool × Session :=
  match s.system.feeds.getLast? with
  | some f =>
    (f.isOpen, { s with system := { s.system with feeds := s.system.feeds.map ({ · with isOpen := false }) } })
  | none => (false, s)

/-- Keeps the chain enabled from its start until it is asked to stop. -/
def chainWorker : Worker Action :=
  (Worker.ofTask "nat" [[.bracket [.redirect .enable, .ready, .awaitCancel] [.redirect .disable]]]).explicitReady

/-- Converges after every change of the store; starts once the chain is there. -/
def redirectWorker (port : UInt16) : Worker Action :=
  (((Worker.ofTask "redirect" [[.follow port]]).requiring ["nat"]).retrying true).explicitReady

def onRedirector (s : Session) (f : Redirector → Redirector) : Session :=
  s.on fun system => { system with redirector := f system.redirector }

def onStore (s : Session) (f : Store → Store) : Session := s.on fun system => { system with store := f system.store }

def reply (s : Session) : Call → Reply × Session
  | .supervise w =>
    let (r, s) := s.supervise w
    (r, s.settle)
  | .superviseAll ws =>
    let (rs, s) := s.superviseAll ws
    (.each rs, s.settle)
  | .advance ms => (.nothing, { s with system := s.system.advanceTo (s.now + ms) })
  | .shutdown => (.nothing, s.on (·.onSupervisor (·.shutdown)))
  | .stop name =>
    let (b, sup) := s.system.supervisor.stop name
    (.flag b, s.on ({ · with supervisor := sup }))
  | .state name => (.state (s.system.supervisor.state name), s)
  | .states names =>
    (.states (names.map fun n => (s.system.supervisor.state n, s.system.supervisor.isLive n)), s)
  | .isShuttingDown => (.flags s.system.supervisor.shuttingDown s.system.supervisor.shuttingDown, s)
  | .unsatisfied => (.each (s.system.supervisor.unsatisfied.map .refused), s)
  | .failures => (.failures s.failures, s)
  | .wait name =>
    let (b, s) := s.wait name
    (.flag b, s)
  | .run =>
    let (finished, s) := s.blocking fun system => system.supervisor.live = 0
    (.finished (if finished then some s.failures else none), s)
  | .reconcile specs => s.reconcile (specs.map makeWatch)
  | .watched => (.names s.system.reconciler.watched, s)
  | .watchWorker name =>
    let (r, s) := s.watchWorker name
    (r, s.settle)
  | .send specs =>
    let (taken, s) := s.send (specs.map makeWatch)
    (match taken with
      | some b => .flag b
      | none => .nothing, s.settle)
  | .close =>
    let (b, s) := s.close
    (.flag b, s.settle)
  | .refuseCommands refuse =>
    (.text (some s.system.redirector.chain), s.onRedirector ({ · with refusing := refuse }))
  | .redirect op =>
    let s := s.onRedirector (·.perform op)
    (.mappings s.system.redirector.mappings, s)
  | .mappings => (.mappings s.system.redirector.mappings, s)
  | .update t =>
    let s := s.onStore (·.update t)
    (s.stored .nothing, s)
  | .delete name =>
    let (b, store) := s.system.store.delete name
    let s := s.onStore fun _ => store
    (s.stored (.flag b), s)
  | .setSearch p =>
    let s := s.onStore (·.setSearch p)
    (s.stored .nothing, s)
  | .search => (.names s.system.store.search.suffixes, s)
  | .render name => (.text (s.system.store.render name), s)
  | .table name => (.table (s.system.store.table name), s)
  | .tables => (.tables s.system.store.allTables, s)
  | .resolve name => (.route (s.system.store.resolve name), s)
  | .routeByIp ip => (.route (s.system.store.routeByIp ip), s)
  | .redirects => (.routes s.system.store.redirects, s)
  | .changed =>
    let g := s.system.store.generation
    (.changed (g ≠ s.seenGeneration) g, { s with seenGeneration := g })
  | .apiUpdate tables =>
    match s.system.updateTables tables with
    | .ok system =>
      let s := s.on fun _ => system
      (s.stored .nothing, s)
    | .error e => (s.stored (.apiRefused e), s)
  | .apiRender name =>
    match s.system.renderTable name with
    | .ok text => (.text (some text), s)
    | .error e => (.apiRefused e, s)
  | .converge port =>
    let (c, t) := s.system.redirector.converge s.system.store port
    let s := s.onRedirector fun _ => t
    (.converged c.installs.length c.removals.length t.mappings, s)
  | .chainWorker =>
    let (r, s) := s.supervise chainWorker
    (r, s.settle)
  | .redirectWorker port =>
    let (r, s) := s.supervise (redirectWorker port)
    (r, s.settle)
  | .http request =>
    let (response, system) := s.system.http request
    let s := s.on fun _ => system
    (s.stored (.response response), s)
  | .metrics => (.text (some s.system.metrics.exposition), s)

def received (s : Session) : List Published :=
  match s.system.supervisor.mailboxes[recorderBox]? with
  | some m => m.received
  | none => []

/-- The first `all.length - told` entries of a list that grows at its front, oldest first. -/
def fresh {α : Type} (all : List α) (told : Nat) : List α := (all.take (all.length - told)).reverse

/-- By time, then task, then text. -/
def noteOrder (a b : Note) : Bool :=
  a.time < b.time ||
    (a.time = b.time && (a.task < b.task || (a.task = b.task && a.text ≤ b.text)))

def keeps (s : Session) (p : Published) : Bool :=
  match s.kinds with
  | none => true
  | some ks => ks.contains p.event.kind

/-- A call, and what its caller learns. -/
def call (s : Session) (c : Call) : Outcomes × Session :=
  let (reply, s) := s.reply c
  let chain := s.system.redirector.chain
  ({ time := s.now
     reply
     events := (fresh s.received s.recorded).filter s.keeps
     notes := (fresh s.system.notes s.noted).mergeSort noteOrder
     commands :=
       if s.plain then []
       else (fresh s.system.redirector.issued s.issued).map fun (c, _) => c.arguments chain },
    { s with
      recorded := s.received.length
      noted := s.system.notes.length
      issued := s.system.redirector.issued.length })

end Session

end Switchyard
