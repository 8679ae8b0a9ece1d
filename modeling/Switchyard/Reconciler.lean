import Switchyard.Supervision.Supervisor

/-!
Keeping a set of supervised watchers equal to the set last asked for.
-/
namespace Switchyard

/-- A wanted watcher under the name its maker gives it, and the worker for it unless none can be made. -/
structure WatchSpec where
  watchName : String
  make : Except TaskError (Worker Action)
  deriving Inhabited

/-- What a pass did. -/
structure ReconcileReport where
  started : List String := []
  kept : List String := []
  stopped : List String := []
  deriving DecidableEq, Repr, Inhabited

def ReconcileReport.isNoop (r : ReconcileReport) : Bool := r.started.isEmpty && r.stopped.isEmpty

/-- A pass that waits for stale watchers to end. `current` is the registration it waits for. -/
structure Pass where
  report : ReconcileReport
  waiting : List String
  current : Option TaskId := none
  deriving Inhabited

/-- `watched` is ascending and without repetition. -/
structure Reconciler where
  watched : List String := []
  pass : Option Pass := none
  deriving Inhabited

namespace Reconciler

/-- The first part of a pass, taking each wanted watcher in turn: keep it if it is watched and alive, else register
it. A name counts once; a watcher that cannot be made or registered is left out. -/
def gather (watched : List String) :
    List WatchSpec → ReconcileReport → Supervisor → ReconcileReport × Supervisor
  | [], report, s => (report, s)
  | spec :: specs, report, s =>
    let name := spec.watchName
    if report.started.contains name || report.kept.contains name then gather watched specs report s
    else if watched.contains name && s.isLive name then
      gather watched specs { report with kept := report.kept ++ [name] } s
    else
      match spec.make with
      | .error _ => gather watched specs report s
      | .ok w =>
        match s.supervise (w.named name) with
        | .error _ => gather watched specs report s
        | .ok s => gather watched specs { report with started := report.started ++ [name] } s

/-- Gathers, then asks every watcher that is no longer wanted to stop. -/
def begin (r : Reconciler) (s : Supervisor) (specs : List WatchSpec) : Reconciler × Supervisor :=
  let (report, s) := gather r.watched specs {} s
  let stale := r.watched.filter fun n => !(report.started.contains n || report.kept.contains n)
  ({ r with pass := some { report := { report with stopped := stale }, waiting := stale } },
    stale.foldl (fun s n => (s.stop n).2) s)

/-- The names a completed pass leaves under watch. -/
def found (report : ReconcileReport) : List String :=
  (report.started ++ report.kept).mergeSort fun a b => a ≤ b

/-- One step of the wait: `none` while the registration waited for is alive. The wait for a name looks it up once.
When nothing is left to wait for, the pass is over. -/
def advance (r : Reconciler) (s : Supervisor) : Option Reconciler := do
  let p ← r.pass
  match p.waiting, p.current with
  | [], _ => some { watched := found p.report, pass := none }
  | n :: rest, none =>
    match s.lookup n with
    | none => some { r with pass := some { p with waiting := rest } }
    | some i => some { r with pass := some { p with current := some i } }
  | _ :: rest, some i =>
    if s.isTerminated i then some { r with pass := some { p with waiting := rest, current := none } } else none

/-- Gives up a pass in progress: what it registered or stopped stays so, but `watched` is not brought up to date. -/
def abandon (r : Reconciler) : Reconciler := { r with pass := none }

end Reconciler

end Switchyard
