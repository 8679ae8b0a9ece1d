import Switchyard.System

/-!
A system as it would be if nobody listened. Main statement: no step but the taking of an event from a mailbox depends
on who listens, how much room there is, or how far anybody has read.
-/
namespace Switchyard

namespace Supervisor

/-- The same without those who listen. -/
def hush (s : Supervisor) : Supervisor := { s with mailboxes := [] }

variable (s : Supervisor) (i : TaskId)

@[simp] theorem task?_hush : s.hush.task? i = s.task? i := rfl

@[simp] theorem lookup_hush (name : String) : s.hush.lookup name = s.lookup name := rfl

@[simp] theorem everReady_hush : s.hush.everReady = s.everReady := rfl

@[simp] theorem isTerminated_hush : s.hush.isTerminated i = s.isTerminated i := rfl

@[simp] theorem isLive_hush (name : String) : s.hush.isLive name = s.isLive name := rfl

@[simp] theorem progress?_hush (u : UnitId) : s.hush.progress? u = s.progress? u := rfl

/-! ### What anybody may ask for -/

@[simp] theorem modifyTask_hush (f : Task → Task) : s.hush.modifyTask i f = (s.modifyTask i f).hush := rfl

@[simp] theorem transition_hush (state : TaskState) (e : Event) :
    s.hush.transition i state e = (s.transition i state e).hush := rfl

@[simp] theorem setPhase_hush (phase : Phase) : s.hush.setPhase i phase = (s.setPhase i phase).hush := rfl

@[simp] theorem markReady_hush : s.hush.markReady i = (s.markReady i).hush := by
  rw [markReady, markReady, apply_ite hush]
  rfl

@[simp] theorem supervise_hush (w : Worker Action) : s.hush.supervise w = (s.supervise w).map hush := by
  have same : s.hush.lookupTask w.name = s.lookupTask w.name := rfl
  simp only [supervise, same]
  split <;> rfl

@[simp] theorem shutdown_hush : s.hush.shutdown = s.shutdown.hush := by
  rw [shutdown, shutdown, apply_ite hush]
  rfl

theorem stop_hush (name : String) : s.hush.stop name = ((s.stop name).1, (s.stop name).2.hush) := by
  rw [stop, stop, lookup_hush]
  cases s.lookup name with
  | none => rfl
  | some i =>
    dsimp only
    rw [isTerminated_hush]
    split <;> rfl

/-! ### The loop that drives a task, and the watch over a sub-unit -/

@[simp] theorem startAttempt_hush : s.hush.startAttempt i = (s.startAttempt i).hush := by
  simp only [startAttempt, task?_hush]
  split
  next => rfl
  next t _ => cases t.worker.readiness <;> simp

@[simp] theorem requirementMet_hush (rest : List String) :
    s.hush.requirementMet i rest = (s.requirementMet i rest).hush := by
  rw [requirementMet, requirementMet, startAttempt_hush, setPhase_hush, apply_ite hush]

@[simp] theorem examine_hush (pending : List String) : s.hush.examine i pending = (s.examine i pending).hush := by
  cases pending with
  | nil => exact startAttempt_hush s i
  | cons r rest =>
    rw [examine, examine, lookup_hush]
    cases s.lookup r with
    | none => rfl
    | some j =>
      dsimp only
      rw [everReady_hush, requirementMet_hush, apply_ite hush]
      rfl

@[simp] theorem afterFailure_hush (t : Task) (previous : Option Duration) (e : TaskError) :
    s.hush.afterFailure i t previous e = (s.afterFailure i t previous e).hush := by
  rw [afterFailure, afterFailure, apply_ite hush]
  rfl

@[simp] theorem finishAttempt_hush (o : Outcome) : s.hush.finishAttempt i o = (s.finishAttempt i o).hush := by
  rw [finishAttempt, finishAttempt, task?_hush]
  cases s.task? i with
  | none => rfl
  | some t =>
    dsimp only
    cases t.attemptResult o with
    | none => rfl
    | some e =>
      cases e with
      | canceled => rfl
      | _ => exact afterFailure_hush (s.modifyTask i _) i t t.delayBefore _

theorem actorStep_hush (turn : Turn) : s.hush.actorStep i turn = (s.actorStep i turn).map hush := by
  rw [actorStep, actorStep, task?_hush]
  cases s.task? i with
  | none => rfl
  | some t =>
    simp only [Option.bind_eq_bind, Option.bind_some, transition_hush, setPhase_hush, examine_hush, everReady_hush,
      requirementMet_hush, finishAttempt_hush, startAttempt_hush]
    split
    -- where the loop waits for the work, it also asks how far that has come
    case h_7 => cases t.work <;> simp only [apply_ite (Option.map hush)] <;> rfl
    case h_8 => cases t.work <;> rfl
    all_goals first | rfl | (rw [apply_ite (Option.map hush)]; rfl)

theorem watchStep_hush (j : Nat) : s.hush.watchStep i j = (s.watchStep i j).map hush := by
  simp only [watchStep, task?_hush]
  cases s.task? i with
  | none => rfl
  | some t =>
    simp only [Option.bind_eq_bind, Option.bind_some]
    cases t.subUnits[j]? with
    | none => rfl
    | some u =>
      simp only [Option.bind_some]
      split <;> simp

end Supervisor

namespace Reconciler

open Supervisor

theorem gather_hush (watched : List String) (specs : List WatchSpec) (report : ReconcileReport) (s : Supervisor) :
    gather watched specs report s.hush =
      ((gather watched specs report s).1, (gather watched specs report s).2.hush) := by
  induction specs generalizing report s with
  | nil => rfl
  | cons spec specs ih =>
    rw [gather, gather, isLive_hush]
    split
    next => exact ih _ _
    next =>
      split
      next => exact ih _ _
      next =>
        cases spec.make with
        | error _ => exact ih _ _
        | ok w =>
          dsimp only
          rw [supervise_hush]
          cases s.supervise (w.named spec.watchName) with
          | error _ => exact ih _ _
          | ok s => exact ih _ _

theorem stops_hush (names : List String) (s : Supervisor) :
    names.foldl (fun s n => (s.stop n).2) s.hush = (names.foldl (fun s n => (s.stop n).2) s).hush := by
  induction names generalizing s with
  | nil => rfl
  | cons n names ih => rw [List.foldl_cons, List.foldl_cons, stop_hush, ih]

theorem begin_hush (r : Reconciler) (s : Supervisor) (specs : List WatchSpec) :
    r.begin s.hush specs = ((r.begin s specs).1, (r.begin s specs).2.hush) := by
  simp only [begin, gather_hush, stops_hush]

@[simp] theorem advance_hush (r : Reconciler) (s : Supervisor) : r.advance s.hush = r.advance s := rfl

end Reconciler

namespace System

open Supervisor

/-- The same without those who listen. -/
def hush (s : System) : System := s.onSupervisor Supervisor.hush

variable (s : System) (u : UnitId)

@[simp] theorem supervisor_hush : s.hush.supervisor = s.supervisor.hush := rfl

theorem receive_hush (feed : Nat) :
    s.hush.receive feed = (s.receive feed).map fun (s', r) => (s'.hush, r) := by
  rw [receive, receive, show s.hush.feeds = s.feeds from rfl]
  cases s.feeds[feed]? with
  | none => rfl
  | some f =>
    simp only [Option.bind_eq_bind, Option.bind_some]
    cases f.queue with
    | nil => cases f.isOpen <;> rfl
    | cons specs rest =>
      simp only [supervisor_hush, Reconciler.begin_hush]
      rfl

theorem settle_hush (feed : Nat) :
    s.hush.settle feed = (s.settle feed).map fun (s', r) => (s'.hush, r) := by
  rw [settle, settle, show s.hush.feeds = s.feeds from rfl]
  cases s.feeds[feed]? with
  | none => rfl
  | some f =>
    simp only [Option.bind_eq_bind, Option.bind_some, supervisor_hush, Reconciler.advance_hush]
    cases f.reconciler.advance s.supervisor <;> rfl

theorem perform_hush (a : Action) :
    s.hush.perform u a = (s.perform u a).map fun (s', r) => (s'.hush, r) := by
  cases a with
  | ready =>
    simp only [perform, onSupervisor, supervisor_hush, markReady_hush]
    rfl
  | shutdown =>
    simp only [perform, onSupervisor, supervisor_hush, shutdown_hush]
    rfl
  | stop name =>
    simp only [perform, onSupervisor, supervisor_hush, stop_hush]
    rfl
  | supervise w =>
    simp only [perform, supervisor_hush, supervise_hush]
    cases s.supervisor.supervise w <;> rfl
  | wait name =>
    simp only [perform, supervisor_hush, lookup_hush]
    cases s.supervisor.lookup name <;> rfl
  | receive feed => exact receive_hush s feed
  | settling feed => exact settle_hush s feed
  | applying es => cases es <;> rfl
  | awaitCancel | sleepUntil | napUntil | waitFor | redirecting | comparing | awaitChange =>
    rw [perform, perform, apply_ite (Option.map _)]
    rfl
  | _ => rfl

theorem unitStep_hush (turn : UnitTurn) : s.hush.unitStep u turn = (s.unitStep u turn).map hush := by
  rw [unitStep, unitStep, supervisor_hush, progress?_hush]
  cases s.supervisor.progress? u with
  | none => rfl
  | some p =>
    cases p with
    | ended e => rfl
    | running w =>
      simp only [Option.bind_eq_bind, Option.bind_some]
      cases turn with
      | proceed =>
        dsimp only
        rw [perform_hush]
        cases s.perform u w.next <;> rfl
      | cancel =>
        dsimp only
        cases onCancel w.next with
        | none => rfl
        | some r =>
          rw [Option.bind_some, Option.bind_some, apply_ite (Option.map hush)]
          rfl
      | abandon depth =>
        dsimp only
        cases w.abandon depth with
        | none => rfl
        | some w =>
          rw [Option.bind_some, Option.bind_some, apply_ite (Option.map hush)]
          rfl

def Label.isDelivery : Label → Bool
  | .deliver _ => true
  | _ => false

/-- Whether a step can be taken, and what it does but for the mailboxes, does not depend on who listens. -/
theorem step_hush {l : Label} (other : l.isDelivery = false) : s.hush.step l = (s.step l).map hush := by
  cases l with
  | actor i turn =>
    rw [step, step, supervisor_hush, actorStep_hush]
    cases s.supervisor.actorStep i turn <;> rfl
  | unit u turn => exact unitStep_hush s u turn
  | watch i j =>
    rw [step, step, supervisor_hush, watchStep_hush]
    cases s.supervisor.watchStep i j <;> rfl
  | deliver box => cases other
  | reconciler =>
    rw [step, step, Option.map_map]
    rfl

/-- Taking an event from a mailbox touches nothing else. -/
theorem deliver_hush {s s' : System} {box : Nat} (h : s.deliver box = some s') : s'.hush = s.hush := by
  obtain ⟨m, _, h⟩ := Option.bind_eq_some_iff.1 h
  obtain ⟨m', _, h⟩ := Option.bind_eq_some_iff.1 h
  cases h
  rfl

/-- The same run without those who listen: the takings left out, all else goes on as it did. -/
theorem steps_hush {s s' : System} {ls : List Label} (h : ls.foldlM step s = some s') :
    (ls.filter (!·.isDelivery)).foldlM step s.hush = some s'.hush := by
  induction ls generalizing s with
  | nil =>
    cases h
    rfl
  | cons l ls ih =>
    obtain ⟨r, first, rest⟩ := Option.bind_eq_some_iff.1 h
    cases delivery : l.isDelivery with
    | true =>
      rw [List.filter_cons_of_neg (by simp [delivery])]
      cases l with
      | deliver box => exact deliver_hush first ▸ ih rest
      | _ => cases delivery
    | false =>
      rw [List.filter_cons_of_pos (by simp [delivery]), List.foldlM_cons, step_hush s delivery, first]
      exact ih rest

/-- Steps that take no event from a mailbox are open whoever listens, and lead to the same. -/
theorem steps_of_hush {ls : List Label} (other : ∀ l ∈ ls, l.isDelivery = false) :
    ls.foldlM step s.hush = (ls.foldlM step s).map hush := by
  induction ls generalizing s with
  | nil => rfl
  | cons l ls ih =>
    rw [List.foldlM_cons, List.foldlM_cons, step_hush s (other l (List.mem_cons_self ..))]
    cases s.step l with
    | none => rfl
    | some r => exact ih r fun l inside => other l (List.mem_cons_of_mem _ inside)

/-- With other listeners, the same run but for the takings can be had, to the same end. -/
theorem steps_of_hush_eq {s s' r : System} {ls : List Label} (h : ls.foldlM step s = some s') (same : r.hush = s.hush) :
    ∃ r', (ls.filter (!·.isDelivery)).foldlM step r = some r' ∧ r'.hush = s'.hush := by
  have silent := steps_hush h
  rw [← same, steps_of_hush] at silent
  · exact Option.map_eq_some_iff.1 silent
  · exact fun l inside => Bool.not_eq_true' _ ▸ (List.mem_filter.1 inside).2

end System

end Switchyard
