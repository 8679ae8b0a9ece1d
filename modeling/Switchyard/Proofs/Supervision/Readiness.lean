import Switchyard.Proofs.Execution
import Switchyard.Proofs.Supervision.Cancellation
import Switchyard.Proofs.Supervision.Draining
import Switchyard.Proofs.Supervision.Pacing

/-!
Whether a unit is heard that says its task is ready. Main statement: it is not when the task has been ready in this
attempt or its loop has noticed that it is to stop, and then nothing comes of it; until then it is, also in an attempt
that has been cancelled already.
-/
namespace Switchyard

namespace Supervisor

variable {s s' : Supervisor} {i k : TaskId} {t t' : Task} {es : List Event} {past : List Supervisor} {u : UnitId}
  {cancelled : Bool}

/-! ### Running units -/

/-- A unit runs only between the start of an attempt and its end. -/
theorem Run.inAttempt_of_running (run : Run s past) (running : s.isRunning u = true) :
    ∃ t, s.task? u.task = some t ∧ t.phase.inAttempt = true := by
  obtain ⟨t, w, ht, unit⟩ := isRunning_iff.1 running
  refine ⟨t, ht, ?_⟩
  have busy := busy_of_running (run.noted ht) unit
  have accounted := run.accounted ht
  cases awaits : t.phase.awaitsWork with
  | false =>
    have draining := (atRest_or_draining accounted awaits).resolve_left busy
    cases phase : t.phase <;> simp [Task.isDraining, phase] at draining
    rfl
  | true => cases phase : t.phase <;> simp [Phase.awaitsWork, phase] at awaits <;> rfl

/-- The states of a task between the start of an attempt and its end. -/
theorem state_of_inAttempt (c : t.Chronicle cancelled es) (inside : t.phase.inAttempt = true) :
    t.state = .running ∨ t.state = .ready ∨ t.state = .shuttingDown := by
  have mem := state_mem_states c
  cases phase : t.phase <;> rw [phase] at inside mem
  case attempting =>
    simp only [Phase.states, List.mem_cons, List.not_mem_nil, or_false] at mem
    exact mem.imp_right .inl
  case stopping =>
    simp only [Phase.states, List.mem_cons, List.not_mem_nil, or_false] at mem
    exact .inr (.inr mem)
  case draining => simpa [Phase.states] using mem
  all_goals cases inside

/-! ### What nobody can notice -/

/-- Nothing has become of it but for the units themselves: nothing is told, no task stands elsewhere than before, no
requirement is met that was not, and no delay starts over. -/
structure Unheard (s s' : Supervisor) : Prop where
  told : s'.history = s.history
  states : ∀ k, (s'.task? k).map (·.state) = (s.task? k).map (·.state)
  latch : ∀ k, s'.everReady k = s.everReady k
  flag : ∀ k, (s'.task? k).map (·.readyInAttempt) = (s.task? k).map (·.readyInAttempt)
  met : ∀ r parked, s'.Met r parked ↔ s.Met r parked
  delays : ∀ k, (s'.task? k).map (·.delayBefore) = (s.task? k).map (·.delayBefore)

/-- A view of the registrations that does not tell the new one from the old one. -/
theorem map_task?_amend {α : Type} (h : s.task? i = some t) {view : Task → α} (same : view t' = view t) (k : TaskId) :
    ((s.amend i t' es).task? k).map view = (s.task? k).map view := by
  by_cases hk : k = i
  · rw [hk, task?_amend_self (lt_of_task? h), h, Option.map_some, Option.map_some, same]
  · rw [task?_amend_of_ne hk]

theorem everReady_amend (h : s.task? i = some t) (same : t'.everReady = t.everReady) (k : TaskId) :
    (s.amend i t' es).everReady k = s.everReady k := by
  by_cases hk : k = i
  · rw [hk, everReady_of_task? (task?_amend_self (lt_of_task? h)), everReady_of_task? h, same]
  · rw [everReady, task?_amend_of_ne hk, everReady]

theorem unheard_amend (h : s.task? i = some t) (worker : t'.worker = t.worker) (state : t'.state = t.state)
    (latch : t'.everReady = t.everReady) (flag : t'.readyInAttempt = t.readyInAttempt) (delay : t'.delay = t.delay) :
    Unheard s (s.amend i t' []) where
  told := history_amend s i t' []
  states := map_task?_amend h state
  latch := everReady_amend h latch
  flag := map_task?_amend h flag
  met r parked := by simp only [Met, everReady_amend h latch, lookup_amend]
  delays := map_task?_amend h (by rw [Task.delayBefore, Task.delayBefore, worker, flag, delay])

theorem unheard_setProgress (running : s.isRunning u = true) (p : Progress) : Unheard s (s.setProgress u p) := by
  obtain ⟨t, w, ht, unit⟩ := isRunning_iff.1 running
  rw [setProgress, modifyTask_eq ht]
  cases u.sub <;> exact unheard_amend ht rfl rfl rfl rfl rfl

theorem markReady_setProgress (h : s.task? u.task = some t) (running : t.state = .running) (p : Progress) :
    (s.markReady u.task).setProgress u p = s.amend u.task (t.readied.withUnit u.sub p) [.ready t.name] := by
  have amended : (s.amend u.task t []).markReady u.task = _ := markReady_amend (lt_of_task? h)
  rw [amend_nil h, if_pos running] at amended
  rw [amended, setProgress, modifyTask_amend (lt_of_task? h)]
  rfl

end Supervisor

namespace System

open Supervisor

variable {s : System} {u : UnitId} {w : Work}

/-- A unit that says its task is ready goes on in any case. It is refused just if the task has been ready in this
attempt already or its loop has noticed the request to stop, and then nothing comes of it. Otherwise, that is also
between the request and the moment at which the loop notices it, and while the sub-units drain behind work that has
returned by itself, its readiness is told and marked, once in the attempt and for good. -/
theorem ready_refused (reached : s.Reached) (here : s.supervisor.progress? u = some (.running w))
    (next : w.next = .ready) : ∃ t s', s.supervisor.task? u.task = some t ∧ s.step (.unit u .proceed) = some s' ∧
      t.phase.inAttempt = true ∧ (t.phase = .stopping → t.state = .shuttingDown) ∧
      (t.state = .ready ∨ t.state = .shuttingDown → Unheard s.supervisor s'.supervisor) ∧
      (t.state ≠ .ready → t.state ≠ .shuttingDown → t.state = .running ∧
        s'.supervisor.history =
          ⟨u.task, s.supervisor.nextSeq, s.supervisor.now, .ready t.name⟩ :: s.supervisor.history ∧
        ∃ t', s'.supervisor.task? u.task = some t' ∧ t'.state = .ready ∧ t'.everReady = true ∧
          t'.readyInAttempt = true) := by
  obtain ⟨past, run⟩ := reached.run
  have running : s.supervisor.isRunning u = true := by simp [isRunning, here]
  obtain ⟨t, ht, inside⟩ := run.inAttempt_of_running running
  have chronicle := run.chronicle ht
  have goesOn : s.step (.unit u .proceed) = some (s.onSupervisor fun sup =>
      (sup.markReady u.task).setProgress u (w.resume (.goOn []))) := by
    simp [step, unitStep, here, next, perform, onSupervisor]
  refine ⟨t, _, ht, goesOn, inside, fun stopping => ?_, fun refused => ?_, fun unready alive => ?_⟩
  · simpa [stopping, Phase.states] using state_mem_states chronicle
  · have idle : t.state ≠ .running := by
      rcases refused with state | state <;> rw [state] <;> exact TaskState.noConfusion
    have deaf : s.supervisor.markReady u.task = s.supervisor := by
      rw [markReady, ht, if_neg (by simpa using idle)]
    rw [onSupervisor, deaf]
    exact unheard_setProgress running _
  · have state := (state_of_inAttempt chronicle inside).resolve_right fun other => other.elim unready alive
    have heard := markReady_setProgress ht state (w.resume (.goOn []))
    rw [onSupervisor, heard]
    refine ⟨state, history_amend .., _, task?_amend_self (lt_of_task? ht), ?_⟩
    cases u.sub <;> exact ⟨rfl, rfl, rfl⟩

/-- The next thing that a unit does is to say that its task is ready. -/
def saysReady (s : System) (u : UnitId) : Bool :=
  match (s.supervisor.progress? u).map fun | .running w => w.next | .ended _ => .forever with
  | some .ready => true
  | _ => false

theorem of_saysReady (h : s.saysReady u = true) :
    ∃ w, s.supervisor.progress? u = some (.running w) ∧ w.next = .ready := by
  unfold saysReady at h
  split at h
  next next =>
    obtain ⟨p, here, next⟩ := Option.map_eq_some_iff.1 next
    cases p with
    | running w => exact ⟨w, here, next⟩
    | ended e => cases next
  next => cases h

/-- The loop has noticed that its task is to stop. -/
theorem ready_refused_stopping : ∃ s s' : System, s.Reached ∧ s.supervisor.attemptCancelled 0 = true ∧
    s.saysReady ⟨0, none⟩ = true ∧ s.step (.unit ⟨0, none⟩ .proceed) = some s' ∧
    Unheard s.supervisor s'.supervisor := by
  obtain ⟨s, reached, h⟩ := exists_reached
    (P := fun s => s.supervisor.attemptCancelled 0 = true ∧ s.saysReady ⟨0, none⟩ = true ∧
      (s.supervisor.task? 0).any (·.state = .shuttingDown) = true)
    [{ name := "a", task := "a", readiness := .explicit, scripts := [[.stop "a", .ready]] }]
    [.actor 0 .proceed, .actor 0 .proceed, .unit ⟨0, none⟩ .proceed, .actor 0 .cancel] (by decide +kernel)
  obtain ⟨cancelled, speaks, stopping⟩ := of_decide_eq_true h
  obtain ⟨w, here, next⟩ := of_saysReady speaks
  obtain ⟨t, s', ht, goesOn, _, _, refused, _⟩ := ready_refused reached here next
  have state : t.state = .shuttingDown := by simpa [ht] using stopping
  exact ⟨s, s', reached, cancelled, speaks, goesOn, refused (.inr state)⟩

/-- What comes of it when a unit of the first task says that it is ready: the second one, which could not go on,
starts. -/
def setsOff (s : System) (u : UnitId) : Bool :=
  (s.step (.unit u .proceed)).any fun s' =>
    s'.supervisor.published u.task = s.supervisor.published u.task ++ [.ready "a"] ∧
      s.supervisor.everReady u.task = false ∧ s'.supervisor.everReady u.task = true ∧
      (s.step (.actor 1 .proceed)).isNone ∧
      (s'.step (.actor 1 .proceed)).any (·.supervisor.published 1 =
        s.supervisor.published 1 ++ [.starting "b" 1, .running "b", .ready "b"])

/-- That an attempt has been cancelled is not enough: a unit is heard after the task has been asked to stop, as long as
the loop has not noticed, and a sub-unit is heard while it drains behind the work. -/
theorem ready_heard_cancelled :
    (∃ (s : System) (u : UnitId), s.Reached ∧ s.supervisor.isCancelled u.task = true ∧ s.saysReady u = true ∧
      s.setsOff u = true) ∧
    ∃ (s : System) (u : UnitId), s.Reached ∧ s.supervisor.isCancelled u.task = false ∧
      s.supervisor.attemptCancelled u.task = true ∧
      s.saysReady u = true ∧ s.setsOff u = true := by
  constructor
  · obtain ⟨s, reached, h⟩ := exists_reached
      (P := fun s => s.supervisor.isCancelled 0 = true ∧ s.saysReady ⟨0, none⟩ = true ∧ s.setsOff ⟨0, none⟩ = true)
      [{ name := "a", task := "a", readiness := .explicit, scripts := [[.stop "a", .ready]] },
        { name := "b", task := "b", requires := ["a"] }]
      [.actor 0 .proceed, .actor 0 .proceed, .actor 1 .proceed, .actor 1 .proceed, .unit ⟨0, none⟩ .proceed]
      (by decide +kernel)
    exact ⟨s, ⟨0, none⟩, reached, of_decide_eq_true h⟩
  · obtain ⟨s, reached, h⟩ := exists_reached
      (P := fun s => s.supervisor.isCancelled 0 = false ∧ s.supervisor.attemptCancelled 0 = true ∧
        s.saysReady ⟨0, some 0⟩ = true ∧ s.setsOff ⟨0, some 0⟩ = true)
      [{ name := "a", task := "a", readiness := .explicit, scripts := [[.spawn [.awaitCancel, .ready]]] },
        { name := "b", task := "b", requires := ["a"] }]
      [.actor 0 .proceed, .actor 0 .proceed, .actor 1 .proceed, .actor 1 .proceed, .unit ⟨0, none⟩ .proceed,
        .watch 0 0, .unit ⟨0, none⟩ .proceed, .actor 0 .proceed, .unit ⟨0, some 0⟩ .proceed] (by decide +kernel)
    exact ⟨s, ⟨0, some 0⟩, reached, of_decide_eq_true h⟩

end System

end Switchyard
