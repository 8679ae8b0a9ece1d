import Switchyard.Proofs.Supervision.Cancellation
import Switchyard.Proofs.Supervision.Draining

/-!
Who moves the work of a task. Main statement: nobody but its own unit, except that the loop begins an attempt when the
one before is over. A task that is not tried again begins at most one.
-/
namespace Switchyard

namespace Supervisor

variable {s s' : Supervisor} {i k : TaskId} {t t' : Task} {es : List Event} {past : List Supervisor} {u : UnitId}

/-- How far the work of registration `k` has come, and in which attempt. -/
def standing (s : Supervisor) (k : TaskId) : Progress × Nat :=
  ((s.task? k).map fun t => (t.work, t.attempt)).getD (.ended (.returned none), 0)

theorem standing_of_task? (h : s.task? k = some t) : s.standing k = (t.work, t.attempt) := by
  rw [standing, h]
  rfl

theorem progress?_of_standing {w : Work} {n : Nat} (h : s.standing k = (.running w, n)) :
    s.progress? ⟨k, none⟩ = some (.running w) := by
  cases ht : s.task? k with
  | none => simp [standing, ht] at h
  | some t =>
    rw [standing_of_task? ht] at h
    rw [progress?_eq ht, Task.unit?, (Prod.mk.inj h).1]

/-! ### What leaves it alone -/

theorem standing_amend (h : s.task? i = some t) (work : t'.work = t.work) (attempt : t'.attempt = t.attempt) :
    (s.amend i t' es).standing k = s.standing k := by
  by_cases hk : k = i
  · subst hk
    rw [standing_of_task? (task?_amend_self (lt_of_task? h)), standing_of_task? h, work, attempt]
  · rw [standing, standing, task?_amend_of_ne hk]

theorem standing_modifyTask (f : Task → Task) (work : ∀ t, (f t).work = t.work)
    (attempt : ∀ t, (f t).attempt = t.attempt) : (s.modifyTask i f).standing k = s.standing k := by
  cases h : s.task? i with
  | none => rw [modifyTask_of_none h]
  | some t =>
    rw [modifyTask_eq h]
    exact standing_amend h (work t) (attempt t)

theorem standing_transition (state : TaskState) (e : Event) : (s.transition i state e).standing k = s.standing k :=
  standing_modifyTask _ (fun _ => rfl) fun _ => rfl

theorem standing_setPhase (phase : Phase) : (s.setPhase i phase).standing k = s.standing k :=
  standing_modifyTask _ (fun _ => rfl) fun _ => rfl

theorem standing_markReady : (s.markReady i).standing k = s.standing k := by
  rcases markReady_cases s i with same | ⟨t, h, _, amended⟩
  · rw [same]
  · rw [amended]
    exact standing_amend h rfl rfl

theorem standing_addSubUnit (script : Script) : (s.addSubUnit i script).standing k = s.standing k :=
  standing_modifyTask _ (fun _ => rfl) fun _ => rfl

theorem standing_setProgress (other : u ≠ ⟨k, none⟩) (p : Progress) :
    (s.setProgress u p).standing k = s.standing k := by
  obtain ⟨i, sub⟩ := u
  cases sub with
  | some j => exact standing_modifyTask _ (fun _ => rfl) fun _ => rfl
  | none =>
    have hk : k ≠ i := fun same => other (same ▸ rfl)
    cases h : s.task? i with
    | none => rw [setProgress, modifyTask_of_none h]
    | some t => rw [setProgress, modifyTask_eq h, standing, standing, task?_amend_of_ne hk]

theorem standing_setProgress_self {w : Work} {n : Nat} (h : s.standing k = (.running w, n)) (p : Progress) :
    (s.setProgress ⟨k, none⟩ p).standing k = (p, n) := by
  cases ht : s.task? k with
  | none => simp [standing, ht] at h
  | some t =>
    rw [standing_of_task? ht] at h
    rw [setProgress, modifyTask_eq ht, standing_of_task? (task?_amend_self (lt_of_task? ht)), (Prod.mk.inj h).2]

theorem standing_terminate (error : Option TaskError) : (s.terminate i error).standing k = s.standing k :=
  (standing_setPhase _).trans (standing_transition _ _)

theorem standing_supervise {w : Worker Action} (h : s.supervise w = .ok s') : s'.standing k = s.standing k := by
  rw [standing, standing, task?_supervise h]
  by_cases hk : k = s.tasks.length
  · rw [if_pos hk, hk, task?, List.getElem?_eq_none (Nat.le_refl _)]
    rfl
  · rw [if_neg hk]

theorem standing_stop (name : String) : (s.stop name).2.standing k = s.standing k := by
  unfold Supervisor.stop
  split
  · split
    · rfl
    · exact standing_modifyTask _ (fun _ => rfl) fun _ => rfl
  · rfl

theorem standing_shutdown : s.shutdown.standing k = s.standing k := by
  rw [standing, task?_shutdown, standing]

theorem Requests.standing (h : Requests s s') : s'.standing k = s.standing k := by
  induction h with
  | refl => rfl
  | tail _ m ih =>
    obtain ⟨a, request, m⟩ := m
    cases a with
    | supervise w => exact (standing_supervise (act_supervise.1 m)).trans ih
    | stop name =>
      cases m
      exact (standing_stop name).trans ih
    | shutdown =>
      cases m
      exact standing_shutdown.trans ih
    | _ => cases request

theorem standing_watchStep {j : Nat} (step : s.watchStep i j = some s') : s'.standing k = s.standing k := by
  obtain ⟨t, _, h⟩ := Option.bind_eq_some_iff.1 step
  obtain ⟨v, _, h⟩ := Option.bind_eq_some_iff.1 h
  split at h
  · cases h
    exact standing_modifyTask _ (fun _ => rfl) fun _ => rfl
  · cases h
    exact standing_modifyTask _ (fun _ => rfl) fun _ => rfl
  · cases h

theorem standing_afterFailure (t : Task) (previous : Option Duration) (e : TaskError) :
    (s.afterFailure i t previous e).standing k = s.standing k := by
  simp only [afterFailure]
  split
  · exact standing_terminate _
  · have delayed := standing_modifyTask (s := s) (i := i) (k := k) ({ · with delay := some (s.backoff.next previous) })
      (fun _ => rfl) fun _ => rfl
    exact ((standing_setPhase _).trans (standing_transition _ _)).trans delayed

theorem standing_finishAttempt (o : Outcome) : (s.finishAttempt i o).standing k = s.standing k := by
  unfold finishAttempt
  split
  next => rfl
  next t _ =>
    have drained := standing_modifyTask (s := s) (i := i) (k := k)
      ({ · with readyInAttempt := false, delay := t.delayBefore }) (fun _ => rfl) fun _ => rfl
    simp only
    split
    · exact (standing_terminate _).trans drained
    · exact (standing_terminate _).trans drained
    · exact (standing_afterFailure ..).trans drained

/-! ### The loop -/

/-- An attempt of registration `k` begins. -/
def Begins (s s' : Supervisor) (k : TaskId) : Prop := ∃ t, s.task? k = some t ∧ s'.task? k = some t.begun

theorem startAttempt_standing (s : Supervisor) (i k : TaskId) :
    (s.startAttempt i).standing k = s.standing k ∨ Begins s (s.startAttempt i) k := by
  cases h : s.task? i with
  | none =>
    left
    rw [startAttempt, h]
  | some t =>
    have started : (s.amend i t []).startAttempt i = _ := startAttempt_amend (lt_of_task? h)
    rw [amend_nil h] at started
    rw [started]
    by_cases hk : k = i
    · subst hk
      exact .inr ⟨t, h, task?_amend_self (lt_of_task? h)⟩
    · left
      rw [standing, standing, task?_amend_of_ne hk]

theorem requirementMet_standing (s : Supervisor) (i k : TaskId) (rest : List String) :
    (s.requirementMet i rest).standing k = s.standing k ∨ Begins s (s.requirementMet i rest) k := by
  unfold requirementMet
  split
  · exact startAttempt_standing s i k
  · exact .inl (standing_setPhase _)

theorem examine_standing (s : Supervisor) (i k : TaskId) (pending : List String) :
    (s.examine i pending).standing k = s.standing k ∨ Begins s (s.examine i pending) k := by
  cases pending with
  | nil => exact startAttempt_standing s i k
  | cons r rest =>
    simp only [examine]
    split
    · split
      · exact requirementMet_standing s i k rest
      · exact .inl (standing_setPhase _)
    · exact .inl (standing_setPhase _)

theorem Goes.unblocked_of_attempt (g : Goes s i t t' es) (h : t'.attempt ≠ t.attempt) : s.Unblocked t.phase := by
  cases g with
  | start unblocked => exact unblocked
  | @work sub => cases sub <;> exact absurd rfl h
  | _ => exact absurd rfl h

theorem Begins.unblocked (b : Begins s s' k) (e : Effect s s') :
    ∃ t, s.task? k = some t ∧ s.Unblocked t.phase ∧ s'.task? k = some t.begun := by
  obtain ⟨t, h, begun⟩ := b
  have later : t.begun.attempt ≠ t.attempt := Nat.succ_ne_self _
  refine ⟨t, h, ?_, begun⟩
  rcases (e.fate begun).of_task? h with same | ⟨es, g⟩ | ⟨es, error, d⟩
  · exact absurd (congrArg Task.attempt same) later
  · exact g.unblocked_of_attempt later
  · exact absurd d.attempt later

theorem actorStep_standing {turn : Turn} (step : s.actorStep i turn = some s') (k : TaskId) :
    s'.standing k = s.standing k ∨ ∃ t, s.task? k = some t ∧ s.Unblocked t.phase ∧ s'.task? k = some t.begun := by
  suffices h : s'.standing k = s.standing k ∨ Begins s s' k from
    h.imp_right (Begins.unblocked · (actorStep_plain step).effect)
  obtain ⟨t, _, h⟩ := Option.bind_eq_some_iff.1 step
  clear step
  split at h
  case h_1 =>
    cases h
    exact .inl ((standing_setPhase _).trans (standing_transition _ _))
  case h_2 =>
    cases h
    exact examine_standing s i k _
  case h_3 =>
    obtain ⟨_, h⟩ := Option.ite_none_right_eq_some.1 h
    cases h
    exact requirementMet_standing s i k _
  case h_4 =>
    obtain ⟨_, h⟩ := Option.ite_none_right_eq_some.1 h
    cases h
    exact examine_standing s i k _
  case h_6 =>
    obtain ⟨_, h⟩ := Option.ite_none_right_eq_some.1 h
    cases h
    exact .inl ((standing_setPhase _).trans (standing_transition _ _))
  case h_7 =>
    split at h
    · obtain ⟨_, h⟩ := Option.ite_none_left_eq_some.1 h
      cases h
      exact .inl (standing_setPhase _)
    · cases h
  case h_8 =>
    split at h
    · cases h
      exact .inl (standing_setPhase _)
    · cases h
  case h_9 =>
    obtain ⟨_, h⟩ := Option.ite_none_right_eq_some.1 h
    cases h
    exact .inl (standing_finishAttempt _)
  case h_10 =>
    obtain ⟨_, h⟩ := Option.ite_none_right_eq_some.1 h
    cases h
    exact startAttempt_standing s i k
  case h_12 => cases h
  -- the end of a task that was blocked or delayed
  all_goals
    obtain ⟨_, h⟩ := Option.ite_none_right_eq_some.1 h
    cases h
    exact .inl (standing_terminate _)

/-! ### Runs -/

/-- A task that is not tried again begins no attempt but the first. -/
theorem Run.attempted_once (run : Run s past) (h : s.task? k = some t) (once : t.worker.retries = false) :
    t.attempt = 0 ∨ t.phase.startsLeft = 0 := by
  revert once
  refine run.registrations (P := fun _ _ _ t => t.worker.retries = false → t.attempt = 0 ∨ t.phase.startsLeft = 0) ?_ h
  intro s s' past k t' _ _ f ih once
  cases f with
  | new => exact .inl rfl
  | same h => exact ih _ h once
  | goes h g =>
    have before := ih _ h (g.worker ▸ once)
    cases g with
    | start => exact .inr rfl
    | block h => exact before.imp_right fun none => by simp [h, Phase.startsLeft] at none
    | pass h => exact before.imp_right fun none => by simp [h, Phase.startsLeft] at none
    | park h => exact before.imp_right fun none => by simp [h, Phase.startsLeft] at none
    | surface => exact .inr rfl
    | leave => exact .inr rfl
    | retry _ _ _ _ retries => exact absurd (once.symm.trans retries) Bool.noConfusion
    | @work sub => cases sub <;> exact before
    | _ => exact before
  | ends h d => exact .inr d.startsLeft.2.2

theorem Run.first_of_unblocked (run : Run s past) (h : s.task? k = some t) (once : t.worker.retries = false)
    (unblocked : s.Unblocked t.phase) : t.attempt = 0 := by
  refine (run.attempted_once h once).resolve_right ?_
  rw [unblocked.startsLeft]
  exact Nat.one_ne_zero

theorem Run.atRest_of_unblocked (run : Run s past) (h : s.task? k = some t) (unblocked : s.Unblocked t.phase) :
    t.AtRest := Supervisor.atRest_of_unblocked (run.accounted h) unblocked

theorem Run.atRest_of_terminated (run : Run s past) (h : s.task? k = some t) (gone : t.isTerminated = true) :
    t.AtRest := by
  have done := (terminated_iff_done (run.chronicle h)).1 (Task.isTerminated_iff.1 gone)
  have accounted := run.accounted h
  rw [Task.Accounted, done] at accounted
  exact accounted.1

/-- A registration keeps its worker. -/
theorem Follows.worker (h : Follows s s') (ht : s.task? k = some t) :
    ∃ t', s'.task? k = some t' ∧ t'.worker = t.worker := by
  induction h with
  | refl => exact ⟨t, ht, rfl⟩
  | tail _ m ih =>
    obtain ⟨a, m⟩ := m
    obtain ⟨v, hv, before⟩ := ih
    obtain ⟨t', ht', worker⟩ := (act_effect m).worker hv
    exact ⟨t', ht', worker.trans before⟩

theorem Follows.worker_before {w : Worker Action} (h : Follows s s')
    (later : ∀ t, s'.task? k = some t → t.worker = w) : ∀ t, s.task? k = some t → t.worker = w := by
  intro t ht
  obtain ⟨t', ht', worker⟩ := h.worker ht
  exact worker.symm.trans (later t' ht')

end Supervisor

namespace System

open Supervisor

variable {s s' : System} {u : UnitId} {k : TaskId}

theorem perform_standing {a : Action} {r : Reaction} (h : s.perform u a = some (s', r)) :
    s'.supervisor.standing k = s.supervisor.standing k := by
  rcases perform_supervisor h with requests | ready | ⟨script, spawn⟩
  · exact requests.standing
  · rw [ready, standing_markReady]
  · rw [spawn, standing_addSubUnit]

/-- A unit that has ended takes no turn. -/
theorem unitStep_of_ended {e : Ending} {a : Nat} {turn : UnitTurn} (h : s.supervisor.standing k = (.ended e, a)) :
    s.unitStep ⟨k, none⟩ turn = none := by
  cases ht : s.supervisor.task? k with
  | none => simp [unitStep, Supervisor.progress?, ht]
  | some t =>
    rw [Supervisor.standing_of_task? ht] at h
    have ended : s.supervisor.progress? ⟨k, none⟩ = some (.ended e) := by
      rw [Supervisor.progress?_eq ht, Task.unit?, (Prod.mk.inj h).1]
    simp [unitStep, ended]

theorem unitStep_standing {turn : UnitTurn} (other : u ≠ ⟨k, none⟩) (h : s.unitStep u turn = some s') :
    s'.supervisor.standing k = s.supervisor.standing k := by
  cases unitStep_cases h with
  | proceed _ performed => exact (standing_setProgress other _).trans (perform_standing performed)
  | cancel => exact standing_setProgress other _
  | abandon => exact standing_setProgress other _

theorem step_standing {l : Label} (foreign : ∀ turn, l ≠ .unit ⟨k, none⟩ turn) (h : s.step l = some s') :
    s'.supervisor.standing k = s.supervisor.standing k ∨
      ∃ t, s.supervisor.task? k = some t ∧ s.supervisor.Unblocked t.phase ∧
        s'.supervisor.task? k = some t.begun := by
  cases step_cases h with
  | actor turns => exact actorStep_standing turns k
  | @unit u turn _ turns => exact .inl (unitStep_standing (fun same => foreign turn (same ▸ rfl)) turns)
  | watch turns => exact .inl (standing_watchStep turns)
  | deliver => exact .inl rfl
  | reconciler => exact .inl rfl

end System

end Switchyard
