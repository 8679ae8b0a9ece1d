import Switchyard.Proofs.Supervision.Requirements

/-!
The steps of the loop that drives a task, told from the task alone: what it finds around itself is the clock, whether
it is asked to stop, and whether what it waits for has been ready. Main statements: every step is such a turn or a
look at a requirement that changes nothing, and every turn that is open is a step.
-/
namespace Switchyard

/-- Without the mark of what a blocked task has looked at, and when. -/
def Phase.unparked : Phase → Phase
  | .blocked pending _ => .blocked pending none
  | p => p

/-- What a task finds around itself. -/
structure Surroundings where
  now : Nat
  backoff : Backoff
  /-- The task is asked to stop, alone or together with all. -/
  cancelled : Bool
  /-- The latest registration of the first requirement still to be met has ever been ready. -/
  met : Bool

/-- What becomes of a task in one step, what is told of it, and, if it was the last step, the error it failed with. -/
structure Change where
  task : Task
  told : List Event := []
  ending : Option (Option TaskError) := none

namespace Task

def unparked (t : Task) : Task := { t with phase := t.phase.unparked }

def block (t : Task) : Change where
  task := { t with state := .blocked, phase := .blocked t.worker.requires none }
  told := [.blocked t.name]

/-- The next attempt begins. -/
def start (t : Task) : Change := { task := t.begun, told := t.beginning }

/-- A requirement is met, and these are left. -/
def pass (t : Task) (rest : List String) : Change :=
  if rest.isEmpty then t.start else { task := { t with phase := .blocked rest none } }

/-- The request to stop is noticed while the work goes on. -/
def surface (t : Task) : Change where
  task := { t with state := .shuttingDown, phase := .stopping }
  told := [.shuttingDown t.name]

/-- The work is over. -/
def leave (t : Task) (e : Ending) : Change := { task := { t with phase := .draining e.outcome } }

/-- The task ends after what has been told. -/
def finish (t : Task) (told : List Event) (error : Option TaskError) : Change where
  task := t.ended
  told := told ++ [.terminated t.name]
  ending := some error

/-- After an attempt that came to this: the end, or a delay before the next one. -/
def close (x : Surroundings) (t : Task) : Outcome → Change
  | none => t.drained.finish [] none
  | some .canceled => t.drained.finish [] none
  | some e =>
    let failed : Event := .failed t.name t.attempt e.message
    if !t.worker.retries || x.cancelled then t.drained.finish [failed] (some e)
    else
      let delay := x.backoff.next t.delayBefore
      { task := t.delayedBy delay (x.now + delay.ceilMillis) e
        told := [failed, .backoff t.name t.attempt (Supervisor.shownMillis delay) e.message] }

/-- The turns of the loop. To look at a requirement again is none. -/
def turn (x : Surroundings) (t : Task) : Turn → Option Change
  | .recheck => none
  | .cancel =>
    match t.phase with
    | .blocked _ _ => if x.cancelled then some (t.finish [] none) else none
    | .attempting => if x.cancelled then some t.surface else none
    | .delayed _ e => if x.cancelled then some (t.finish [] (some e)) else none
    | _ => none
  | .proceed =>
    match t.phase with
    | .created => some t.block
    | .blocked [] _ => some t.start
    | .blocked (_ :: rest) _ => if x.met then some (t.pass rest) else none
    | .attempting =>
      match t.work with
      | .ended e => if x.cancelled then none else some (t.leave e)
      | .running _ => none
    | .stopping =>
      match t.work with
      | .ended e => some (t.leave e)
      | .running _ => none
    | .draining o => if t.isDrained then some (t.close x (t.attemptResult o)) else none
    | .delayed time _ => if time ≤ x.now then some t.start else none
    | .done => none

/-- The watch over a sub-unit. -/
def watchTurn (t : Task) (j : Nat) : Option Change := do
  let u ← t.subUnits[j]?
  match u.watch, u.progress with
  | .idle, _ => some { task := t.withWatch j .watching }
  | .watching, .ended e =>
    some { task := { t.withWatch j .over with
      subUnitError := t.subUnitError <|> e.outcome.filter (!·.isCanceled) } }
  | _, _ => none

end Task

namespace Supervisor

def surroundings (s : Supervisor) (t : Task) : Surroundings where
  now := s.now
  backoff := s.backoff
  cancelled := s.shuttingDown || t.stopRequested
  met :=
    match t.phase with
    | .blocked (r :: _) _ => (s.lookupTask r).any (·.everReady)
    | _ => false

def apply (s : Supervisor) (i : TaskId) (c : Change) : Supervisor :=
  match c.ending with
  | none => s.amend i c.task c.told
  | some error => (s.amend i c.task c.told).retire i (error.map (⟨c.task.name, ·⟩))

variable {s s' : Supervisor} {i : TaskId} {t : Task} {x : Surroundings}

theorem startAttempt_apply (h : s.task? i = some t) : s.startAttempt i = s.apply i t.start := by
  have started : (s.amend i t []).startAttempt i = _ := startAttempt_amend (lt_of_task? h)
  rw [amend_nil h] at started
  exact started

theorem terminate_apply (h : s.task? i = some t) (error : Option TaskError) :
    s.terminate i error = s.apply i (t.finish [] error) :=
  terminate_eq h error

theorem terminate_amend_apply (h : i < s.tasks.length) {es : List Event} (error : Option TaskError) :
    (s.amend i t es).terminate i error = s.apply i (t.finish es error) :=
  terminate_amend h error

theorem afterFailure_apply (h : s.task? i = some t) {e : TaskError} (error : e ≠ .canceled) :
    (s.amend i t.drained []).afterFailure i t t.delayBefore e = s.apply i (t.close (s.surroundings t) (some e)) := by
  have hi := lt_of_task? h
  have same : t.drained.stopRequested = t.stopRequested := rfl
  have cancelled (es : List Event) : (s.amend i t.drained es).isCancelled i = (s.shuttingDown || t.stopRequested) :=
    (isCancelled_amend h same).trans (isCancelled_of_task? h)
  have close : t.close (s.surroundings t) (some e) =
      if !t.worker.retries || (s.shuttingDown || t.stopRequested) then
        t.drained.finish [.failed t.name t.attempt e.message] (some e)
      else
        { task := t.delayedBy (s.backoff.next t.delayBefore) (s.now + (s.backoff.next t.delayBefore).ceilMillis) e
          told := [.failed t.name t.attempt e.message,
            .backoff t.name t.attempt (shownMillis (s.backoff.next t.delayBefore)) e.message] } := by
    cases e with
    | canceled => exact absurd rfl error
    | _ => rfl
  simp only [afterFailure, publishFor_amend hi, cancelled, close]
  split
  next => exact terminate_amend_apply hi (some e)
  next =>
    rw [modifyTask_amend hi, transition_amend hi, setPhase_amend hi]
    rfl

theorem finishAttempt_apply (h : s.task? i = some t) (o : Outcome) :
    s.finishAttempt i o = s.apply i (t.close (s.surroundings t) (t.attemptResult o)) := by
  simp only [finishAttempt, h, modifyTask_eq h]
  cases t.attemptResult o with
  | none => exact terminate_amend_apply (lt_of_task? h) none
  | some e =>
    cases e with
    | canceled => exact terminate_amend_apply (lt_of_task? h) none
    | fail reason => exact afterFailure_apply h (by simp)
    | panicked reason => exact afterFailure_apply h (by simp)

theorem requirementMet_apply (h : s.task? i = some t) (rest : List String) :
    s.requirementMet i rest = s.apply i (t.pass rest) := by
  unfold requirementMet Task.pass
  split
  next => exact startAttempt_apply h
  next => exact modifyTask_eq h _

theorem watchStep_apply (h : s.task? i = some t) (j : Nat) : s.watchStep i j = (t.watchTurn j).map (s.apply i) := by
  simp only [watchStep, h, Task.watchTurn, Option.bind_eq_bind, Option.bind_some]
  cases t.subUnits[j]? with
  | none => rfl
  | some u =>
    obtain ⟨progress, watch⟩ := u
    cases watch with
    | idle => exact congrArg some (modifyTask_eq h _)
    | watching =>
      cases progress with
      | running w => rfl
      | ended e => exact congrArg some (modifyTask_eq h _)
    | _ => rfl

/-- The requirement ahead has been ready as its wait began, or as it was looked up. -/
theorem surroundings_met (s : Supervisor) {r : String} {rest : List String} {parked : Option Parked}
    (blocked : t.phase = .blocked (r :: rest) parked) :
    (s.surroundings t).met = (s.lookup r).any s.everReady := by
  have met : (s.surroundings t).met = (s.lookupTask r).any (·.everReady) := by
    rw [surroundings, blocked]
  rw [met, lookupTask]
  cases s.lookup r with
  | none => rfl
  | some j => rfl

/-- What a blocked task waits for is what the registry leads to, or has ended without ever having been ready. -/
def Faithful (s : Supervisor) (t : Task) : Prop :=
  ∀ r rest p j, t.phase = .blocked (r :: rest) (some p) → p.on = some j →
    s.lookup r = some j ∨ s.everReady j = false ∧ s.isTerminated j = true

/-- A look at a requirement that is not met. -/
def Looks (s : Supervisor) (i : TaskId) (t : Task) (s' : Supervisor) : Prop :=
  ∃ pending parked parked', t.phase = .blocked pending parked ∧
    s' = s.amend i { t with phase := .blocked pending parked' } [] ∧
    ∀ p j, parked' = some p → p.on = some j → ∃ r rest, pending = r :: rest ∧ s.lookup r = some j

theorem examine_local (h : s.task? i = some t) {pending : List String} {parked : Option Parked}
    (blocked : t.phase = .blocked pending parked) :
    (∃ c, t.turn (s.surroundings t) .proceed = some c ∧ s.examine i pending = s.apply i c) ∨
      s.Looks i t (s.examine i pending) := by
  cases pending with
  | nil =>
    left
    refine ⟨t.start, ?_, startAttempt_apply h⟩
    simp only [Task.turn, blocked]
  | cons r rest =>
    have met := s.surroundings_met blocked
    cases found : s.lookup r with
    | none =>
      right
      refine ⟨_, _, some ⟨none, s.registered⟩, blocked, ?_, ?_⟩
      · simp only [examine, found, setPhase, modifyTask_eq h]
      · intro p j parks on
        cases parks
        cases on
    | some k =>
      by_cases ready : s.everReady k = true
      · left
        refine ⟨t.pass rest, ?_, ?_⟩
        · simp only [Task.turn, blocked, met, found, Option.any_some, ready, if_true]
        · simp only [examine, found, ready, if_true]
          exact requirementMet_apply h rest
      · right
        refine ⟨_, _, some ⟨some k, s.registered⟩, blocked, ?_, ?_⟩
        · simp only [examine, found, ready, setPhase, modifyTask_eq h]
          rfl
        · intro p j parks on
          cases parks
          cases on
          exact ⟨r, rest, rfl, found⟩

/-- Every step of the loop is a turn of the task alone, or a look at what is not there yet. -/
theorem actorStep_local (h : s.task? i = some t) {turn : Turn} (step : s.actorStep i turn = some s') :
    (∃ x turn' c, (s.Faithful t → x = s.surroundings t) ∧ t.turn x turn' = some c ∧ s' = s.apply i c) ∨
      s.Looks i t s' := by
  have examined {pending : List String} {parked : Option Parked} (blocked : t.phase = .blocked pending parked) :
      (∃ x turn' c, (s.Faithful t → x = s.surroundings t) ∧ t.turn x turn' = some c ∧
        s.examine i pending = s.apply i c) ∨ s.Looks i t (s.examine i pending) := by
    rcases examine_local h blocked with ⟨c, turns, examined⟩ | looks
    · exact .inl ⟨_, _, c, fun _ => rfl, turns, examined⟩
    · exact .inr looks
  have cancelled : s.isCancelled i = (s.surroundings t).cancelled := isCancelled_of_task? h
  obtain ⟨_, ht, opens⟩ := Option.bind_eq_some_iff.1 step
  clear step
  cases h.symm.trans ht
  split at opens
  case h_1 created =>
    cases opens
    refine .inl ⟨s.surroundings t, .proceed, t.block, fun _ => rfl, ?_, ?_⟩
    · simp only [Task.turn, created]
    · rw [transition_eq h, setPhase_amend (lt_of_task? h)]
      rfl
  case h_2 pending blocked =>
    cases opens
    exact examined blocked
  case h_3 r rest p blocked =>
    obtain ⟨ready, opens⟩ := Option.ite_none_right_eq_some.1 opens
    cases opens
    obtain ⟨j, on, ready⟩ := (Option.any_eq_true _ _).1 ready
    refine .inl ⟨{ s.surroundings t with met := true }, .proceed, _, fun faithful => ?_, ?_, requirementMet_apply h rest⟩
    · have met := s.surroundings_met blocked
      rcases faithful r rest p j blocked on with found | ⟨unready, -⟩
      · rw [found, Option.any_some, ready] at met
        rw [← met]
      · exact absurd (ready.symm.trans unready) nofun
    · simp only [Task.turn, blocked, if_true]
  case h_4 pending p blocked =>
    obtain ⟨_, opens⟩ := Option.ite_none_right_eq_some.1 opens
    cases opens
    exact examined blocked
  case h_5 pending parked blocked =>
    obtain ⟨stop, opens⟩ := Option.ite_none_right_eq_some.1 opens
    cases opens
    refine .inl ⟨s.surroundings t, .cancel, t.finish [] none, fun _ => rfl, ?_, terminate_apply h none⟩
    simp only [Task.turn, blocked, ← cancelled, stop, if_true]
  case h_6 attempting =>
    obtain ⟨stop, opens⟩ := Option.ite_none_right_eq_some.1 opens
    cases opens
    refine .inl ⟨s.surroundings t, .cancel, t.surface, fun _ => rfl, ?_, ?_⟩
    · simp only [Task.turn, attempting, ← cancelled, stop, if_true]
    · rw [transition_eq h, setPhase_amend (lt_of_task? h)]
      rfl
  case h_7 attempting =>
    split at opens
    next e work =>
      obtain ⟨alive, opens⟩ := Option.ite_none_left_eq_some.1 opens
      cases opens
      refine .inl ⟨s.surroundings t, .proceed, t.leave e, fun _ => rfl, ?_, modifyTask_eq h _⟩
      simp only [Task.turn, attempting, work, ← cancelled]
      exact if_neg alive
    next => cases opens
  case h_8 stopping =>
    split at opens
    next e work =>
      cases opens
      refine .inl ⟨s.surroundings t, .proceed, t.leave e, fun _ => rfl, ?_, modifyTask_eq h _⟩
      simp only [Task.turn, stopping, work]
    next => cases opens
  case h_9 o draining =>
    obtain ⟨drained, opens⟩ := Option.ite_none_right_eq_some.1 opens
    cases opens
    refine .inl ⟨s.surroundings t, .proceed, _, fun _ => rfl, ?_, finishAttempt_apply h o⟩
    simp only [Task.turn, draining, drained, if_true]
  case h_10 time error delayed =>
    obtain ⟨due, opens⟩ := Option.ite_none_right_eq_some.1 opens
    cases opens
    refine .inl ⟨s.surroundings t, .proceed, t.start, fun _ => rfl, ?_, startAttempt_apply h⟩
    simp only [Task.turn, delayed]
    exact if_pos due
  case h_11 time error delayed =>
    obtain ⟨stop, opens⟩ := Option.ite_none_right_eq_some.1 opens
    cases opens
    refine .inl ⟨s.surroundings t, .cancel, t.finish [] (some error), fun _ => rfl, ?_, terminate_apply h _⟩
    simp only [Task.turn, delayed, ← cancelled, stop, if_true]
  case h_12 => cases opens

/-- A requirement that has been ready is found so, at once or after looking it up again. -/
theorem exists_actorStep_pass (h : s.task? i = some t) (watching : Watching s t) {r : String} {rest : List String}
    {parked : Option Parked} (blocked : t.phase = .blocked (r :: rest) parked)
    (met : (s.surroundings t).met = true) : ∃ turn, s.actorStep i turn = some (s.apply i (t.pass rest)) := by
  rw [s.surroundings_met blocked] at met
  obtain ⟨j, found, ready⟩ := (Option.any_eq_true _ _).1 met
  have examined : s.examine i (r :: rest) = s.apply i (t.pass rest) := by
    simp only [examine, found, ready, if_true]
    exact requirementMet_apply h rest
  cases parked with
  | none =>
    refine ⟨.proceed, ?_⟩
    simp only [actorStep, h, blocked, Option.bind_eq_bind, Option.bind_some]
    exact congrArg some examined
  | some p =>
    by_cases seen : p.seen = s.registered
    · obtain ⟨_, held⟩ := watching _ _ blocked
      obtain ⟨r', rest', same, _, current⟩ := held p rfl
      cases same
      have on : p.on = some j := (current seen).symm.trans found
      refine ⟨.proceed, ?_⟩
      simp only [actorStep, h, blocked, Option.bind_eq_bind, Option.bind_some, on, Option.any_some, ready, if_true]
      exact congrArg some (requirementMet_apply h rest)
    · refine ⟨.recheck, ?_⟩
      simp only [actorStep, h, blocked, Option.bind_eq_bind, Option.bind_some]
      rw [if_pos (Ne.symm seen), examined]

/-- A turn that is open is a step, if need be after looking up a requirement again. -/
theorem actorStep_of_turn (h : s.task? i = some t) (watching : Watching s t) {turn : Turn} {c : Change}
    (turns : t.turn (s.surroundings t) turn = some c) : ∃ turn', s.actorStep i turn' = some (s.apply i c) := by
  have cancelled : s.isCancelled i = (s.surroundings t).cancelled := isCancelled_of_task? h
  cases turn with
  | recheck => cases turns
  | cancel =>
    refine ⟨.cancel, ?_⟩
    cases phase : t.phase with
    | blocked pending parked =>
      simp only [Task.turn, phase] at turns
      obtain ⟨stop, turns⟩ := Option.ite_none_right_eq_some.1 turns
      cases turns
      have opens : s.actorStep i .cancel = some (s.terminate i none) := by
        cases parked <;> simp [actorStep, h, phase, cancelled, stop]
      rw [opens, terminate_apply h]
    | attempting =>
      simp only [Task.turn, phase] at turns
      obtain ⟨stop, turns⟩ := Option.ite_none_right_eq_some.1 turns
      cases turns
      simp only [actorStep, h, phase, Option.bind_eq_bind, Option.bind_some, cancelled, stop, if_true]
      rw [transition_eq h, setPhase_amend (lt_of_task? h)]
      rfl
    | delayed time e =>
      simp only [Task.turn, phase] at turns
      obtain ⟨stop, turns⟩ := Option.ite_none_right_eq_some.1 turns
      cases turns
      simp only [actorStep, h, phase, Option.bind_eq_bind, Option.bind_some, cancelled, stop, if_true]
      rw [terminate_apply h]
    | _ => simp [Task.turn, phase] at turns
  | proceed =>
    cases phase : t.phase with
    | created =>
      simp only [Task.turn, phase] at turns
      cases turns
      refine ⟨.proceed, ?_⟩
      simp only [actorStep, h, phase, Option.bind_eq_bind, Option.bind_some]
      rw [transition_eq h, setPhase_amend (lt_of_task? h)]
      rfl
    | blocked pending parked =>
      cases pending with
      | nil =>
        simp only [Task.turn, phase] at turns
        cases turns
        cases parked with
        | none =>
          refine ⟨.proceed, ?_⟩
          simp only [actorStep, h, phase, Option.bind_eq_bind, Option.bind_some]
          exact congrArg some (startAttempt_apply h)
        | some p =>
          obtain ⟨_, held⟩ := watching _ _ phase
          obtain ⟨r, rest, same, _⟩ := held p rfl
          cases same
      | cons r rest =>
        simp only [Task.turn, phase] at turns
        obtain ⟨met, turns⟩ := Option.ite_none_right_eq_some.1 turns
        cases turns
        exact exists_actorStep_pass h watching phase met
    | attempting =>
      simp only [Task.turn, phase] at turns
      split at turns
      next e work =>
        obtain ⟨alive, turns⟩ := Option.ite_none_left_eq_some.1 turns
        cases turns
        refine ⟨.proceed, ?_⟩
        simp only [actorStep, h, phase, Option.bind_eq_bind, Option.bind_some, work, cancelled]
        rw [if_neg alive]
        exact congrArg some (modifyTask_eq h _)
      next => cases turns
    | stopping =>
      simp only [Task.turn, phase] at turns
      split at turns
      next e work =>
        cases turns
        refine ⟨.proceed, ?_⟩
        simp only [actorStep, h, phase, Option.bind_eq_bind, Option.bind_some, work]
        exact congrArg some (modifyTask_eq h _)
      next => cases turns
    | draining o =>
      simp only [Task.turn, phase] at turns
      obtain ⟨drained, turns⟩ := Option.ite_none_right_eq_some.1 turns
      cases turns
      refine ⟨.proceed, ?_⟩
      simp only [actorStep, h, phase, Option.bind_eq_bind, Option.bind_some, drained, if_true]
      exact congrArg some (finishAttempt_apply h o)
    | delayed time e =>
      simp only [Task.turn, phase] at turns
      obtain ⟨due, turns⟩ := Option.ite_none_right_eq_some.1 turns
      cases turns
      refine ⟨.proceed, ?_⟩
      simp only [actorStep, h, phase, Option.bind_eq_bind, Option.bind_some]
      rw [if_pos (show time ≤ s.now from due)]
      exact congrArg some (startAttempt_apply h)
    | done => simp [Task.turn, phase] at turns

end Supervisor

end Switchyard
