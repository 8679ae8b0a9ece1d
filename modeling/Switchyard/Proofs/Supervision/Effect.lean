import Switchyard.Proofs.Supervision.Amendment
import Switchyard.Proofs.Supervision.Course

/-!
What a move does, told from the one registration that it touches. `act_plain` is the only place that opens the
steps of the supervisor; everything else is by cases on the rules below.
-/
namespace Switchyard

namespace Task

/-- A unit of the current attempt; a sub-unit counts once it has been started. -/
def unit? (t : Task) : Option Nat → Option Progress
  | none => some t.work
  | some j => t.subUnits[j]?.bind fun u => if u.watch = .idle then none else some u.progress

def withUnit (t : Task) (sub : Option Nat) (p : Progress) : Task :=
  match sub with
  | none => { t with work := p }
  | some j => { t with subUnits := t.subUnits.modify j ({ · with progress := p }) }

def withWatch (t : Task) (j : Nat) (w : Watch) : Task :=
  { t with subUnits := t.subUnits.modify j ({ · with watch := w }) }

def readied (t : Task) : Task := { t with state := .ready, readyInAttempt := true, everReady := true }

/-- As an attempt begins. -/
def begun (t : Task) : Task :=
  { t with
    attempt := t.attempt + 1
    state := if t.worker.readiness = .onStart then .ready else .running
    readyInAttempt := t.readyInAttempt || t.worker.readiness = .onStart
    everReady := t.everReady || t.worker.readiness = .onStart
    phase := .attempting
    work := .running (.script (t.worker.script t.attempt))
    subUnits := []
    subUnitError := none }

def drained (t : Task) : Task := { t with readyInAttempt := false, delay := t.delayBefore }

def delayedBy (t : Task) (delay : Duration) (until_ : Nat) (e : TaskError) : Task :=
  { t.drained with delay := some delay, state := .retrying, phase := .delayed until_ e }

def ended (t : Task) : Task := { t with state := .terminated, phase := .done }

/-- What the start of an attempt tells. -/
def beginning (t : Task) : List Event :=
  Course.attempt t.name (t.attempt + 1) { ready := t.worker.readiness = .onStart }

end Task

namespace Supervisor

/-- A requirement is met if its latest registration, or the one waited for, has ever been ready. -/
def Met (s : Supervisor) (r : String) (parked : Option Parked) : Prop :=
  ∃ j, s.everReady j = true ∧ (s.lookup r = some j ∨ ∃ p, parked = some p ∧ p.on = some j)

/-- The waits that an attempt may follow. -/
inductive Unblocked (s : Supervisor) : Phase → Prop
  | free {parked : Option Parked} : Unblocked s (.blocked [] parked)
  | met {r : String} {parked : Option Parked} (met : s.Met r parked) : Unblocked s (.blocked [r] parked)
  | due {time : Nat} {e : TaskError} (h : time ≤ s.now) : Unblocked s (.delayed time e)

/-- How registration `i`, which stands at `t`, may go on, and what is told of it. -/
inductive Goes (s : Supervisor) (i : TaskId) (t : Task) : Task → List Event → Prop
  | block (h : t.phase = .created) :
      Goes s i t { t with state := .blocked, phase := .blocked t.worker.requires none } [.blocked t.name]
  | pass {r : String} {rest : List String} {parked : Option Parked}
      (h : t.phase = .blocked (r :: rest) parked) (met : s.Met r parked) :
      Goes s i t { t with phase := .blocked rest none } []
  | park {r : String} {rest : List String} {parked : Option Parked}
      (h : t.phase = .blocked (r :: rest) parked) (unmet : ∀ j, s.lookup r = some j → s.everReady j = false) :
      Goes s i t { t with phase := .blocked (r :: rest) (some ⟨s.lookup r, s.registered⟩) } []
  | start (h : s.Unblocked t.phase) : Goes s i t t.begun t.beginning
  | surface (h : t.phase = .attempting) (stop : s.isCancelled i = true) :
      Goes s i t { t with state := .shuttingDown, phase := .stopping } [.shuttingDown t.name]
  | leave {e : Ending} (h : t.phase = .attempting ∧ s.isCancelled i = false ∨ t.phase = .stopping)
      (work : t.work = .ended e) : Goes s i t { t with phase := .draining e.outcome } []
  | retry {o : Outcome} {e : TaskError} (h : t.phase = .draining o) (drained : t.isDrained = true)
      (result : t.attemptResult o = some e) (error : e ≠ .canceled) (retries : t.worker.retries = true)
      (alive : s.isCancelled i = false) :
      Goes s i t (t.delayedBy (s.backoff.next t.delayBefore) (s.now + (s.backoff.next t.delayBefore).ceilMillis) e)
        [.failed t.name t.attempt e.message,
          .backoff t.name t.attempt (shownMillis (s.backoff.next t.delayBefore)) e.message]
  | attend {j : Nat} {u : SubUnit} (h : t.subUnits[j]? = some u) (idle : u.watch = .idle) :
      Goes s i t (t.withWatch j .watching) []
  | note {j : Nat} {u : SubUnit} {e : Ending} (h : t.subUnits[j]? = some u) (watching : u.watch = .watching)
      (finished : u.progress = .ended e) :
      Goes s i t { t.withWatch j .over with subUnitError := t.subUnitError <|> e.outcome.filter (!·.isCanceled) } []
  | stop : Goes s i t { t with stopRequested := true } []
  | ready {sub : Option Nat} {w : Work} (h : t.unit? sub = some (.running w)) (running : t.state = .running) :
      Goes s i t t.readied [.ready t.name]
  | spawn {sub : Option Nat} {w : Work} (h : t.unit? sub = some (.running w)) (script : Script) :
      Goes s i t { t with subUnits := t.subUnits ++ [{ progress := .running (.script script) }] } []
  | work {sub : Option Nat} {w : Work} (h : t.unit? sub = some (.running w)) (p : Progress) :
      Goes s i t (t.withUnit sub p) []

/-- How registration `i`, which stands at `t`, may come to its end, and the error it has failed with. -/
inductive Ends (s : Supervisor) (i : TaskId) (t : Task) : Task → List Event → Option TaskError → Prop
  | unstarted {pending : List String} {parked : Option Parked} (h : t.phase = .blocked pending parked)
      (stop : s.isCancelled i = true) : Ends s i t t.ended [.terminated t.name] none
  | undelayed {time : Nat} {e : TaskError} (h : t.phase = .delayed time e) (stop : s.isCancelled i = true) :
      Ends s i t t.ended [.terminated t.name] (some e)
  | finish {o : Outcome} (h : t.phase = .draining o) (drained : t.isDrained = true)
      (result : t.attemptResult o = none ∨ t.attemptResult o = some .canceled) :
      Ends s i t t.drained.ended [.terminated t.name] none
  | fail {o : Outcome} {e : TaskError} (h : t.phase = .draining o) (drained : t.isDrained = true)
      (result : t.attemptResult o = some e) (error : e ≠ .canceled)
      (final : t.worker.retries = false ∨ s.isCancelled i = true) :
      Ends s i t t.drained.ended [.failed t.name t.attempt e.message, .terminated t.name] (some e)

/-- Everything that can become of a supervisor in one move. -/
inductive Effect (s : Supervisor) : Supervisor → Prop
  | goes {i : TaskId} {t t' : Task} {es : List Event} (h : s.task? i = some t) (g : Goes s i t t' es) :
      Effect s (s.amend i t' es)
  | ends {i : TaskId} {t t' : Task} {es : List Event} {error : Option TaskError} (h : s.task? i = some t)
      (e : Ends s i t t' es error) : Effect s ((s.amend i t' es).retire i (error.map (⟨t.name, ·⟩)))
  | supervise {w : Worker Action} {s' : Supervisor} (h : s.supervise w = .ok s') : Effect s s'
  | shutdown (h : s.shuttingDown = false) : Effect s s.shutdown
  | aside {time : Nat} (h : s.now ≤ time) (mailboxes : List Mailbox) :
      Effect s { s with now := time, mailboxes }

/-- What can become of a supervisor when nobody touches a mailbox but by telling of something. -/
inductive Plain (s : Supervisor) : Supervisor → Prop
  | goes {i : TaskId} {t t' : Task} {es : List Event} (h : s.task? i = some t) (g : Goes s i t t' es) :
      Plain s (s.amend i t' es)
  | ends {i : TaskId} {t t' : Task} {es : List Event} {error : Option TaskError} (h : s.task? i = some t)
      (e : Ends s i t t' es error) : Plain s ((s.amend i t' es).retire i (error.map (⟨t.name, ·⟩)))
  | supervise {w : Worker Action} {s' : Supervisor} (h : s.supervise w = .ok s') : Plain s s'
  | shutdown (h : s.shuttingDown = false) : Plain s s.shutdown
  | clock {time : Nat} (h : s.now ≤ time) : Plain s { s with now := time }

variable {s s' : Supervisor} {i : TaskId} {t t' : Task} {es : List Event}

theorem Plain.effect (p : Plain s s') : Effect s s' := by
  cases p with
  | goes h g => exact .goes h g
  | ends h e => exact .ends h e
  | supervise h => exact .supervise h
  | shutdown h => exact .shutdown h
  | clock h => exact .aside h s.mailboxes

theorem Goes.worker (g : Goes s i t t' es) : t'.worker = t.worker := by
  cases g with
  | @work sub => cases sub <;> rfl
  | _ => rfl

theorem Ends.worker {error : Option TaskError} (e : Ends s i t t' es error) : t'.worker = t.worker := by
  cases e <;> rfl

/-- A request to stop is never taken back. -/
theorem Goes.stopRequested (g : Goes s i t t' es) (h : t.stopRequested = true) : t'.stopRequested = true := by
  cases g with
  | @work sub => cases sub <;> exact h
  | stop => rfl
  | _ => exact h

theorem Ends.stopRequested {error : Option TaskError} (e : Ends s i t t' es error) (h : t.stopRequested = true) :
    t'.stopRequested = true := by
  cases e <;> exact h

theorem Goes.done_iff (g : Goes s i t t' es) : t'.phase = .done ↔ t.phase = .done := by
  cases g with
  | start unblocked =>
    refine ⟨nofun, fun done => ?_⟩
    rw [done] at unblocked
    cases unblocked
  | leave h =>
    refine ⟨nofun, fun done => ?_⟩
    rw [done] at h
    exact h.elim (fun h => nomatch h.1) nofun
  | block h => exact ⟨nofun, fun done => nomatch h.symm.trans done⟩
  | pass h => exact ⟨nofun, fun done => nomatch h.symm.trans done⟩
  | park h => exact ⟨nofun, fun done => nomatch h.symm.trans done⟩
  | surface h => exact ⟨nofun, fun done => nomatch h.symm.trans done⟩
  | retry h => exact ⟨nofun, fun done => nomatch h.symm.trans done⟩
  | @work sub => cases sub <;> exact Iff.rfl
  | _ => exact Iff.rfl

/-- A task comes to its end once. -/
theorem Ends.not_done {error : Option TaskError} (e : Ends s i t t' es error) : t.phase ≠ .done := by
  intro done
  cases e with
  | unstarted h => exact absurd (h.symm.trans done) nofun
  | undelayed h => exact absurd (h.symm.trans done) nofun
  | finish h => exact absurd (h.symm.trans done) nofun
  | fail h => exact absurd (h.symm.trans done) nofun

theorem Ends.done {error : Option TaskError} (e : Ends s i t t' es error) :
    t'.phase = .done ∧ t'.state = .terminated := by
  cases e <;> exact ⟨rfl, rfl⟩

theorem startAttempt_amend (h : i < s.tasks.length) :
    (s.amend i t es).startAttempt i = s.amend i t.begun (es ++ t.beginning) := by
  simp only [startAttempt, task?_amend_self h, modifyTask_amend h, transition_amend h]
  by_cases onStart : t.worker.readiness = .onStart
  · simp [onStart, markReady_amend h, modifyTask_amend h, Task.begun, Task.beginning, Course.attempt, Event.starting,
      Event.running, Event.ready, Task.name]
  · simp [onStart, modifyTask_amend h, Task.begun, Task.beginning, Course.attempt, Event.starting, Event.running,
      Task.name]

theorem isCancelled_amend (h : s.task? i = some t) {t' : Task} (same : t'.stopRequested = t.stopRequested) :
    (s.amend i t' es).isCancelled i = s.isCancelled i := by
  rw [isCancelled_of_task? (task?_amend_self (lt_of_task? h)), isCancelled_of_task? h, shuttingDown_amend, same]

theorem afterFailure_plain (h : s.task? i = some t) {o : Outcome} {e : TaskError} (draining : t.phase = .draining o)
    (drained : t.isDrained = true) (result : t.attemptResult o = some e) (error : e ≠ .canceled) :
    Plain s ((s.amend i t.drained []).afterFailure i t t.delayBefore e) := by
  have hi := lt_of_task? h
  have cancelled (es : List Event) : (s.amend i t.drained es).isCancelled i = s.isCancelled i :=
    isCancelled_amend h rfl
  simp only [afterFailure, publishFor_amend hi, cancelled, List.nil_append]
  by_cases final : t.worker.retries = false ∨ s.isCancelled i = true
  · rw [if_pos (by simpa using final), terminate_amend hi]
    have finished := Plain.ends h (.fail draining drained result error final)
    exact finished
  · have retry : t.worker.retries = true ∧ s.isCancelled i = false := by simpa using final
    rw [if_neg (by simpa using final), modifyTask_amend hi, transition_amend hi, setPhase_amend hi]
    have goes := Plain.goes h (.retry draining drained result error retry.1 retry.2)
    exact goes

theorem finishAttempt_plain (h : s.task? i = some t) {o : Outcome} (draining : t.phase = .draining o)
    (drained : t.isDrained = true) : Plain s (s.finishAttempt i o) := by
  have hi := lt_of_task? h
  simp only [finishAttempt, h, modifyTask_eq h]
  split
  next result =>
    rw [terminate_amend hi]
    have finished := Plain.ends h (.finish draining drained (.inl result))
    exact finished
  next result =>
    rw [terminate_amend hi]
    have finished := Plain.ends h (.finish draining drained (.inr result))
    exact finished
  next e error result =>
    exact afterFailure_plain h draining drained result (fun hc => error (hc ▸ rfl))

theorem startAttempt_plain (h : s.task? i = some t) (unblocked : s.Unblocked t.phase) :
    Plain s (s.startAttempt i) := by
  have started : (s.amend i t []).startAttempt i = _ := startAttempt_amend (lt_of_task? h)
  rw [amend_nil h] at started
  rw [started]
  exact .goes h (.start unblocked)

theorem requirementMet_plain (h : s.task? i = some t) {r : String} {rest : List String} {parked : Option Parked}
    (blocked : t.phase = .blocked (r :: rest) parked) (met : s.Met r parked) :
    Plain s (s.requirementMet i rest) := by
  unfold requirementMet
  cases rest with
  | nil => exact startAttempt_plain h (by rw [blocked]; exact .met met)
  | cons r' rest =>
    rw [List.isEmpty_cons, if_neg Bool.false_ne_true, setPhase, modifyTask_eq h]
    exact .goes h (.pass blocked met)

theorem examine_plain (h : s.task? i = some t) {pending : List String} {parked : Option Parked}
    (blocked : t.phase = .blocked pending parked) : Plain s (s.examine i pending) := by
  cases pending with
  | nil => exact startAttempt_plain h (by rw [blocked]; exact .free)
  | cons r rest =>
    cases found : s.lookup r with
    | none =>
      simp only [examine, found, setPhase, modifyTask_eq h]
      have parks := Plain.goes h (.park blocked fun j hj => by simp [found] at hj)
      rwa [found] at parks
    | some j =>
      simp only [examine, found]
      by_cases ready : s.everReady j = true
      · rw [if_pos ready]
        exact requirementMet_plain h blocked ⟨j, ready, .inl found⟩
      · rw [if_neg ready, setPhase, modifyTask_eq h]
        have parks := Plain.goes h (.park blocked fun k hk => by
          rw [found, Option.some.injEq] at hk
          simpa [hk] using ready)
        rwa [found] at parks

theorem actorStep_plain {turn : Turn} (step : s.actorStep i turn = some s') : Plain s s' := by
  obtain ⟨t, ht, h⟩ := Option.bind_eq_some_iff.1 step
  clear step
  split at h
  case h_1 created =>
    cases h
    rw [transition_eq ht, setPhase_amend (lt_of_task? ht)]
    exact .goes ht (.block created)
  case h_2 pending blocked =>
    cases h
    exact examine_plain ht blocked
  case h_3 r rest p blocked =>
    obtain ⟨ready, h⟩ := Option.ite_none_right_eq_some.1 h
    cases h
    obtain ⟨j, on, ready⟩ := (Option.any_eq_true _ _).1 ready
    exact requirementMet_plain ht blocked ⟨j, ready, .inr ⟨p, rfl, on⟩⟩
  case h_4 pending p blocked =>
    obtain ⟨_, h⟩ := Option.ite_none_right_eq_some.1 h
    cases h
    exact examine_plain ht blocked
  case h_5 pending parked blocked =>
    obtain ⟨stop, h⟩ := Option.ite_none_right_eq_some.1 h
    cases h
    rw [terminate_eq ht]
    exact .ends ht (.unstarted blocked stop)
  case h_6 attempting =>
    obtain ⟨stop, h⟩ := Option.ite_none_right_eq_some.1 h
    cases h
    rw [transition_eq ht, setPhase_amend (lt_of_task? ht)]
    exact .goes ht (.surface attempting stop)
  case h_7 attempting =>
    split at h
    next e work =>
      obtain ⟨alive, h⟩ := Option.ite_none_left_eq_some.1 h
      cases h
      rw [setPhase, modifyTask_eq ht]
      exact .goes ht (.leave (.inl ⟨attempting, by simpa using alive⟩) work)
    next => cases h
  case h_8 stopping =>
    split at h
    next e work =>
      cases h
      rw [setPhase, modifyTask_eq ht]
      exact .goes ht (.leave (.inr stopping) work)
    next => cases h
  case h_9 o draining =>
    obtain ⟨drained, h⟩ := Option.ite_none_right_eq_some.1 h
    cases h
    exact finishAttempt_plain ht draining drained
  case h_10 time error delayed =>
    obtain ⟨due, h⟩ := Option.ite_none_right_eq_some.1 h
    cases h
    exact startAttempt_plain ht (by rw [delayed]; exact .due due)
  case h_11 time error delayed =>
    obtain ⟨stop, h⟩ := Option.ite_none_right_eq_some.1 h
    cases h
    rw [terminate_eq ht]
    exact .ends ht (.undelayed delayed stop)
  case h_12 => cases h

theorem watchStep_plain {j : Nat} (step : s.watchStep i j = some s') : Plain s s' := by
  obtain ⟨t, ht, h⟩ := Option.bind_eq_some_iff.1 step
  obtain ⟨u, hu, h⟩ := Option.bind_eq_some_iff.1 h
  clear step
  split at h
  next idle =>
    cases h
    rw [modifyTask_eq ht]
    exact .goes ht (.attend hu idle)
  next e watching finished =>
    cases h
    rw [modifyTask_eq ht]
    exact .goes ht (.note hu watching finished)
  next => cases h

theorem progress?_eq (h : s.task? i = some t) (sub : Option Nat) : s.progress? ⟨i, sub⟩ = t.unit? sub := by
  cases sub with
  | none => simp [progress?, h, Task.unit?]
  | some j => simp [progress?, h, Task.unit?]

/-- A running unit belongs to a registration. -/
theorem task?_of_isRunning {u : UnitId} (h : s.isRunning u = true) :
    ∃ t w, s.task? u.task = some t ∧ t.unit? u.sub = some (.running w) := by
  unfold isRunning at h
  split at h
  next w running =>
    obtain ⟨t, ht, _⟩ := Option.bind_eq_some_iff.1 running
    exact ⟨t, w, ht, by rw [← progress?_eq ht]; exact running⟩
  next => cases h

theorem idle_plain (s : Supervisor) : Plain s s := .clock (Nat.le_refl _)

theorem stop_plain (name : String) : Plain s (s.stop name).2 := by
  rcases stop_cases s name with same | ⟨i, t, h, amended⟩
  · rw [same]
    exact idle_plain s
  · rw [amended]
    exact .goes h .stop

theorem markReady_plain {u : UnitId} (h : s.isRunning u = true) : Plain s (s.markReady u.task) := by
  obtain ⟨t, w, ht, unit⟩ := task?_of_isRunning h
  rcases markReady_cases s u.task with same | ⟨t', ht', running, amended⟩
  · rw [same]
    exact idle_plain s
  · cases ht.symm.trans ht'
    rw [amended]
    exact .goes ht (.ready unit running)

theorem act_plain {a : Act} (m : s.act a = some s') (plain : a.isMail = false) : Plain s s' := by
  cases a with
  | actor i turn => exact actorStep_plain m
  | watch i j => exact watchStep_plain m
  | supervise w => exact .supervise (act_supervise.1 m)
  | stop name =>
    cases m
    exact stop_plain name
  | shutdown =>
    cases m
    cases down : s.shuttingDown with
    | true =>
      rw [Supervisor.shutdown, if_pos down]
      exact idle_plain s
    | false => exact .shutdown down
  | ready u =>
    obtain ⟨running, h⟩ := Option.ite_none_right_eq_some.1 m
    cases h
    exact markReady_plain running
  | spawn u script =>
    obtain ⟨running, h⟩ := Option.ite_none_right_eq_some.1 m
    cases h
    obtain ⟨t, w, ht, running⟩ := task?_of_isRunning running
    rw [addSubUnit, modifyTask_eq ht]
    exact .goes ht (.spawn running script)
  | work u p =>
    obtain ⟨running, h⟩ := Option.ite_none_right_eq_some.1 m
    cases h
    obtain ⟨t, w, ht, running⟩ := task?_of_isRunning running
    have goes := Plain.goes ht (.work running p)
    rw [setProgress, modifyTask_eq ht]
    exact goes
  | clock time =>
    obtain ⟨later, h⟩ := Option.ite_none_right_eq_some.1 m
    cases h
    exact .clock later
  | mail => cases plain

theorem act_effect {a : Act} (m : s.act a = some s') : Effect s s' := by
  cases mail : a.isMail with
  | false => exact (act_plain m mail).effect
  | true =>
    cases a with
    | mail mailboxes =>
      cases m
      exact .aside (Nat.le_refl _) mailboxes
    | _ => cases mail

end Supervisor

end Switchyard
