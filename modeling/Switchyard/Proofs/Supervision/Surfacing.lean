import Switchyard.Proofs.Supervision.Cancellation
import Switchyard.Proofs.Supervision.Draining
import Switchyard.Proofs.Supervision.Names

/-!
How a request to stop shows. Main statement: in an attempt whose work nobody has seen to end, the request is told before
anything else that the loop tells, and the task counts as shutting down until the attempt is over; once its sub-units
are waited for, the request never shows.
-/
namespace Switchyard

namespace Task

/-- What may have been told of the readiness of `u` since, and the state that it stands at now. -/
inductive Readied (u : Task) : List Event → TaskState → Prop
  | unchanged : u.Readied [] u.state
  | ready (running : u.state = .running) : u.Readied [.ready u.name] .ready

/-- What is told at the end of the last attempt. -/
inductive Parting (u : Task) : List Event → Prop
  | clean : u.Parting [.terminated u.name]
  | failed (e : TaskError) : u.Parting [.failed u.name u.attempt e.message, .terminated u.name]

/-- What a task may do in its last attempt once it has been asked to stop, and what is told of it then. -/
inductive LateMove (t t' : Task) : List Event → Prop
  | keeps (state : t'.state = t.state) (phase : t'.phase = t.phase) : t.LateMove t' []
  | leaves (state : t'.state = t.state) (before : t.phase = .stopping) (after : t'.isDraining = true) : t.LateMove t' []
  | notices (state : t'.state = .shuttingDown) (before : t.phase = .attempting) (after : t'.phase = .stopping) :
      t.LateMove t' [.shuttingDown t.name]
  | readies (running : t.state = .running) (state : t'.state = .ready) (phase : t'.phase = t.phase) :
      t.LateMove t' [.ready t.name]

/-- What has been told since the request, which came when its task stood at `u`, and where the task stands now. Only the
first two ways lead through an attempt whose work nobody had seen to end. -/
inductive Since (u t : Task) : List Event → Prop
  | unnoticed {readies : List Event} (request : u.phase = .attempting) (readied : u.Readied readies t.state)
      (phase : t.phase = .attempting) : u.Since t readies
  | noticed {readies : List Event} {state : TaskState} (request : u.phase = .attempting)
      (readied : u.Readied readies state) (phase : t.phase = .stopping ∨ t.isDraining = true)
      (shown : t.state = .shuttingDown) : u.Since t (readies ++ [.shuttingDown u.name])
  | overlooked {readies : List Event} (request : u.isDraining = true) (readied : u.Readied readies t.state)
      (phase : t.isDraining = true) : u.Since t readies
  | closed {readies shown rest : List Event} {state : TaskState} (readied : u.Readied readies state)
      (request : u.phase = .attempting ∧ shown = [.shuttingDown u.name] ∨ u.isDraining = true ∧ shown = [])
      (phase : t.phase = .done) (terminated : t.state = .terminated) (parting : u.Parting rest) :
      u.Since t (readies ++ shown ++ rest)

variable {u t : Task} {readies : List Event} {state : TaskState}

theorem Readied.again (h : u.Readied readies state) (running : state = .running) :
    u.Readied (readies ++ [.ready u.name]) .ready := by
  cases h with
  | unchanged => exact .ready running
  | ready => cases running

theorem startsLeft_of_isDraining (h : t.isDraining = true) : t.phase.startsLeft = 0 := by
  obtain ⟨o, phase⟩ := phase_of_isDraining h
  rw [phase]
  rfl

theorem Since.last {news : List Event} (h : u.Since t news) : t.phase.startsLeft = 0 := by
  cases h with
  | unnoticed _ _ phase => rw [phase]; rfl
  | noticed _ _ phase =>
    rcases phase with phase | draining
    · rw [phase]; rfl
    · exact startsLeft_of_isDraining draining
  | overlooked _ _ draining => exact startsLeft_of_isDraining draining
  | closed _ _ phase => rw [phase]; rfl

theorem isDraining_congr {t' : Task} (same : t'.phase = t.phase) : t'.isDraining = t.isDraining := by
  rw [isDraining, isDraining, same]

end Task

namespace Supervisor

variable {s s' m m' : Supervisor} {i : TaskId} {t t' u : Task} {es news : List Event} {past : List Supervisor}
  {error : Option TaskError}

/-! ### One move of a task that has been asked to stop -/

/-- Nobody schedules a delay for a task that has been asked to stop. -/
theorem Goes.late (g : Goes s i t t' es) (stop : s.isCancelled i = true) (last : t.phase.startsLeft = 0) :
    t.LateMove t' es := by
  cases g with
  | block h => simp [h, Phase.startsLeft] at last
  | pass h => simp [h, Phase.startsLeft] at last
  | park h => simp [h, Phase.startsLeft] at last
  | start unblocked => exact absurd (unblocked.startsLeft.symm.trans last) Nat.one_ne_zero
  | surface h => exact .notices rfl h rfl
  | leave h =>
    have stopping : t.phase = .stopping := h.resolve_left fun h => absurd (stop.symm.trans h.2) Bool.noConfusion
    exact .leaves rfl stopping rfl
  | retry _ _ _ _ _ alive => exact absurd (stop.symm.trans alive) Bool.noConfusion
  | ready _ running => exact .readies running rfl rfl
  | @work sub => cases sub <;> exact .keeps rfl rfl
  | _ => exact .keeps rfl rfl

theorem Ends.of_last (d : Ends s i t t' es error) (last : t.phase.startsLeft = 0) :
    t.isDraining = true ∧ t.Parting es := by
  cases d with
  | unstarted h => simp [h, Phase.startsLeft] at last
  | undelayed h => simp [h, Phase.startsLeft] at last
  | finish h => exact ⟨by rw [Task.isDraining, h], .clean⟩
  | fail h => exact ⟨by rw [Task.isDraining, h], .failed _⟩

/-! ### What the request comes to -/

/-- The same registration, with the same attempt. -/
structure SameAttempt (u t : Task) : Prop where
  worker : t.worker = u.worker
  attempt : t.attempt = u.attempt

theorem SameAttempt.parting (same : SameAttempt u t) (h : t.Parting es) : u.Parting es := by
  have name : t.name = u.name := congrArg Worker.name same.worker
  cases h with
  | clean =>
    rw [name]
    exact .clean
  | failed e =>
    rw [name, same.attempt]
    exact .failed e

theorem Goes.since (g : Goes s i t t' es) (stop : s.isCancelled i = true) (name : t.name = u.name)
    (h : u.Since t news) : u.Since t' (news ++ es) := by
  have late := g.late stop h.last
  -- the stages come in this order, and each of the four moves keeps to its stage or goes on to the next
  cases h with
  | unnoticed request readied phase =>
    cases late with
    | keeps state same =>
      rw [List.append_nil]
      exact .unnoticed request (state ▸ readied) (same.trans phase)
    | leaves _ stopping => cases phase.symm.trans stopping
    | notices state _ stopping =>
      rw [name]
      exact .noticed request readied (.inl stopping) state
    | readies running state same =>
      rw [name]
      exact .unnoticed request (state ▸ readied.again running) (same.trans phase)
  | noticed request readied phase shown =>
    cases late with
    | keeps state same =>
      rw [List.append_nil]
      refine .noticed request readied ?_ (state.trans shown)
      rwa [same, Task.isDraining_congr same]
    | leaves state _ draining =>
      rw [List.append_nil]
      exact .noticed request readied (.inr draining) (state.trans shown)
    | notices _ attempting => simp [Task.isDraining, attempting] at phase
    | readies running => cases shown.symm.trans running
  | overlooked request readied draining =>
    cases late with
    | keeps state same =>
      rw [List.append_nil]
      exact .overlooked request (state ▸ readied) ((Task.isDraining_congr same).trans draining)
    | leaves _ stopping => simp [Task.isDraining, stopping] at draining
    | notices _ attempting => simp [Task.isDraining, attempting] at draining
    | readies running state same =>
      rw [name]
      exact .overlooked request (state ▸ readied.again running) ((Task.isDraining_congr same).trans draining)
  | closed readied request phase terminated parting =>
    cases late with
    | keeps state same =>
      rw [List.append_nil]
      exact .closed readied request (same.trans phase) (state.trans terminated) parting
    | leaves _ stopping => cases phase.symm.trans stopping
    | notices _ attempting => cases phase.symm.trans attempting
    | readies running => cases terminated.symm.trans running

theorem Ends.since (d : Ends s i t t' es error) (same : SameAttempt u t) (h : u.Since t news) :
    u.Since t' (news ++ es) := by
  obtain ⟨draining, parting⟩ := d.of_last h.last
  have parting := same.parting parting
  obtain ⟨done, terminated⟩ := d.done
  cases h with
  | unnoticed _ _ phase => simp [Task.isDraining, phase] at draining
  | noticed request readied => exact .closed readied (.inl ⟨request, rfl⟩) done terminated parting
  | overlooked request readied =>
    rw [← List.append_nil news]
    exact .closed readied (.inr ⟨request, rfl⟩) done terminated parting
  | closed _ _ phase => exact absurd phase d.not_done

/-! ### What follows the request -/

/-- What has become by `s` of registration `i`, which stood at `u` when the request came at `m`. -/
structure Aftermath (m : Supervisor) (u : Task) (i : TaskId) (s : Supervisor) : Prop where
  cancelled : s.isCancelled i = true
  told : ∃ t news, s.task? i = some t ∧ SameAttempt u t ∧ s.published i = m.published i ++ news ∧ u.Since t news

theorem Aftermath.move (a : Aftermath m u i s) (e : Effect s s') : Aftermath m u i s' where
  cancelled := e.isCancelled a.cancelled
  told := by
    obtain ⟨t, news, h, same, told, since⟩ := a.told
    have name : t.name = u.name := congrArg Worker.name same.worker
    obtain ⟨t', h'⟩ := e.task? h
    cases e.fate h' with
    | new unmade => exact absurd (h.symm.trans unmade) nofun
    | same old untold =>
      cases h.symm.trans old
      exact ⟨_, news, h', same, untold.trans told, since⟩
    | @goes _ _ es old g news' =>
      cases h.symm.trans old
      have kept : SameAttempt u t' := ⟨g.worker.trans same.worker, (g.attempt since.last).trans same.attempt⟩
      refine ⟨t', news ++ es, h', kept, ?_, g.since a.cancelled name since⟩
      rw [news', told, List.append_assoc]
    | @ends _ _ es _ old d news' =>
      cases h.symm.trans old
      refine ⟨t', news ++ es, h', ⟨d.worker.trans same.worker, d.attempt.trans same.attempt⟩, ?_, d.since same since⟩
      rw [news', told, List.append_assoc]

theorem stop_of_live (run : Run m past) (hu : m.task? i = some u) (live : u.isTerminated = false) :
    m.stop u.name = (true, m.amend i { u with stopRequested := true } []) := by
  have alive : m.isTerminated i = false := by rw [isTerminated, hu, Option.any_some, live]
  rw [Supervisor.stop, run.lookup_of_live hu live]
  simp only [alive, modifyTask_eq hu, Bool.false_eq_true, if_false]

/-- Both requests reach a live task at once, and neither changes anything else about it. -/
theorem asked (run : Run m past) (hu : m.task? i = some u) (live : u.isTerminated = false)
    (request : m.stop u.name = (true, m') ∨ m.shutdown = m') :
    m'.isCancelled i = true ∧ m'.published i = m.published i ∧
      ∃ t, m'.task? i = some t ∧ (t = u ∨ t = { u with stopRequested := true }) := by
  rcases request with stop | rfl
  · rw [stop_of_live run hu live] at stop
    obtain ⟨_, rfl⟩ := Prod.mk.inj stop
    have stopped : (m.amend i { u with stopRequested := true } []).task? i = some { u with stopRequested := true } :=
      task?_amend_self (lt_of_task? hu)
    refine ⟨?_, published_amend_self.trans (List.append_nil _), _, stopped, .inr rfl⟩
    rw [isCancelled_of_task? stopped, Bool.or_true]
  · refine ⟨?_, published_shutdown, u, task?_shutdown.trans hu, .inl rfl⟩
    rw [isCancelled, shuttingDown_shutdown, Bool.true_or]

/-- A task that runs or is ready is in an attempt that has not noticed any request yet. -/
theorem attempting_or_draining {cancelled : Bool} (c : u.Chronicle cancelled es)
    (state : u.state = .running ∨ u.state = .ready) : u.phase = .attempting ∨ u.isDraining = true := by
  have mem := state_mem_states c
  cases phase : u.phase with
  | attempting => exact .inl rfl
  | draining => exact .inr (by rw [Task.isDraining, phase])
  | _ => rcases state with state | state <;> simp [phase, state, Phase.states] at mem

theorem Aftermath.begin (run : Run m past) (hu : m.task? i = some u) (state : u.state = .running ∨ u.state = .ready)
    (request : m.stop u.name = (true, m') ∨ m.shutdown = m') : Aftermath m u i m' := by
  have live : u.isTerminated = false := by
    rcases state with state | state <;> simp [Task.isTerminated, TaskState.isTerminal, state]
  obtain ⟨cancelled, told, t, ht, stands⟩ := asked run hu live request
  have told : m'.published i = m.published i ++ [] := told.trans (List.append_nil _).symm
  have same : SameAttempt u t ∧ t.phase = u.phase ∧ t.state = u.state := by
    rcases stands with rfl | rfl <;> exact ⟨⟨rfl, rfl⟩, rfl, rfl⟩
  obtain ⟨same, phase, stands⟩ := same
  have readied : u.Readied [] t.state := stands ▸ .unchanged
  refine ⟨cancelled, t, [], ht, same, told, ?_⟩
  rcases attempting_or_draining (run.chronicle hu) state with attempting | draining
  · exact .unnoticed attempting readied (phase.trans attempting)
  · exact .overlooked draining readied ((Task.isDraining_congr phase).trans draining)

/-- A request that the loop has not noticed keeps it from everything else. -/
theorem act_of_unnoticed (h : s.task? i = some t) (phase : t.phase = .attempting) (stop : s.isCancelled i = true) :
    (s.act (.actor i .cancel)).isSome ∧ s.act (.actor i .proceed) = none := by
  constructor
  · simp [act, actorStep, h, phase, stop]
  · cases work : t.work <;> simp [act, actorStep, h, phase, stop, work]

/-- A task that runs or is ready is asked to stop, alone or together with all. If the end of its work has not been seen
by then, though it may have come, all that the loop can do is to notice the request; until then nothing is told of the
task but its readiness, and from then on it is shutting down until its attempt, the last, is over. If its sub-units are
waited for, the request never shows: the task runs or is ready until it has terminated. -/
theorem stop_surfaces (run : Run m past) (hu : m.task? i = some u) (state : u.state = .running ∨ u.state = .ready)
    (request : m.stop u.name = (true, m') ∨ m.shutdown = m') :
    (u.phase = .attempting ∨ u.isDraining = true) ∧
    ∀ as s, m'.acts as = some s → ∃ t news, s.task? i = some t ∧ s.published i = m.published i ++ news ∧
      (u.phase = .attempting →
        (t.phase = .attempting ∧ u.Readied news t.state ∧ (s.act (.actor i .cancel)).isSome ∧
          s.act (.actor i .proceed) = none) ∨
        ∃ readies rest stood, news = readies ++ .shuttingDown u.name :: rest ∧ u.Readied readies stood ∧
          (rest = [] ∧ t.state = .shuttingDown ∧ t.phase.inAttempt = true ∨
            u.Parting rest ∧ t.state = .terminated)) ∧
      (u.isDraining = true → ∃ readies rest stood, news = readies ++ rest ∧ u.Readied readies stood ∧
        (rest = [] ∧ t.state = stood ∧ t.isDraining = true ∨ u.Parting rest ∧ t.state = .terminated)) := by
  refine ⟨attempting_or_draining (run.chronicle hu) state, fun as s h => ?_⟩
  have aftermath : Aftermath m u i s :=
    kept_of_foldlM (fun move a => a.move (act_effect move)) h (.begin run hu state request)
  obtain ⟨t, news, ht, _, told, since⟩ := aftermath.told
  refine ⟨t, news, ht, told, fun attempting => ?_, fun draining => ?_⟩
  · cases since with
    | unnoticed _ readied phase => exact .inl ⟨phase, readied, act_of_unnoticed ht phase aftermath.cancelled⟩
    | noticed _ readied phase shown =>
      refine .inr ⟨_, [], _, rfl, readied, .inl ⟨rfl, shown, ?_⟩⟩
      rcases phase with phase | draining
      · rw [phase]; rfl
      · obtain ⟨o, phase⟩ := Task.phase_of_isDraining draining
        rw [phase]; rfl
    | overlooked draining => simp [Task.isDraining, attempting] at draining
    | @closed readies shown rest _ readied request _ terminated parting =>
      rcases request with ⟨_, rfl⟩ | ⟨draining, _⟩
      · exact .inr ⟨readies, rest, _, List.append_assoc .., readied, .inr ⟨parting, terminated⟩⟩
      · simp [Task.isDraining, attempting] at draining
  · cases since with
    | unnoticed attempting => simp [Task.isDraining, attempting] at draining
    | noticed attempting => simp [Task.isDraining, attempting] at draining
    | overlooked _ readied phase =>
      exact ⟨news, [], _, (List.append_nil _).symm, readied, .inl ⟨rfl, rfl, phase⟩⟩
    | @closed readies shown rest _ readied request _ terminated parting =>
      rcases request with ⟨attempting, _⟩ | ⟨_, rfl⟩
      · simp [Task.isDraining, attempting] at draining
      · exact ⟨readies, rest, _, by rw [List.append_nil], readied, .inr ⟨parting, terminated⟩⟩

/-- The work has ended when the request comes, but nobody has seen it. -/
def finished : List Act :=
  [.supervise { name := "a", task := "a" }, .actor 0 .proceed, .actor 0 .proceed,
    .work ⟨0, none⟩ (.ended (.returned none))]

def noticing : List Act := [.actor 0 .cancel, .actor 0 .proceed, .actor 0 .proceed]

theorem stop_surfaces_finished : ∃ m past u m' s, Run m past ∧ m.task? 0 = some u ∧ u.state = .ready ∧
    m.stop u.name = (true, m') ∧ m'.acts noticing = some s ∧
    s.published 0 = m.published 0 ++ [.shuttingDown "a", .terminated "a"] ∧
    (u.phase = .attempting ∨ u.isDraining = true) ∧
    ∀ as s, m'.acts as = some s → ∃ t news, s.task? 0 = some t ∧ s.published 0 = m.published 0 ++ news ∧
      (u.phase = .attempting →
        (t.phase = .attempting ∧ u.Readied news t.state ∧ (s.act (.actor 0 .cancel)).isSome ∧
          s.act (.actor 0 .proceed) = none) ∨
        ∃ readies rest stood, news = readies ++ .shuttingDown u.name :: rest ∧ u.Readied readies stood ∧
          (rest = [] ∧ t.state = .shuttingDown ∧ t.phase.inAttempt = true ∨
            u.Parting rest ∧ t.state = .terminated)) ∧
      (u.isDraining = true → ∃ readies rest stood, news = readies ++ rest ∧ u.Readied readies stood ∧
        (rest = [] ∧ t.state = stood ∧ t.isDraining = true ∨ u.Parting rest ∧ t.state = .terminated)) := by
  obtain ⟨m, past, run, h⟩ := exists_run
    (P := fun m => (m.task? 0).any (fun u => u.state = .ready && (m.stop u.name).1) &&
      ((m.stop "a").2.acts noticing).any fun s =>
        s.published 0 = m.published 0 ++ [.shuttingDown "a", .terminated "a"] ∧ (m.task? 0).any (·.name = "a"))
    finished (by decide +kernel)
  obtain ⟨ready, shown⟩ := Bool.and_eq_true_iff.1 h
  obtain ⟨u, hu, ready⟩ := (Option.any_eq_true _ _).1 ready
  obtain ⟨state, stop⟩ := Bool.and_eq_true_iff.1 ready
  obtain ⟨s, acts, shown⟩ := (Option.any_eq_true _ _).1 shown
  obtain ⟨told, named⟩ := of_decide_eq_true shown
  have name : u.name = "a" := by simpa [hu] using named
  have request : m.stop u.name = (true, (m.stop "a").2) := by rw [← name, ← stop]
  have state : u.state = .ready := of_decide_eq_true state
  exact ⟨m, past, u, _, s, run, hu, state, request, acts, told, stop_surfaces run hu (.inr state) (.inl request)⟩

/-- The request comes while a sub-unit is waited for, behind work that has returned by itself. -/
def waited : List Act :=
  [.supervise { name := "a", task := "a" }, .actor 0 .proceed, .actor 0 .proceed, .spawn ⟨0, none⟩ [], .watch 0 0,
    .work ⟨0, none⟩ (.ended (.returned none)), .actor 0 .proceed]

def outlived : List Act := [.work ⟨0, some 0⟩ (.ended (.returned none)), .watch 0 0, .actor 0 .proceed]

/-- Neither request shows. -/
theorem stop_overlooked : ∃ m past, Run m past ∧ m.state "a" = some .ready ∧ m.isCancelled 0 = false ∧
    (m.stop "a").1 = true ∧ ∀ m' ∈ [(m.stop "a").2, m.shutdown], m'.isCancelled 0 = true ∧
      m'.state "a" = some .ready ∧ ∃ s, m'.acts outlived = some s ∧ s.state "a" = some .terminated ∧
        s.published 0 = [.added "a", .blocked "a", .starting "a" 1, .running "a", .ready "a", .terminated "a"] := by
  obtain ⟨m, past, run, h⟩ := exists_run
    (P := fun m => decide (m.state "a" = some .ready ∧ m.isCancelled 0 = false ∧ (m.stop "a").1 = true) &&
      [(m.stop "a").2, m.shutdown].all fun m' => decide (m'.isCancelled 0 = true ∧ m'.state "a" = some .ready) &&
        (m'.acts outlived).any fun s => s.state "a" = some .terminated ∧
          s.published 0 = [.added "a", .blocked "a", .starting "a" 1, .running "a", .ready "a", .terminated "a"])
    waited (by decide +kernel)
  obtain ⟨before, after⟩ := Bool.and_eq_true_iff.1 h
  obtain ⟨ready, alive, stop⟩ := of_decide_eq_true before
  refine ⟨m, past, run, ready, alive, stop, fun m' hm' => ?_⟩
  obtain ⟨now, later⟩ := Bool.and_eq_true_iff.1 (List.all_eq_true.1 after m' hm')
  obtain ⟨s, acts, told⟩ := (Option.any_eq_true _ _).1 later
  obtain ⟨cancelled, still⟩ := of_decide_eq_true now
  exact ⟨cancelled, still, s, acts, of_decide_eq_true told⟩

end Supervisor

end Switchyard
