import Switchyard.Proofs.Supervision.Registration

/-!
The events of a registration, the phase of its loop and its state go together. The chronicle says how, and holds of
every registration in every run.
-/
namespace Switchyard

open Course

namespace Task

theorem isTerminated_iff {t : Task} : t.isTerminated = true ↔ t.state = .terminated :=
  decide_eq_true_iff

/-- The events up to some point of an attempt, before anything is told of its end. -/
def Attempted (t : Task) (stopped : Bool) (es : List Event) : Prop :=
  ∃ (rs : List Retried) (ready : Bool),
    t.state = (if stopped then .shuttingDown else if ready then .ready else .running) ∧
    t.attempt = rs.length + 1 ∧
    es = opening t.name ++ retries t.name rs ++ Course.attempt t.name (rs.length + 1) { ready, stopped }

/-- What has been told of a task whose loop stands at a given phase. A request to stop is never taken back, so an
attempt that is shutting down has no successor. -/
def Chronicle (t : Task) (cancelled : Bool) (es : List Event) : Prop :=
  match t.phase with
  | .created => t.state = .registered ∧ t.attempt = 0 ∧ es = [.added t.name]
  | .blocked _ _ => t.state = .blocked ∧ t.attempt = 0 ∧ es = opening t.name
  | .attempting => t.Attempted false es
  | .stopping => cancelled = true ∧ t.Attempted true es
  | .draining _ => t.Attempted false es ∨ cancelled = true ∧ t.Attempted true es
  | .delayed _ e => ∃ (rs : List Retried) (r : Retried), t.state = .retrying ∧ t.attempt = rs.length + 1 ∧
      r.reason = e.message ∧ es = opening t.name ++ retries t.name (rs ++ [r])
  | .done => ∃ (rs : List Retried) (a : Option Attempt), t.state = .terminated ∧
      (a = none → rs = [] ∨ cancelled = true) ∧ es = Course.whole t.name rs a

end Task

/-- The states of a task whose loop stands at this phase. -/
def Phase.states : Phase → List TaskState
  | .created => [.registered]
  | .blocked _ _ => [.blocked]
  | .attempting => [.running, .ready]
  | .stopping => [.shuttingDown]
  | .draining _ => [.running, .ready, .shuttingDown]
  | .delayed _ _ => [.retrying]
  | .done => [.terminated]

namespace Supervisor

variable {cancelled : Bool} {t t' : Task} {es es' : List Event} {s s' : Supervisor} {i : TaskId}
  {past : List Supervisor}

theorem chronicle_mono (c : t.Chronicle cancelled es) {later : Bool} (h : cancelled = true → later = true) :
    t.Chronicle later es := by
  unfold Task.Chronicle at c ⊢
  split at c
  case h_4 => exact ⟨h c.1, c.2⟩
  case h_5 => exact c.imp_right (.imp_left h)
  case h_7 =>
    obtain ⟨rs, a, state, last, told⟩ := c
    exact ⟨rs, a, state, fun none => (last none).imp_right h, told⟩
  all_goals exact c

/-- Only the worker, the phase, the state and the count of attempts matter. -/
theorem chronicle_congr (c : t.Chronicle cancelled es) (worker : t'.worker = t.worker) (phase : t'.phase = t.phase)
    (state : t'.state = t.state) (attempt : t'.attempt = t.attempt) : t'.Chronicle cancelled es := by
  simpa only [Task.Chronicle, Task.Attempted, Task.name, worker, phase, state, attempt] using c

theorem attempted_begun (rs : List Retried) (attempt : t.attempt = rs.length) :
    t.begun.Attempted false (opening t.name ++ retries t.name rs ++ t.beginning) := by
  refine ⟨rs, t.worker.readiness = .onStart, ?_, congrArg (· + 1) attempt, ?_⟩
  · simp [Task.begun]
  · rw [Task.beginning, attempt]
    rfl

theorem attempted_surfaces (a : t.Attempted false es) (h : t'.name = t.name) (state : t'.state = .shuttingDown)
    (attempt : t'.attempt = t.attempt) : t'.Attempted true (es ++ [.shuttingDown t.name]) := by
  obtain ⟨rs, ready, _, n, rfl⟩ := a
  refine ⟨rs, ready, state, attempt.trans n, ?_⟩
  rw [List.append_assoc, attempt_stopped, h]

/-- Readiness is accepted only once in an attempt, and not any more when it is shutting down. -/
theorem attempted_readied {stopped : Bool} (a : t.Attempted stopped es) (running : t.state = .running) :
    stopped = false ∧ t.readied.Attempted false (es ++ [.ready t.name]) := by
  obtain ⟨rs, ready, state, n, rfl⟩ := a
  rw [running] at state
  cases stopped with
  | true => cases state
  | false =>
    cases ready with
    | true => cases state
    | false =>
      refine ⟨rfl, rs, true, rfl, n, ?_⟩
      rw [List.append_assoc, attempt_ready]
      rfl

theorem attempt_of_draining {cancelled : Bool} (c : t.Attempted false es ∨ cancelled = true ∧ t.Attempted true es) :
    ∃ (stopped : Bool) (rs : List Retried) (ready : Bool), t.attempt = rs.length + 1 ∧
      es = opening t.name ++ retries t.name rs ++ Course.attempt t.name (rs.length + 1) { ready, stopped } := by
  rcases c with ⟨rs, ready, _, n, told⟩ | ⟨_, rs, ready, _, n, told⟩
  · exact ⟨false, rs, ready, n, told⟩
  · exact ⟨true, rs, ready, n, told⟩

theorem chronicle_goes (c : t.Chronicle (s.isCancelled i) es) (g : s.Goes i t t' es') :
    t'.Chronicle (s.isCancelled i) (es ++ es') := by
  cases g with
  | block h =>
    rw [Task.Chronicle, h] at c
    obtain ⟨_, attempt, rfl⟩ := c
    exact ⟨rfl, attempt, rfl⟩
  | pass h =>
    rw [Task.Chronicle, h] at c
    rwa [List.append_nil]
  | park h =>
    rw [Task.Chronicle, h] at c
    rwa [List.append_nil]
  | start h =>
    rw [Task.Chronicle] at c
    cases h' : t.phase with
    | blocked pending parked =>
      rw [h'] at c
      obtain ⟨_, attempt, rfl⟩ := c
      exact attempted_begun [] attempt
    | delayed time e =>
      rw [h'] at c
      obtain ⟨rs, r, _, attempt, _, rfl⟩ := c
      exact attempted_begun (rs ++ [r]) (by simpa using attempt)
    | _ => rw [h'] at h; cases h
  | surface h stop =>
    rw [Task.Chronicle, h] at c
    exact ⟨stop, attempted_surfaces c rfl rfl rfl⟩
  | leave h =>
    rw [List.append_nil]
    rw [Task.Chronicle] at c
    rcases h with ⟨h, _⟩ | h
    · rw [h] at c
      exact .inl c
    · rw [h] at c
      exact .inr c
  | @retry o e h drained result error retries alive =>
    rw [Task.Chronicle, h, alive] at c
    obtain ⟨rs, ready, _, n, rfl⟩ := c.resolve_right (fun stop => Bool.noConfusion stop.1)
    refine ⟨rs, ⟨ready, e.message, shownMillis (s.backoff.next t.delayBefore)⟩, rfl, n, rfl, ?_⟩
    rw [retries_snoc, n]
    simp only [Retried.attempt, ← attempt_failed, List.append_assoc]
    rfl
  | @ready sub w h running =>
    rw [Task.Chronicle] at c ⊢
    have phase : t.readied.phase = t.phase := rfl
    rw [phase]
    split at c
    next => exact absurd (running.symm.trans c.1) nofun
    next => exact absurd (running.symm.trans c.1) nofun
    next => exact (attempted_readied c running).2
    next => exact absurd (attempted_readied c.2 running).1 nofun
    next =>
      have a := c.resolve_right fun stop => absurd (attempted_readied stop.2 running).1 nofun
      exact .inl (attempted_readied a running).2
    next =>
      obtain ⟨_, _, state, _⟩ := c
      exact absurd (running.symm.trans state) nofun
    next =>
      obtain ⟨_, _, state, _⟩ := c
      exact absurd (running.symm.trans state) nofun
  | attend => rw [List.append_nil]; exact chronicle_congr c rfl rfl rfl rfl
  | note => rw [List.append_nil]; exact chronicle_congr c rfl rfl rfl rfl
  | stop => rw [List.append_nil]; exact chronicle_congr c rfl rfl rfl rfl
  | spawn => rw [List.append_nil]; exact chronicle_congr c rfl rfl rfl rfl
  | @work sub =>
    rw [List.append_nil]
    cases sub <;> exact chronicle_congr c rfl rfl rfl rfl

theorem chronicle_ends {error : Option TaskError} (c : t.Chronicle (s.isCancelled i) es)
    (e : s.Ends i t t' es' error) : t'.Chronicle (s.isCancelled i) (es ++ es') := by
  cases e with
  | unstarted h stop =>
    rw [Task.Chronicle, h] at c
    obtain ⟨_, _, rfl⟩ := c
    exact ⟨[], none, rfl, fun _ => .inl rfl, rfl⟩
  | undelayed h stop =>
    rw [Task.Chronicle, h] at c
    obtain ⟨rs, r, _, _, _, rfl⟩ := c
    refine ⟨rs ++ [r], none, rfl, fun _ => .inr stop, ?_⟩
    simp [whole, last]
    rfl
  | finish h drained result =>
    rw [Task.Chronicle, h] at c
    obtain ⟨stopped, rs, ready, _, rfl⟩ := attempt_of_draining c
    exact ⟨rs, some { ready, stopped }, rfl, by simp, rfl⟩
  | @fail o e h drained result error final =>
    rw [Task.Chronicle, h] at c
    obtain ⟨stopped, rs, ready, n, rfl⟩ := attempt_of_draining c
    refine ⟨rs, some { ready, stopped, failure := some e.message }, rfl, by simp, ?_⟩
    rw [n]
    simp only [whole, last, ← attempt_failed, List.append_assoc]
    rfl

theorem Run.chronicle (run : Run s past) (h : s.task? i = some t) :
    t.Chronicle (s.isCancelled i) (s.published i) := by
  refine run.registrations (P := fun s _ i t => t.Chronicle (s.isCancelled i) (s.published i)) ?_ h
  intro s s' past i t' run e f ih
  cases f with
  | new none told =>
    rw [told, run.published_of_none none]
    exact ⟨rfl, rfl, rfl⟩
  | same h told =>
    rw [told]
    exact chronicle_mono (ih _ h) e.isCancelled
  | goes h g told =>
    rw [told]
    exact chronicle_mono (chronicle_goes (ih _ h) g) e.isCancelled
  | ends h ends told =>
    rw [told]
    exact chronicle_mono (chronicle_ends (ih _ h) ends) e.isCancelled

theorem state_mem_states (c : t.Chronicle cancelled es) : t.state ∈ t.phase.states := by
  have attempted {stopped : Bool} (a : t.Attempted stopped es) :
      t.state ∈ if stopped then [TaskState.shuttingDown] else [.running, .ready] := by
    obtain ⟨rs, ready, state, _⟩ := a
    rw [state]
    cases stopped <;> cases ready <;> simp
  unfold Task.Chronicle at c
  split at c
  case h_1 phase => simp [phase, Phase.states, c.1]
  case h_2 phase => simp [phase, Phase.states, c.1]
  case h_3 phase => simpa [phase, Phase.states] using attempted c
  case h_4 phase => simpa [phase, Phase.states] using attempted c.2
  case h_5 phase =>
    rw [phase]
    rcases c with c | ⟨_, c⟩
    · exact List.mem_append_left [.shuttingDown] (attempted c)
    · exact List.mem_append_right [.running, .ready] (attempted c)
  case h_6 phase =>
    obtain ⟨_, _, state, _⟩ := c
    simp [phase, Phase.states, state]
  case h_7 phase =>
    obtain ⟨_, _, state, _⟩ := c
    simp [phase, Phase.states, state]

theorem phase_of_blocked (c : t.Chronicle cancelled es) (h : t.state = .blocked) :
    ∃ pending parked, t.phase = .blocked pending parked := by
  have mem := state_mem_states c
  rw [h] at mem
  cases phase : t.phase with
  | blocked pending parked => exact ⟨pending, parked, rfl⟩
  | _ => simp [phase, Phase.states] at mem

theorem phase_of_retrying (c : t.Chronicle cancelled es) (h : t.state = .retrying) :
    ∃ time e, t.phase = .delayed time e := by
  have mem := state_mem_states c
  rw [h] at mem
  cases phase : t.phase with
  | delayed time e => exact ⟨time, e, rfl⟩
  | _ => simp [phase, Phase.states] at mem

theorem terminated_iff_done (c : t.Chronicle cancelled es) : t.state = .terminated ↔ t.phase = .done := by
  have mem := state_mem_states c
  constructor
  · intro h
    rw [h] at mem
    cases phase : t.phase with
    | done => rfl
    | _ => simp [phase, Phase.states] at mem
  · intro h
    simpa [h, Phase.states] using mem

end Supervisor

end Switchyard
