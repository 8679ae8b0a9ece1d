import Switchyard.Proofs.Backoff
import Switchyard.Proofs.Supervision.History

/-!
The delay a task carries from attempt to attempt. Main statement: it is the one that follows as many others as attempts
have failed since the last one in which the task said that it was ready, and that can be read off the events told.
-/
namespace Switchyard

/-- The latest attempt, and the latest one told to be ready; the first one counts if there is none. -/
structure Readied where
  current : Nat := 0
  last : Nat := 1

def Readied.after (r : Readied) (e : Event) : Readied :=
  match e.kind with
  | .taskStarting => { r with current := e.attempt.getD 0 }
  | .taskReady => { r with last := r.current }
  | _ => r

def Readied.replay (es : List Event) : Readied := es.foldl after {}

/-- The attempt since which delays have grown. Readiness that comes by itself does not count. -/
def growingSince (readiness : Readiness) (es : List Event) : Nat :=
  match readiness with
  | .explicit => (Readied.replay es).last
  | .onStart => 1

namespace Task

/-- How the delay, the mark of readiness and the count of attempts go with the phase and the events told. -/
def Paced (t : Task) (b : Backoff) (es : List Event) : Prop :=
  match t.phase with
  | .created | .blocked _ _ =>
    t.attempt = 0 ∧ t.delay = none ∧ t.readyInAttempt = false ∧ (Readied.replay es).last = 1
  | .attempting | .stopping | .draining _ =>
    (Readied.replay es).current = t.attempt ∧ growingSince t.worker.readiness es ≤ t.attempt ∧
      t.delayBefore = b.before (t.attempt - growingSince t.worker.readiness es)
  | .delayed _ _ =>
    growingSince t.worker.readiness es ≤ t.attempt ∧ t.readyInAttempt = false ∧
      t.delay = some (b.nth (t.attempt - growingSince t.worker.readiness es))
  | .done => True

end Task

namespace Supervisor

variable {s s' : Supervisor} {i : TaskId} {t t' : Task} {es es' : List Event} {past : List Supervisor} {b : Backoff}

theorem growingSince_append (readiness : Readiness) (unread : ∀ r : Readied, es'.foldl Readied.after r = r) :
    growingSince readiness (es ++ es') = growingSince readiness es := by
  cases readiness with
  | onStart => rfl
  | explicit => rw [growingSince, Readied.replay, List.foldl_append, unread, growingSince, Readied.replay]

/-- Events that tell neither of a start nor of readiness change nothing. -/
theorem paced_append (p : t.Paced b es) (unread : ∀ r : Readied, es'.foldl Readied.after r = r) :
    t.Paced b (es ++ es') := by
  have replay : Readied.replay (es ++ es') = Readied.replay es := by
    rw [Readied.replay, List.foldl_append, unread, Readied.replay]
  simpa only [Task.Paced, replay, growingSince_append _ unread] using p

/-- Only the worker, the phase, the count of attempts, the delay and the mark of readiness matter. -/
theorem paced_congr (p : t.Paced b es) (worker : t'.worker = t.worker) (phase : t'.phase = t.phase)
    (attempt : t'.attempt = t.attempt) (delay : t'.delay = t.delay)
    (ready : t'.readyInAttempt = t.readyInAttempt) : t'.Paced b es := by
  simpa only [Task.Paced, Task.delayBefore, worker, phase, attempt, delay, ready] using p

theorem replay_beginning (t : Task) (es : List Event) :
    (Readied.replay (es ++ t.beginning)).current = t.attempt + 1 ∧
      (t.worker.readiness = .explicit → (Readied.replay (es ++ t.beginning)).last = (Readied.replay es).last) := by
  rw [Readied.replay, List.foldl_append, Task.beginning]
  cases t.worker.readiness with
  | onStart =>
    refine ⟨rfl, fun explicit => ?_⟩
    cases explicit
  | explicit => exact ⟨rfl, fun _ => rfl⟩

theorem growingSince_beginning (t : Task) (es : List Event) :
    growingSince t.worker.readiness (es ++ t.beginning) = growingSince t.worker.readiness es := by
  have last := (replay_beginning t es).2
  cases h : t.worker.readiness with
  | onStart => rfl
  | explicit => exact last h

/-- The attempt that begins behind a delay goes on from it. -/
theorem delayBefore_begun (ready : t.readyInAttempt = false) : t.begun.delayBefore = t.delay := by
  rw [Task.delayBefore, Task.begun, ready]
  cases t.worker.readiness <;> rfl

theorem phase_of_running {cancelled : Bool} (c : t.Chronicle cancelled es) (h : t.state = .running) :
    t.phase = .attempting ∨ ∃ o, t.phase = .draining o := by
  have mem := state_mem_states c
  rw [h] at mem
  cases phase : t.phase with
  | attempting => exact .inl rfl
  | draining o => exact .inr ⟨o, rfl⟩
  | _ => simp [phase, Phase.states] at mem

/-- Readiness is not heard in a delay. -/
theorem Run.not_running_of_delayed (run : Run s past) (h : s.task? i = some t) {due : Nat} {e : TaskError}
    (phase : t.phase = .delayed due e) : t.state ≠ .running := by
  intro running
  rcases phase_of_running (run.chronicle h) running with attempting | ⟨o, draining⟩
  · exact nomatch attempting.symm.trans phase
  · exact nomatch draining.symm.trans phase

theorem paced_readied (current : (Readied.replay es).current = t.attempt)
    (since : growingSince t.worker.readiness es ≤ t.attempt)
    (before : t.delayBefore = b.before (t.attempt - growingSince t.worker.readiness es)) :
    (Readied.replay (es ++ [.ready t.name])).current = t.attempt ∧
      growingSince t.worker.readiness (es ++ [.ready t.name]) ≤ t.attempt ∧
      t.readied.delayBefore = b.before (t.attempt - growingSince t.worker.readiness (es ++ [.ready t.name])) := by
  have replay : Readied.replay (es ++ [.ready t.name]) =
      { Readied.replay es with last := (Readied.replay es).current } := by
    rw [Readied.replay, List.foldl_append]
    rfl
  cases h : t.worker.readiness with
  | onStart =>
    rw [h] at since before
    have implicit : t.readied.delayBefore = t.delayBefore := by simp [Task.delayBefore, Task.readied, h]
    exact ⟨by rw [replay]; exact current, since, implicit.trans before⟩
  | explicit =>
    have last : growingSince .explicit (es ++ [.ready t.name]) = t.attempt := by
      rw [growingSince, replay]
      exact current
    refine ⟨by rw [replay]; exact current, Nat.le_of_eq last, ?_⟩
    rw [last, Nat.sub_self, Task.delayBefore, Task.readied, h]
    rfl

theorem paced_goes {cancelled : Bool} (p : t.Paced s.backoff es) (c : t.Chronicle cancelled es)
    (g : s.Goes i t t' es') : t'.Paced s.backoff (es ++ es') := by
  cases g with
  | block h =>
    rw [Task.Paced, h] at p
    exact paced_append p fun _ => rfl
  | pass h =>
    rw [Task.Paced, h] at p
    exact paced_append p fun _ => rfl
  | park h =>
    rw [Task.Paced, h] at p
    exact paced_append p fun _ => rfl
  | start h =>
    refine ⟨(replay_beginning t es).1, ?_⟩
    have since : growingSince t.begun.worker.readiness (es ++ t.beginning) = growingSince t.worker.readiness es :=
      growingSince_beginning t es
    have next : t.begun.attempt = t.attempt + 1 := rfl
    rw [since, next]
    rw [Task.Paced] at p
    cases h' : t.phase with
    | blocked pending parked =>
      rw [h'] at p
      obtain ⟨attempt, delay, ready, last⟩ := p
      have first : growingSince t.worker.readiness es = 1 := by
        cases t.worker.readiness with
        | onStart => rfl
        | explicit => exact last
      rw [first, attempt, delayBefore_begun ready, delay]
      exact ⟨Nat.le_refl _, rfl⟩
    | delayed time e =>
      rw [h'] at p
      obtain ⟨since, ready, delay⟩ := p
      rw [delayBefore_begun ready, delay, Nat.succ_sub since]
      exact ⟨Nat.le_succ_of_le since, rfl⟩
    | _ => rw [h'] at h; cases h
  | surface h stop =>
    rw [Task.Paced, h] at p
    exact paced_append p fun _ => rfl
  | leave h =>
    rw [List.append_nil]
    rw [Task.Paced] at p
    rcases h with ⟨h, _⟩ | h
    · rw [h] at p
      exact p
    · rw [h] at p
      exact p
  | @retry o e h drained result error retries alive =>
    rw [Task.Paced, h] at p
    obtain ⟨_, since, before⟩ := p
    have delay : s.backoff.next t.delayBefore = s.backoff.nth (t.attempt - growingSince t.worker.readiness es) := by
      rw [before, Backoff.next_before]
    exact paced_append ⟨since, rfl, congrArg some delay⟩ fun _ => rfl
  | @ready sub w h running =>
    rw [Task.Paced] at p ⊢
    rcases phase_of_running c running with phase | ⟨o, phase⟩
    · rw [phase] at p
      rw [show t.readied.phase = .attempting from phase]
      exact paced_readied p.1 p.2.1 p.2.2
    · rw [phase] at p
      rw [show t.readied.phase = .draining o from phase]
      exact paced_readied p.1 p.2.1 p.2.2
  | attend => exact paced_append (paced_congr p rfl rfl rfl rfl rfl) fun _ => rfl
  | note => exact paced_append (paced_congr p rfl rfl rfl rfl rfl) fun _ => rfl
  | stop => exact paced_append (paced_congr p rfl rfl rfl rfl rfl) fun _ => rfl
  | spawn => exact paced_append (paced_congr p rfl rfl rfl rfl rfl) fun _ => rfl
  | @work sub => cases sub <;> exact paced_append (paced_congr p rfl rfl rfl rfl rfl) fun _ => rfl

theorem Effect.backoff (e : Effect s s') : s'.backoff = s.backoff := by
  cases e with
  | goes => exact backoff_amend ..
  | ends => exact backoff_amend ..
  | supervise h => rw [supervise_eq h]
  | shutdown down => rw [shutdown_eq down]; rfl
  | aside => rfl

theorem Run.paced (run : Run s past) (h : s.task? i = some t) : t.Paced s.backoff (s.published i) := by
  refine run.registrations (P := fun s _ i t => t.Paced s.backoff (s.published i)) ?_ h
  intro s s' past i t' run e f ih
  rw [e.backoff]
  cases f with
  | new none told =>
    rw [told, run.published_of_none none]
    exact ⟨rfl, rfl, rfl, rfl⟩
  | same h told =>
    rw [told]
    exact ih _ h
  | goes h g told =>
    rw [told]
    exact paced_goes (ih _ h) (run.chronicle h) g
  | ends h d told =>
    rw [Task.Paced, d.done.1]
    trivial

end Supervisor

end Switchyard
