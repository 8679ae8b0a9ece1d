import Switchyard.Proofs.Growth
import Switchyard.Proofs.Supervision.RetrySchedule

/-!
The delays that tasks wait for. Main statement: which of them are longer than the maximum of the policy.
-/
namespace Switchyard.Supervisor

variable {s s' : Supervisor} {i : TaskId} {t t' : Task} {es : List Event} {past : List Supervisor} {due : Nat}
  {e : TaskError}

/-- The last thing told of a task is that it waits for the end of `delay`, and that is what it does. -/
def Scheduled (s : Supervisor) (i : TaskId) (t : Task) (e : TaskError) (delay : Duration) : Prop :=
  ∃ front p, s.told i = front ++ [p] ∧ p.event = .backoff t.name t.attempt (shownMillis delay) e.message ∧
    t.delay = some delay ∧ t.phase = .delayed (p.time + delay.ceilMillis) e

/-- A delay either lasts on or has just been scheduled. -/
theorem Goes.delayed (g : Goes s i t t' es) (phase : t'.phase = .delayed due e) :
    t.phase = .delayed due e ∧ t'.delay = t.delay ∧ t'.attempt = t.attempt ∧ (es = [] ∨ t.state = .running) ∨
      ∃ delay, t'.delay = some delay ∧ due = s.now + delay.ceilMillis ∧ t'.attempt = t.attempt ∧
        es = [.failed t.name t.attempt e.message, .backoff t.name t.attempt (shownMillis delay) e.message] := by
  cases g with
  | retry =>
    cases phase
    exact .inr ⟨_, rfl, rfl, rfl, rfl⟩
  | ready _ running => exact .inl ⟨phase, rfl, rfl, .inr running⟩
  | block => cases phase
  | pass => cases phase
  | park => cases phase
  | start => cases phase
  | surface => cases phase
  | leave => cases phase
  | @work sub => cases sub <;> exact .inl ⟨phase, rfl, rfl, .inl rfl⟩
  | _ => exact .inl ⟨phase, rfl, rfl, .inl rfl⟩

theorem Run.scheduled (run : Run s past) (h : s.task? i = some t) (phase : t.phase = .delayed due e) :
    ∃ delay, s.Scheduled i t e delay := by
  induction run generalizing t due with
  | start => cases h
  | @move s s' past run _ m ih =>
    have effect := act_effect m
    cases old : s.task? i with
    | none =>
      cases effect.fate h with
      | new => cases phase
      | same there => cases old.symm.trans there
      | goes there => cases old.symm.trans there
      | ends there => cases old.symm.trans there
    | some u =>
      have name : t.name = u.name := congrArg Worker.name ((effect.fate h).worker old)
      obtain ⟨news, grown, times, ⟨rfl, rfl⟩ | ⟨_, g | ⟨_, d⟩⟩⟩ := effect.course old h
      · rw [List.append_nil] at grown
        obtain ⟨delay, scheduled⟩ := ih old phase
        exact ⟨delay, by rw [Scheduled, grown]; exact scheduled⟩
      · rcases g.delayed phase with ⟨before, kept, attempt, quiet⟩ | ⟨delay, kept, rfl, attempt, told⟩
        · have silent : news = [] := List.map_eq_nil_iff.1 (quiet.resolve_right (run.not_running_of_delayed old before))
          rw [silent, List.append_nil] at grown
          obtain ⟨delay, front, p, was, event, waits, phase'⟩ := ih old before
          refine ⟨delay, front, p, grown.trans was, ?_, kept.trans waits, ?_⟩
          · rw [event, name, attempt]
          · rw [phase, ← before, phase']
        · obtain ⟨q, rest, rfl, _, last⟩ := List.map_eq_cons_iff.1 told
          obtain ⟨p, none, rfl, event, empty⟩ := List.map_eq_cons_iff.1 last
          cases List.map_eq_nil_iff.1 empty
          have time : p.time = s.now := times p (by simp)
          refine ⟨delay, s.told i ++ [q], p, ?_, ?_, kept, ?_⟩
          · rw [grown, List.append_assoc]
            rfl
          · rw [event, name, attempt]
          · rw [phase, time]
      · exact nomatch d.done.1.symm.trans phase

/-- Only the delay that starts a sequence is not cut off at the maximum. So a task waits for longer than that only if
the first delay is longer, and then where its sequence starts; and at every other place behind that, if the policy makes
every delay behind a positive one zero. -/
theorem delays_within_max_iff (b : Backoff) (previous : Option Duration) :
    ((b.next previous).toNanos ≤ b.max.toNanos ↔
      b.first.toNanos ≤ b.max.toNanos ∨ ∃ d, previous = some d ∧ ¬ d.isZero) ∧
    ∀ {s : Supervisor} {past : List Supervisor} {i : TaskId} {t : Task} {due : Nat} {e : TaskError}, Run s past →
      s.backoff = b → s.task? i = some t → t.phase = .delayed due e →
        ∃ delay, s.Scheduled i t e delay ∧
          let n := t.attempt - growingSince t.worker.readiness (s.published i)
          (delay.toNanos ≤ b.max.toNanos ↔
            b.first.toNanos ≤ b.max.toNanos ∨ n ≠ 0 ∧ (n % 2 = 0 → ¬ b.Restarts)) := by
  refine ⟨b.next_le_max_iff previous, fun {s past i t due e} run policy h phase => ?_⟩
  obtain ⟨delay, scheduled⟩ := run.scheduled h phase
  have paced := run.paced h
  rw [Task.Paced, phase, policy] at paced
  have counted : delay = b.nth (t.attempt - growingSince t.worker.readiness (s.published i)) := by
    obtain ⟨_, _, _, _, waits, _⟩ := scheduled
    exact Option.some.inj (waits.symm.trans paced.2.2)
  refine ⟨delay, scheduled, ?_⟩
  rw [counted]
  exact b.nth_le_max_iff _

/-- The first task fails in an attempt, and its loop goes on to the delay. -/
def failsAgain : List Act :=
  [.work ⟨0, none⟩ (.ended (.returned (some (.fail "e")))), .actor 0 .proceed, .actor 0 .proceed]

/-- A maximum of nothing: every other delay is the first one again. -/
def restarting : Backoff := ⟨.ofMillis 5000, .zero, 2⟩

theorem delays_within_max_iff_restarting : ∃ s past t e, Run s past ∧ s.backoff = restarting ∧
    s.task? 0 = some t ∧ t.phase = .delayed 10000 e ∧ t.attempt = 3 ∧
    ((restarting.next (some .zero)).toNanos ≤ restarting.max.toNanos ↔
      restarting.first.toNanos ≤ restarting.max.toNanos ∨ ∃ d, some Duration.zero = some d ∧ ¬ d.isZero) ∧
    ∃ delay, s.Scheduled 0 t e delay ∧
      let n := t.attempt - growingSince t.worker.readiness (s.published 0)
      (delay.toNanos ≤ restarting.max.toNanos ↔
        restarting.first.toNanos ≤ restarting.max.toNanos ∨ n ≠ 0 ∧ (n % 2 = 0 → ¬ restarting.Restarts)) := by
  obtain ⟨s, past, run, h⟩ := exists_prompt
    (P := fun (s, _) => s.backoff = restarting ∧ (s.task? 0).any fun t => due? t = some 10000 ∧ t.attempt = 3)
    restarting (failing ++ [.clock 5000, .actor 0 .proceed] ++ failsAgain ++ [.actor 0 .proceed] ++ failsAgain)
    (by decide +kernel)
  obtain ⟨policy, delayed⟩ := of_decide_eq_true h
  obtain ⟨t, ht, delayed⟩ := (Option.any_eq_true _ _).1 delayed
  obtain ⟨waits, third⟩ := of_decide_eq_true delayed
  obtain ⟨e, phase⟩ := phase_of_due waits
  obtain ⟨single, run'⟩ := delays_within_max_iff restarting (some .zero)
  exact ⟨s, past, t, e, run.run, policy, ht, phase, third, single, run' run.run policy ht phase⟩

/-- Five seconds at first, although three are the most. -/
def overlong : Backoff := ⟨.ofMillis 5000, .ofMillis 3000, 2⟩

theorem first_delay_over_max :
    overlong.max.toNanos < (overlong.next none).toNanos ∧
    ∃ s past t e delay, Run s past ∧ s.task? 0 = some t ∧ s.backoff = overlong ∧ s.Scheduled 0 t e delay ∧
      s.backoff.max.toNanos < delay.toNanos := by
  refine ⟨by decide, ?_⟩
  obtain ⟨s, past, run, h⟩ := exists_prompt
    (P := fun (s, _) => s.backoff = overlong ∧
      (s.task? 0).any fun t => due? t = some 5000 ∧ t.delay = some overlong.first)
    overlong failing (by decide +kernel)
  obtain ⟨policy, delayed⟩ := of_decide_eq_true h
  obtain ⟨t, ht, delayed⟩ := (Option.any_eq_true _ _).1 delayed
  obtain ⟨waits, first⟩ := of_decide_eq_true delayed
  obtain ⟨e, phase⟩ := phase_of_due waits
  obtain ⟨delay, front, p, told, event, kept, phase⟩ := run.run.scheduled ht phase
  have long : delay = overlong.first := Option.some.inj (kept.symm.trans first)
  refine ⟨s, past, t, e, delay, run.run, ht, policy, ⟨front, p, told, event, kept, phase⟩, ?_⟩
  rw [policy, long]
  decide

end Switchyard.Supervisor
