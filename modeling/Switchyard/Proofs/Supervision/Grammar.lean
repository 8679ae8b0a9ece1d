import Switchyard.Proofs.Supervision.Chronicle

/-!
The grammar of a task's events. Main statement: at any moment of a run they are the beginning of one word of the
grammar, and the state of the task is the one that they tell of.
-/
namespace Switchyard.Supervisor

open Course

variable {cancelled : Bool} {t t' : Task} {es es' : List Event} {s s' : Supervisor} {i : TaskId}
  {past : List Supervisor}

/-- What has been told, whatever the loop waits for. -/
theorem chronicle_cases (c : t.Chronicle cancelled es) :
    (t.state = .registered ∧ es = [.added t.name]) ∨
    (t.state = .blocked ∧ es = opening t.name) ∨
    (∃ stopped, t.Attempted stopped es) ∨
    (∃ rs r, t.state = .retrying ∧ es = opening t.name ++ retries t.name (rs ++ [r])) ∨
    ∃ rs a, t.state = .terminated ∧ (a = none → rs = [] ∨ cancelled = true) ∧ es = whole t.name rs a := by
  unfold Task.Chronicle at c
  split at c
  case h_1 => exact .inl ⟨c.1, c.2.2⟩
  case h_2 => exact .inr (.inl ⟨c.1, c.2.2⟩)
  case h_3 => exact .inr (.inr (.inl ⟨false, c⟩))
  case h_4 => exact .inr (.inr (.inl ⟨true, c.2⟩))
  case h_5 =>
    rcases c with c | c
    · exact .inr (.inr (.inl ⟨false, c⟩))
    · exact .inr (.inr (.inl ⟨true, c.2⟩))
  case h_6 =>
    obtain ⟨rs, r, state, _, _, told⟩ := c
    exact .inr (.inr (.inr (.inl ⟨rs, r, state, told⟩)))
  case h_7 => exact .inr (.inr (.inr (.inr c)))

theorem prefix_of_chronicle (c : t.Chronicle cancelled es) :
    ∃ (rs : List Retried) (a : Option Attempt),
      (a = none → rs = [] ∨ cancelled = true) ∧ es <+: whole t.name rs a := by
  rcases chronicle_cases c with ⟨_, rfl⟩ | ⟨_, rfl⟩ | ⟨stopped, rs, ready, _, _, rfl⟩ | ⟨rs, r, _, rfl⟩ |
    ⟨rs, a, _, final, rfl⟩
  · exact ⟨[], none, fun _ => .inl rfl, List.prefix_append [_] [Event.blocked t.name, Event.terminated t.name]⟩
  · exact ⟨[], none, fun _ => .inl rfl, List.prefix_append _ _⟩
  · exact ⟨rs, some { ready, stopped }, nofun, List.prefix_append _ _⟩
  · -- the attempt that the delay is for has not started: any will do
    refine ⟨rs ++ [r], some {}, nofun, ?_⟩
    rw [whole, List.append_assoc _ (last ..)]
    exact List.prefix_append _ _
  · exact ⟨rs, a, final, List.prefix_rfl⟩

theorem chronicle_replay (c : t.Chronicle cancelled es) : t.state = TaskState.replay es := by
  rcases chronicle_cases c with ⟨state, rfl⟩ | ⟨state, rfl⟩ | ⟨stopped, rs, ready, state, _, rfl⟩ |
    ⟨rs, r, state, rfl⟩ | ⟨rs, a, state, _, rfl⟩
  · exact state
  · exact state
  · rw [state, replay_attempt]
  · rw [state, replay_retries_snoc]
  · rw [state, replay_whole]

theorem terminated_kept (run : Run s past) (e : Effect s s') (ht : s.task? i = some t) (ht' : s'.task? i = some t')
    (h : t.state = .terminated) : t'.state = .terminated := by
  have told := run.chronicle ht
  rcases (e.fate ht').of_task? ht with rfl | ⟨_, g⟩ | ⟨_, _, d⟩
  · exact h
  · have done := (terminated_iff_done told).1 h
    exact (terminated_iff_done (chronicle_goes told g)).2 (g.done_iff.2 done)
  · exact d.done.2

/-- In a word of the grammar only the last attempt may have been asked to stop. A word without a last attempt ends
before the first one, or in a delay cut short by a request to stop. -/
theorem published_prefix_whole (run : Run s past) (h : s.task? i = some t) :
    (∃ (rs : List Retried) (a : Option Attempt),
      (a = none → rs = [] ∨ s.isCancelled i = true) ∧ s.published i <+: whole t.name rs a) ∧
    t.state = TaskState.replay (s.published i) ∧
    ∀ m ∈ past, ∀ u, m.task? i = some u → u.state = .terminated → t.state = .terminated := by
  have told := run.chronicle h
  refine ⟨prefix_of_chronicle told, chronicle_replay told, fun m hm u hu finished => ?_⟩
  exact run.keeps (P := fun t => t.state = .terminated) terminated_kept hm hu finished h

/-- A task that fails, and is asked to stop in the delay before its second attempt. -/
def cutShort : List Act :=
  [.supervise { name := "a", task := "a", retries := true }, .actor 0 .proceed, .actor 0 .proceed,
    .work ⟨0, none⟩ (.ended (.returned (some (.fail "e")))), .actor 0 .proceed, .actor 0 .proceed, .stop "a",
    .actor 0 .cancel]

theorem exists_cutShort : ∃ s past t, Run s past ∧ s.task? 0 = some t ∧ t.name = "a" ∧
    s.published 0 = opening "a" ++ retries "a" [⟨true, "e", 100⟩] ++ [.terminated "a"] := by
  obtain ⟨s, past, run, h⟩ := exists_run (P := fun s => (s.task? 0).any (·.name = "a") &&
    s.published 0 = opening "a" ++ retries "a" [⟨true, "e", 100⟩] ++ [.terminated "a"]) cutShort (by decide +kernel)
  obtain ⟨named, told⟩ := Bool.and_eq_true_iff.1 h
  obtain ⟨t, ht, name⟩ := (Option.any_eq_true _ _).1 named
  exact ⟨s, past, t, run, ht, of_decide_eq_true name, of_decide_eq_true told⟩

theorem published_prefix_whole_cutShort : ∃ s past t, Run s past ∧ s.task? 0 = some t ∧
    (∃ (rs : List Retried) (a : Option Attempt),
      (a = none → rs = [] ∨ s.isCancelled 0 = true) ∧ s.published 0 <+: whole t.name rs a) ∧
    t.state = TaskState.replay (s.published 0) ∧
    ∀ m ∈ past, ∀ u, m.task? 0 = some u → u.state = .terminated → t.state = .terminated := by
  obtain ⟨s, past, t, run, h, _⟩ := exists_cutShort
  exact ⟨s, past, t, run, h, published_prefix_whole run h⟩

/-- A delay may be the last thing before the end: not every word is one of attempts with delays between them. -/
theorem delay_without_successor : ¬ ∀ (s : Supervisor) (past : List Supervisor) (i : TaskId) (t : Task),
    Run s past → s.task? i = some t →
      ∃ (rs : List Retried) (a : Option Attempt), (a = none → rs = []) ∧ s.published i <+: whole t.name rs a := by
  intro strict
  obtain ⟨s, past, t, run, h, name, told⟩ := exists_cutShort
  obtain ⟨rs, a, unstarted, pre⟩ := strict s past 0 t run h
  rw [told, name] at pre
  cases rs with
  | nil =>
    -- the word has at most one attempt, and no delay
    cases a with
    | none => simp [opening, whole, last, retries, Course.attempt, Retried.attempt] at pre
    | some a =>
      obtain ⟨ready, stopped, failure⟩ := a
      cases ready <;> cases stopped <;> cases failure <;>
        simp [opening, whole, last, retries, Course.attempt, Retried.attempt, Event.ready, Event.shuttingDown,
          Event.failed, Event.backoff, Event.terminated] at pre
  | cons r rs =>
    -- behind the delay comes the start of another attempt
    obtain ⟨ready, reason, delayMs⟩ := r
    cases rs with
    | nil =>
      cases a with
      | none => exact absurd (unstarted rfl) (List.cons_ne_nil _ _)
      | some a =>
        cases ready <;>
          simp [opening, whole, last, retries, Course.attempt, Retried.attempt, Event.ready, Event.shuttingDown,
            Event.failed, Event.starting, Event.backoff, Event.terminated] at pre
    | cons r rs =>
      cases ready <;>
        simp [opening, whole, last, retries, Course.attempt, Retried.attempt, Event.ready, Event.shuttingDown,
          Event.failed, Event.starting, Event.backoff, Event.terminated] at pre

end Switchyard.Supervisor
