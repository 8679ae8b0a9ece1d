import Switchyard.Proofs.Execution
import Switchyard.Proofs.Supervision.Promptness

/-!
What is left for a task that has been asked to stop. Main statement: no delay is scheduled for it any more, at most one
attempt still starts, its units are told to stop from the beginning, and the attempt that ends then is the last.
-/
namespace Switchyard

/-- Between the start of an attempt and its end. -/
def Phase.inAttempt : Phase → Bool
  | .attempting | .stopping | .draining _ => true
  | .created | .blocked _ _ | .delayed _ _ | .done => false

/-- How many attempts may still start without another failure. -/
def Phase.startsLeft : Phase → Nat
  | .created | .blocked _ _ | .delayed _ _ => 1
  | .attempting | .stopping | .draining _ | .done => 0

def Event.starts (es : List Event) : Nat := es.countP (·.kind = .taskStarting)

namespace Supervisor

variable {s s' m : Supervisor} {i : TaskId} {t t' u : Task} {es : List Event} {past : List Supervisor}
  {error : Option TaskError}

/-! ### One registration in a move -/

theorem starts_beginning (t : Task) : Event.starts t.beginning = 1 := by
  rw [Task.beginning, Course.attempt]
  cases t.worker.readiness <;> rfl

theorem no_delay_beginning (t : Task) : ∀ e ∈ t.beginning, e.kind ≠ .backoffScheduled := by
  rw [Task.beginning, Course.attempt]
  cases t.worker.readiness <;> simp [Event.starting, Event.running, Event.ready]

theorem Unblocked.startsLeft {phase : Phase} (h : s.Unblocked phase) : phase.startsLeft = 1 := by
  cases h <;> rfl

theorem Goes.startsLeft (g : Goes s i t t' es) (stop : s.isCancelled i = true) :
    (∀ e ∈ es, e.kind ≠ .backoffScheduled) ∧ Event.starts es + t'.phase.startsLeft ≤ t.phase.startsLeft := by
  cases g with
  | start h =>
    refine ⟨no_delay_beginning t, ?_⟩
    rw [starts_beginning, h.startsLeft]
    exact Nat.le_refl _
  | leave h =>
    refine ⟨nofun, ?_⟩
    rcases h with ⟨h, _⟩ | h
    · rw [h]
      exact Nat.le_refl _
    · rw [h]
      exact Nat.le_refl _
  | retry _ _ _ _ _ alive => exact absurd (stop.symm.trans alive) Bool.noConfusion
  | block h => simp [h, Event.starts, Event.blocked, Phase.startsLeft]
  | pass h => simp [h, Event.starts, Phase.startsLeft]
  | park h => simp [h, Event.starts, Phase.startsLeft]
  | surface h => simp [h, Event.starts, Event.shuttingDown, Phase.startsLeft]
  | ready => simp [Event.starts, Event.ready, Task.readied]
  | @work sub => cases sub <;> simp [Event.starts, Task.withUnit]
  | _ => simp [Event.starts, Task.withWatch]

theorem Ends.startsLeft (d : Ends s i t t' es error) :
    (∀ e ∈ es, e.kind ≠ .backoffScheduled) ∧ Event.starts es = 0 ∧ t'.phase.startsLeft = 0 := by
  cases d with
  | fail => exact ⟨by simp [Event.failed, Event.terminated], rfl, rfl⟩
  | _ => exact ⟨by simp [Event.terminated], rfl, rfl⟩

theorem Goes.attempt (g : Goes s i t t' es) (h : t.phase.startsLeft = 0) : t'.attempt = t.attempt := by
  cases g with
  | start unblocked => exact absurd (unblocked.startsLeft.symm.trans h) Nat.one_ne_zero
  | @work sub => cases sub <;> rfl
  | _ => rfl

theorem Ends.attempt (d : Ends s i t t' es error) : t'.attempt = t.attempt := by
  cases d <;> rfl

/-! ### Over runs -/

/-- The starts left to registration `i`; one not yet made has the same as one just made. -/
def startsLeft (s : Supervisor) (i : TaskId) : Nat := ((s.task? i).map (·.phase.startsLeft)).getD 1

theorem startsLeft_of_task? (h : s.task? i = some t) : s.startsLeft i = t.phase.startsLeft := by
  rw [startsLeft, h]
  rfl

theorem move_startsLeft (run : Run s past) (run' : Run s' (s :: past)) (e : Effect s s')
    (stop : s.isCancelled i = true) :
    ∃ es, s'.published i = s.published i ++ es ∧ (∀ e ∈ es, e.kind ≠ .backoffScheduled) ∧
      Event.starts es + s'.startsLeft i ≤ s.startsLeft i := by
  cases h' : s'.task? i with
  | none =>
    have unmade : s.task? i = none := by
      cases h : s.task? i with
      | none => rfl
      | some t =>
        obtain ⟨t', ht'⟩ := e.task? h
        exact absurd (h'.symm.trans ht') nofun
    rw [run.published_of_none unmade, run'.published_of_none h', Supervisor.startsLeft, Supervisor.startsLeft, unmade,
      h']
    exact ⟨[], rfl, nofun, Nat.le_refl _⟩
  | some t' =>
    rw [startsLeft_of_task? h']
    cases e.fate h' with
    | new unmade told =>
      rw [Supervisor.startsLeft, unmade]
      exact ⟨_, told, by simp [Event.added], Nat.le_refl _⟩
    | same h told =>
      rw [startsLeft_of_task? h]
      exact ⟨[], told.trans (List.append_nil _).symm, nofun, Nat.le_of_eq (Nat.zero_add _)⟩
    | goes h g told =>
      rw [startsLeft_of_task? h]
      exact ⟨_, told, g.startsLeft stop⟩
    | ends h d told =>
      obtain ⟨undelayed, none, spent⟩ := d.startsLeft
      refine ⟨_, told, undelayed, ?_⟩
      rw [none, spent]
      exact Nat.zero_le _

/-- What has become of registration `i` since the moment `m`, at which it had been asked to stop. -/
structure Closing (m s : Supervisor) (i : TaskId) : Prop where
  cancelled : s.isCancelled i = true
  told : ∃ news, s.published i = m.published i ++ news ∧ (∀ e ∈ news, e.kind ≠ .backoffScheduled) ∧
    Event.starts news + s.startsLeft i ≤ m.startsLeft i
  final : ∀ u, m.task? i = some u → u.phase.startsLeft = 0 →
    ∃ t, s.task? i = some t ∧ t.attempt = u.attempt ∧ t.phase.startsLeft = 0

theorem Closing.refl (stop : m.isCancelled i = true) : Closing m m i where
  cancelled := stop
  told := ⟨[], (List.append_nil _).symm, nofun, Nat.le_of_eq (Nat.zero_add _)⟩
  final u hu none := ⟨u, hu, rfl, none⟩

theorem Closing.move (c : Closing m s i) (run : Run s past) (run' : Run s' (s :: past)) (e : Effect s s') :
    Closing m s' i where
  cancelled := e.isCancelled c.cancelled
  told := by
    obtain ⟨news, told, undelayed, bound⟩ := c.told
    obtain ⟨es, told', undelayed', bound'⟩ := move_startsLeft run run' e c.cancelled
    refine ⟨news ++ es, by rw [told', told, List.append_assoc], fun e he => ?_, ?_⟩
    · exact (List.mem_append.1 he).elim (undelayed e) (undelayed' e)
    · rw [Event.starts, List.countP_append]
      exact Nat.le_trans (Nat.add_assoc .. ▸ Nat.add_le_add_left bound' _) bound
  final u hu none := by
    obtain ⟨t, ht, attempt, spent⟩ := c.final u hu none
    obtain ⟨t', ht'⟩ := e.task? ht
    rcases (e.fate ht').of_task? ht with rfl | ⟨_, g⟩ | ⟨_, _, d⟩
    · exact ⟨t', ht', attempt, spent⟩
    · exact ⟨t', ht', (g.attempt spent).trans attempt,
        Nat.le_zero.1 (Nat.le_trans (Nat.le_add_left _ _) (spent ▸ (g.startsLeft c.cancelled).2))⟩
    · exact ⟨t', ht', d.attempt.trans attempt, d.startsLeft.2.2⟩

theorem Run.closing (run : Run s past) (hm : m ∈ past) (stop : m.isCancelled i = true) : Closing m s i :=
  run.since (P := fun s => Closing m s i) (fun run run' e c => c.move run run' e) hm (.refl stop)

theorem startsLeft_of_inAttempt {phase : Phase} (h : phase.inAttempt = true) : phase.startsLeft = 0 := by
  cases phase <;> first | rfl | cases h

theorem inAttempt_or_done {phase : Phase} (h : phase.startsLeft = 0) : phase.inAttempt = true ∨ phase = .done := by
  cases phase with
  | attempting | stopping | draining => exact .inl rfl
  | done => exact .inr rfl
  | created | blocked | delayed => cases h

theorem startsLeft_le_one (s : Supervisor) (i : TaskId) : s.startsLeft i ≤ 1 := by
  rw [Supervisor.startsLeft]
  cases s.task? i with
  | none => exact Nat.le_refl _
  | some t => cases phase : t.phase <;> simp [phase, Phase.startsLeft]

/-- After a request to stop, made to one task or to all (also to those registered only later), nothing is scheduled and
at most one attempt starts. An attempt in progress when the request is there is the last: it goes on, or the task has
terminated with it. The units of any attempt find themselves asked to stop, by whichever way they look. -/
theorem last_attempt_of_cancelled (run : Run s past) (hm : m ∈ past) (stop : m.isCancelled i = true) :
    (∃ news, s.published i = m.published i ++ news ∧ (∀ e ∈ news, e.kind ≠ .backoffScheduled) ∧
      news.countP (·.kind = .taskStarting) ≤ 1 ∧
      ∀ u, m.task? i = some u → u.phase.inAttempt = true → ∀ e ∈ news, e.kind ≠ .taskStarting) ∧
    (∀ u t, m.task? i = some u → u.phase.inAttempt = true → s.task? i = some t →
      t.attempt = u.attempt ∧ (t.phase.inAttempt = true ∨ t.isTerminated = true)) ∧
    s.attemptCancelled i = true ∧
    ∀ (system : System) (u : UnitId), system.supervisor = s → u.task = i →
      system.perform u .awaitCancel = some (system, .goOn []) ∧
      ∀ text, system.perform u (.note text) =
        some ({ system with notes := ⟨s.now, system.taskName i, text ++ " shutting_down=true"⟩ :: system.notes },
          .goOn []) := by
  have closing := run.closing hm stop
  have told : s.attemptCancelled i = true := by simp [attemptCancelled, closing.cancelled]
  refine ⟨?_, fun u t hu inside ht => ?_, told, ?_⟩
  · obtain ⟨news, published, undelayed, bound⟩ := closing.told
    refine ⟨news, published, undelayed, ?_, fun u hu inside e he starts => ?_⟩
    · exact Nat.le_trans (Nat.le_of_add_right_le bound) (startsLeft_le_one m i)
    · rw [startsLeft_of_task? hu, startsLeft_of_inAttempt inside] at bound
      have none : Event.starts news = 0 := Nat.le_zero.1 (Nat.le_of_add_right_le bound)
      exact absurd (decide_eq_true starts) (List.countP_eq_zero.1 none e he)
  · obtain ⟨v, hv, attempt, spent⟩ := closing.final u hu (startsLeft_of_inAttempt inside)
    cases ht.symm.trans hv
    refine ⟨attempt, (inAttempt_or_done spent).imp_right fun done => ?_⟩
    exact decide_eq_true ((terminated_iff_done (run.chronicle ht)).2 done)
  · rintro system u rfl rfl
    simp only [System.perform, System.addNote, told]
    refine ⟨rfl, fun text => ?_⟩
    rw [String.append_assoc]
    rfl

/-- A delay is over at the instant at which its task is asked to stop, and goes first: another attempt starts, and
fails. -/
def overtaken : List Act :=
  [.supervise { name := "a", task := "a", retries := true }, .actor 0 .proceed, .actor 0 .proceed,
    .work ⟨0, none⟩ (.ended (.returned (some (.fail "e")))), .actor 0 .proceed, .actor 0 .proceed, .clock 100,
    .stop "a", .actor 0 .proceed, .work ⟨0, none⟩ (.ended (.returned (some (.fail "e")))), .actor 0 .cancel,
    .actor 0 .proceed, .actor 0 .proceed]

theorem last_attempt_of_cancelled_overtaken : ∃ s past m, Run s past ∧ m ∈ past ∧ m.isCancelled 0 = true ∧
    s.published 0 = m.published 0 ++ [.starting "a" 2, .running "a", .ready "a", .shuttingDown "a",
      .failed "a" 2 "e", .terminated "a"] ∧
    (∃ news, s.published 0 = m.published 0 ++ news ∧ (∀ e ∈ news, e.kind ≠ .backoffScheduled) ∧
      news.countP (·.kind = .taskStarting) ≤ 1 ∧
      ∀ u, m.task? 0 = some u → u.phase.inAttempt = true → ∀ e ∈ news, e.kind ≠ .taskStarting) ∧
    (∀ u t, m.task? 0 = some u → u.phase.inAttempt = true → s.task? 0 = some t →
      t.attempt = u.attempt ∧ (t.phase.inAttempt = true ∨ t.isTerminated = true)) ∧
    s.attemptCancelled 0 = true ∧
    ∀ (system : System) (u : UnitId), system.supervisor = s → u.task = 0 →
      system.perform u .awaitCancel = some (system, .goOn []) ∧
      ∀ text, system.perform u (.note text) =
        some ({ system with notes := ⟨s.now, system.taskName 0, text ++ " shutting_down=true"⟩ :: system.notes },
          .goOn []) := by
  obtain ⟨s, past, run, h⟩ := exists_prompt
    (P := fun (s, past) => past.any fun m => m.isCancelled 0 ∧
      s.published 0 = m.published 0 ++ [.starting "a" 2, .running "a", .ready "a", .shuttingDown "a",
        .failed "a" 2 "e", .terminated "a"]) .standard overtaken (by decide +kernel)
  obtain ⟨m, hm, h⟩ := List.any_eq_true.1 h
  obtain ⟨stop, told⟩ := of_decide_eq_true h
  exact ⟨s, past, m, run.run, hm, stop, told, last_attempt_of_cancelled run.run hm stop⟩

end Supervisor

end Switchyard
