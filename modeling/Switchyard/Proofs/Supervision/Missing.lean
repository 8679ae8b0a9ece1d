import Mathlib.Data.List.Perm.Basic
import Switchyard.Proofs.Dictionary
import Switchyard.Proofs.Supervision.Requirements

/-!
Requirements that nobody has registered. Main statement: the supervisor reports every registration that waits for one,
once and with all such names, and what it reports holds the task back until they are registered.
-/
namespace Switchyard

/-- Events of a task that has taken its first step, and neither started nor ended. -/
def Event.Waiting (es : List Event) : Prop :=
  (∃ e ∈ es, e.kind = .taskBlocked) ∧ ∀ e ∈ es, e.kind ≠ .taskStarting ∧ e.kind ≠ .taskTerminated

namespace Supervisor

variable {s s' : Supervisor} {i : TaskId} {t : Task} {es : List Event} {past past' : List Supervisor}
  {cancelled : Bool} {e : SupervisorError}

/-! ### Who waits -/

theorem not_waiting_of_attempted {stopped : Bool} (a : t.Attempted stopped es) : ¬ Event.Waiting es := by
  rintro ⟨_, unstarted⟩
  obtain ⟨rs, ready, _, _, rfl⟩ := a
  exact (unstarted (.starting t.name (rs.length + 1)) (by simp [Course.attempt])).1 rfl

theorem not_waiting_of_retried {rs : List Retried} {r : Retried} :
    ¬ Event.Waiting (Course.opening t.name ++ Course.retries t.name (rs ++ [r])) := by
  rintro ⟨_, unstarted⟩
  refine (unstarted (.starting t.name (rs.length + 1)) ?_).1 rfl
  rw [Course.retries_snoc]
  simp [Course.attempt]

theorem not_waiting_of_whole {rs : List Retried} {a : Option Attempt} :
    ¬ Event.Waiting (Course.whole t.name rs a) := by
  rintro ⟨_, unended⟩
  exact (unended (.terminated t.name) (by simp [Course.whole])).2 rfl

/-- The events of a task say whether it is blocked. -/
theorem blocked_iff_waiting (c : t.Chronicle cancelled es) : t.state = .blocked ↔ Event.Waiting es := by
  constructor
  · intro blocked
    obtain ⟨pending, parked, phase⟩ := phase_of_blocked c blocked
    rw [Task.Chronicle, phase] at c
    obtain ⟨_, _, rfl⟩ := c
    exact ⟨⟨.blocked t.name, by simp [Course.opening], rfl⟩,
      by simp [Course.opening, Event.added, Event.blocked]⟩
  · intro waiting
    unfold Task.Chronicle at c
    split at c
    case h_1 =>
      obtain ⟨_, _, rfl⟩ := c
      obtain ⟨e, he, kind⟩ := waiting.1
      rw [List.mem_singleton.1 he] at kind
      cases kind
    case h_2 => exact c.1
    case h_3 => exact absurd waiting (not_waiting_of_attempted c)
    case h_4 => exact absurd waiting (not_waiting_of_attempted c.2)
    case h_5 =>
      rcases c with c | ⟨_, c⟩
      · exact absurd waiting (not_waiting_of_attempted c)
      · exact absurd waiting (not_waiting_of_attempted c)
    case h_6 =>
      obtain ⟨rs, r, _, _, _, rfl⟩ := c
      exact absurd waiting not_waiting_of_retried
    case h_7 =>
      obtain ⟨rs, a, _, _, rfl⟩ := c
      exact absurd waiting not_waiting_of_whole

/-! ### What is reported -/

/-- The names that a task requires and nobody has registered, each as often as it is required. -/
def missing (s : Supervisor) (t : Task) : List String := t.worker.requires.filter fun r => !s.registry.contains r

/-- What is reported of a registration. -/
def report? (s : Supervisor) (i : TaskId) : Option SupervisorError := do
  let t ← s.task? i
  if t.state ≠ .blocked then none
  if (s.missing t).isEmpty then none else some (.unsatisfiable t.name (s.missing t))

theorem unsatisfied_perm (s : Supervisor) : s.unsatisfied.Perm (s.registry.values.filterMap s.report?) :=
  List.mergeSort_perm _ _

theorem report?_eq_some_iff : s.report? i = some e ↔
    ∃ t, s.task? i = some t ∧ t.state = .blocked ∧ s.missing t ≠ [] ∧ e = .unsatisfiable t.name (s.missing t) := by
  simp [report?, Option.bind_eq_some_iff, @eq_comm _ e]

/-- What is reported of a registration that the registry leads to bears the name that leads there. -/
theorem Run.name_of_report? (run : Run s past) {name : String} (found : s.lookup name = some i)
    (h : s.report? i = some e) : ∃ names, e = .unsatisfiable name names := by
  obtain ⟨t, ht, _, _, rfl⟩ := report?_eq_some_iff.1 h
  obtain ⟨u, hu, named⟩ := run.name_of_lookup found
  cases ht.symm.trans hu
  exact ⟨_, by rw [named]⟩

theorem Run.nodup_unsatisfied (run : Run s past) : s.unsatisfied.Nodup := by
  refine s.unsatisfied_perm.nodup_iff.2 ?_
  rw [Dictionary.values, List.filterMap_map, List.Nodup, List.pairwise_filterMap]
  refine (List.pairwise_map.1 s.registry.nodup_keys).imp_of_mem fun {a b} ha hb differ e he e' he' same => ?_
  obtain ⟨_, rfl⟩ := run.name_of_report? (Dictionary.mem_entries_iff.1 ha) he
  obtain ⟨_, rfl⟩ := run.name_of_report? (Dictionary.mem_entries_iff.1 hb) he'
  exact differ (SupervisorError.unsatisfiable.inj same).1

theorem Run.mem_unsatisfied_iff (run : Run s past) : e ∈ s.unsatisfied ↔
    ∃ i t, s.lookup t.name = some i ∧ s.task? i = some t ∧ Event.Waiting (s.published i) ∧ s.missing t ≠ [] ∧
      e = .unsatisfiable t.name (s.missing t) := by
  simp only [s.unsatisfied_perm.mem_iff, List.mem_filterMap, report?_eq_some_iff]
  constructor
  · rintro ⟨i, listed, t, ht, blocked, lacks, rfl⟩
    obtain ⟨⟨name, _⟩, entry, rfl⟩ := List.mem_map.1 listed
    have found := Dictionary.mem_entries_iff.1 entry
    obtain ⟨u, hu, rfl⟩ := run.name_of_lookup found
    cases ht.symm.trans hu
    exact ⟨_, t, found, ht, (blocked_iff_waiting (run.chronicle ht)).1 blocked, lacks, rfl⟩
  · rintro ⟨i, t, found, ht, waiting, lacks, rfl⟩
    have listed : i ∈ s.registry.values := List.mem_map.2 ⟨_, Dictionary.mem_entries_iff.2 found, rfl⟩
    exact ⟨i, listed, t, ht, (blocked_iff_waiting (run.chronicle ht)).2 waiting, lacks, rfl⟩

/-- Each registration that the registry leads to, that has begun to wait and neither started nor terminated, and that
requires names nobody has registered, is reported once, with these names. However the run goes on, it does not start
before each of them has been registered. -/
theorem unsatisfied_exact (run : Run s past) :
    s.unsatisfied.Nodup ∧
    (∀ e, e ∈ s.unsatisfied ↔
      ∃ i t, s.lookup t.name = some i ∧ s.task? i = some t ∧ Event.Waiting (s.published i) ∧ s.missing t ≠ [] ∧
        e = .unsatisfiable t.name (s.missing t)) ∧
    ∀ name names, .unsatisfiable name names ∈ s.unsatisfied → ∀ i, s.lookup name = some i →
      ∀ s' past', Run s' past' → s ∈ past' → ∀ l ∈ s'.history, l.source = some i →
        l.published.event.kind = .taskStarting → ∀ r ∈ names,
          s.lookup r = none ∧ ∃ m ∈ past', m.nextSeq ≤ l.published.seq ∧ (m.lookup r).isSome := by
  refine ⟨run.nodup_unsatisfied, fun e => run.mem_unsatisfied_iff, ?_⟩
  intro name names listed i found s' past' run' earlier l hl source kind r hr
  obtain ⟨j, t, found', ht, _, _, same⟩ := run.mem_unsatisfied_iff.1 listed
  obtain ⟨rfl, rfl⟩ := SupervisorError.unsatisfiable.inj same
  cases found.symm.trans found'
  obtain ⟨required, absent⟩ := List.mem_filter.1 hr
  obtain ⟨t', ht', worker⟩ := run'.worker earlier ht
  obtain ⟨k, ⟨m, hm, before, _, led⟩, _⟩ :=
    run'.released ht' l hl source (.inl kind) r (worker ▸ required)
  exact ⟨by simpa [Dictionary.contains, lookup] using absent, m, hm, before, Option.isSome_of_eq_some led⟩

/-- A task that waits for two others, one of which nobody has registered when it is reported. -/
def halfMet : List Act :=
  [.supervise { name := "b", task := "b" }, .supervise { name := "a", task := "a", requires := ["b", "c"] },
    .actor 1 .proceed]

theorem unsatisfied_exact_halfMet : ∃ s past, Run s past ∧ s.unsatisfied = [.unsatisfiable "a" ["c"]] ∧
    s.unsatisfied.Nodup ∧
    (∀ e, e ∈ s.unsatisfied ↔
      ∃ i t, s.lookup t.name = some i ∧ s.task? i = some t ∧ Event.Waiting (s.published i) ∧ s.missing t ≠ [] ∧
        e = .unsatisfiable t.name (s.missing t)) ∧
    ∀ name names, .unsatisfiable name names ∈ s.unsatisfied → ∀ i, s.lookup name = some i →
      ∀ s' past', Run s' past' → s ∈ past' → ∀ l ∈ s'.history, l.source = some i →
        l.published.event.kind = .taskStarting → ∀ r ∈ names,
          s.lookup r = none ∧ ∃ m ∈ past', m.nextSeq ≤ l.published.seq ∧ (m.lookup r).isSome := by
  obtain ⟨s, past, run, h⟩ := exists_run (P := fun s => s.unsatisfied = [.unsatisfiable "a" ["c"]]) halfMet
    (by decide +kernel)
  exact ⟨s, past, run, of_decide_eq_true h, unsatisfied_exact run⟩

/-- Right after its registration a task is not reported yet, whatever it lacks; its first step makes it so. A name that
it requires twice is then listed twice. -/
theorem unreported_at_first : ∃ s past, Run s past ∧ s.published 0 = [.added "a"] ∧
    (s.task? 0).map s.missing = some ["b", "b"] ∧ s.unsatisfied = [] ∧
    (s.actorStep 0 .proceed).map (·.unsatisfied) = some [.unsatisfiable "a" ["b", "b"]] := by
  obtain ⟨s, past, run, h⟩ := exists_run
    (P := fun s => s.published 0 = [.added "a"] ∧ (s.task? 0).map s.missing = some ["b", "b"] ∧ s.unsatisfied = [] ∧
      (s.actorStep 0 .proceed).map (·.unsatisfied) = some [.unsatisfiable "a" ["b", "b"]])
    [.supervise { name := "a", task := "a", requires := ["b", "b"] }] (by decide +kernel)
  exact ⟨s, past, run, of_decide_eq_true h⟩

end Supervisor

end Switchyard
