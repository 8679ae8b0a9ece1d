import Mathlib.Data.List.Perm.Basic
import Switchyard.Proofs.Supervision.Failures
import Switchyard.Proofs.Supervision.Names

/-!
The count of tasks alive. Main statement: it is the number of registrations that have not terminated, so whoever waits
for it to become zero finds that all have, and learns of every failure.
-/
namespace Switchyard

/-- The failure with which a task has ended, as the supervisor lists it. -/
def Task.failureEntry? (t : Task) : Option Failure := t.failure?.map (⟨t.name, ·⟩)

namespace Supervisor

variable {s s' : Supervisor} {i k : TaskId} {t t' : Task} {es : List Event} {past : List Supervisor}
  {error : Option TaskError}

/-! ### Counting -/

/-- How many registrations have not terminated. -/
def alive (s : Supervisor) : Nat := s.tasks.countP (!·.isTerminated)

theorem alive_amend_of_same (h : s.task? i = some t) (same : t'.isTerminated = t.isTerminated) :
    (s.amend i t' es).alive = s.alive := by
  obtain ⟨hi, ht⟩ := List.getElem?_eq_some_iff.1 h
  have counted := List.boole_getElem_le_countP (p := fun t : Task => !t.isTerminated) hi
  rw [alive, alive, tasks_amend, List.countP_set hi]
  rw [ht] at counted ⊢
  rw [same]
  exact Nat.sub_add_cancel counted

theorem alive_amend_of_end (h : s.task? i = some t) (before : t.isTerminated = false)
    (after : t'.isTerminated = true) : (s.amend i t' es).alive + 1 = s.alive := by
  obtain ⟨hi, ht⟩ := List.getElem?_eq_some_iff.1 h
  have counted := List.boole_getElem_le_countP (p := fun t : Task => !t.isTerminated) hi
  rw [alive, alive, tasks_amend, List.countP_set hi]
  rw [ht] at counted ⊢
  simp only [before, after, Bool.not_false, Bool.not_true, if_pos, Bool.false_eq_true, if_false] at counted ⊢
  exact Nat.sub_add_cancel counted

theorem Run.isTerminated_iff (run : Run s past) (h : s.task? i = some t) :
    t.isTerminated = true ↔ t.phase = .done := by
  rw [Task.isTerminated_iff, terminated_iff_done (run.chronicle h)]

theorem Goes.isTerminated (run : Run s past) (h : s.task? i = some t) (g : Goes s i t t' es) :
    t'.isTerminated = t.isTerminated := by
  have after := terminated_iff_done (chronicle_goes (run.chronicle h) g)
  rw [Bool.eq_iff_iff, run.isTerminated_iff h, ← g.done_iff, Task.isTerminated_iff, after]

theorem Ends.isTerminated (run : Run s past) (h : s.task? i = some t) (d : Ends s i t t' es error) :
    t.isTerminated = false ∧ t'.isTerminated = true := by
  refine ⟨Bool.eq_false_iff.2 fun dead => ?_, decide_eq_true d.done.2⟩
  exact d.not_done ((run.isTerminated_iff h).1 dead)

/-- A move ends one task and takes it off the count, or it ends none. -/
theorem Effect.census (run : Run s past) (e : Effect s s') :
    (s'.live = s.live - 1 ∧ s'.alive + 1 = s.alive) ∨
      (∀ i t t', s.task? i = some t → s'.task? i = some t' → t'.isTerminated = t.isTerminated) ∧
        ∃ n, s'.live = s.live + n ∧ s'.alive = s.alive + n := by
  have untouched {k : TaskId} {t t' : Task} (h : s.task? k = some t) (h' : s.task? k = some t') :
      t'.isTerminated = t.isTerminated := by
    cases h.symm.trans h'
    rfl
  cases e with
  | @goes i t u es h g =>
    have same := g.isTerminated run h
    refine .inr ⟨fun k v v' hv hv' => ?_, 0, live_amend .., alive_amend_of_same h same⟩
    by_cases hk : k = i
    · subst hk
      cases h.symm.trans hv
      cases (task?_amend_self (lt_of_task? h)).symm.trans hv'
      exact same
    · exact untouched hv ((task?_amend_of_ne hk).symm.trans hv')
  | ends h d =>
    obtain ⟨before, after⟩ := d.isTerminated run h
    exact .inl ⟨congrArg (· - 1) (live_amend ..), alive_amend_of_end h before after⟩
  | supervise registered =>
    refine .inr ⟨fun k v v' hv hv' => ?_, 1, ?_, ?_⟩
    · rw [task?_supervise registered, if_neg (Nat.ne_of_lt (lt_of_task? hv))] at hv'
      exact untouched hv hv'
    · rw [supervise_eq registered]
    · rw [supervise_eq registered, alive, List.countP_append]
      rfl
  | shutdown down =>
    rw [shutdown_eq down]
    exact .inr ⟨fun k v v' => untouched, 0, rfl, rfl⟩
  | aside => exact .inr ⟨fun k v v' => untouched, 0, rfl, rfl⟩

theorem Run.live_eq_alive (run : Run s past) : s.live = s.alive := by
  induction run with
  | start => rfl
  | @move s s' past run a m ih =>
    rcases (act_effect m).census run with ⟨live, alive⟩ | ⟨_, n, live, alive⟩
    · rw [live, ih, ← alive, Nat.add_sub_cancel]
    · rw [live, alive, ih]

/-! ### When nobody is alive -/

/-- Everybody has ended, and `fs` has one entry for each registration whose last attempt has failed. -/
structure Concluded (s : Supervisor) (fs : List Failure) : Prop where
  ended : ∀ t ∈ s.tasks, t.isTerminated = true
  complete : fs.Perm (s.tasks.filterMap Task.failureEntry?)
  told : ∀ i t, s.task? i = some t →
    lastFailure (s.published i) = t.failure?.map fun e => .failed t.name t.attempt e.message

/-- All registrations have terminated, each at some place of the order. -/
theorem Run.terminations_perm (run : Run s past) (ended : ∀ t ∈ s.tasks, t.isTerminated = true) :
    s.terminations.Perm (List.range s.tasks.length) := by
  refine (List.perm_ext_iff_of_nodup run.failures_eq.2 List.nodup_range).2 fun i => ?_
  rw [run.mem_terminations_iff, List.mem_range]
  constructor
  · rintro ⟨t, ht, _⟩
    exact lt_of_task? ht
  · intro hi
    have ht : s.task? i = some s.tasks[i] := List.getElem?_eq_getElem hi
    exact ⟨_, ht, (run.isTerminated_iff ht).1 (ended _ (List.getElem_mem hi))⟩

theorem filterMap_failureOf_range (s : Supervisor) :
    ((List.range s.tasks.length).filterMap s.failureOf).map Prod.snd = s.tasks.filterMap Task.failureEntry? := by
  have all : (List.range s.tasks.length).map s.task? = s.tasks.map some := by
    apply List.ext_getElem?
    intro i
    by_cases hi : i < s.tasks.length
    · simp [hi, task?]
    · simp [Nat.le_of_not_lt hi]
  have entry (i : TaskId) : (s.failureOf i).map Prod.snd = (s.task? i).bind Task.failureEntry? := by
    rw [failureOf]
    cases s.task? i with
    | none => rfl
    | some t => rw [Option.bind_some, Option.bind_some, Option.map_map]; rfl
  calc ((List.range s.tasks.length).filterMap s.failureOf).map Prod.snd
      = (List.range s.tasks.length).filterMap fun i => (s.task? i).bind Task.failureEntry? := by
        rw [List.map_filterMap, List.filterMap_congr fun i _ => entry i]
    _ = ((List.range s.tasks.length).map s.task?).filterMap (·.bind Task.failureEntry?) := by
        rw [List.filterMap_map]; rfl
    _ = s.tasks.filterMap Task.failureEntry? := by
        rw [all, List.filterMap_map]; rfl

theorem Run.concluded (run : Run s past) (h : s.live = 0) : s.Concluded s.failureList := by
  have ended : ∀ t ∈ s.tasks, t.isTerminated = true := by
    have none : s.alive = 0 := run.live_eq_alive.symm.trans h
    simpa [alive] using none
  refine ⟨ended, ?_, fun i t ht => ?_⟩
  · have recorded := congrArg (List.map Prod.snd) run.failures_eq.1
    rw [List.map_map] at recorded
    have listed : s.failureList = (s.terminations.filterMap s.failureOf).map Prod.snd := recorded
    rw [listed, ← filterMap_failureOf_range]
    exact ((run.terminations_perm ended).filterMap _).map _
  · have account := run.accounted ht
    rw [Task.Accounted, (run.isTerminated_iff ht).1 (ended t (List.mem_of_getElem? ht))] at account
    exact account.2

end Supervisor

namespace Session

open Supervisor

variable {s s' : Session} {fs : List Failure}

theorem failures_perm (s : Session) : s.failures.Perm s.system.supervisor.failureList :=
  (List.mergeSort_perm _ _).map _

/-- The wait for all tasks ends when nobody is alive, and answers with what has been recorded until then. -/
theorem reply_run (h : s.reply .run = (.finished (some fs), s')) :
    s'.system.supervisor.live = 0 ∧ fs.Perm s'.system.supervisor.failureList := by
  have met := blocking_done (s := s) (fun system => system.supervisor.live = 0) fun _ _ => rfl
  rw [reply] at h
  cases ran : s.blocking fun system => system.supervisor.live = 0 with
  | mk finished waited =>
    rw [ran] at h met
    cases finished with
    | false => cases h
    | true =>
      cases h
      exact ⟨of_decide_eq_true (met rfl), failures_perm _⟩

theorem concluded_of_reply (reached : s.system.Reached) (h : s.reply .run = (.finished (some fs), s')) :
    s'.system.supervisor.Concluded fs := by
  have kept := reply_reached reached .run
  rw [h] at kept
  obtain ⟨past, run⟩ := kept.run
  obtain ⟨live, listed⟩ := reply_run h
  have all := run.concluded live
  exact ⟨all.ended, listed.trans all.complete, all.told⟩

end Session

namespace Supervisor

variable {s : Supervisor} {past : List Supervisor}

/-- The count is exact, and the move that ends a task takes one off it. When it is zero, everybody has ended and every
failure is in the list, and a caller's wait for all tasks is answered only then. -/
theorem live_counts_registrations (run : Run s past) :
    s.live = s.tasks.countP (!·.isTerminated) ∧
    (∀ a s' i t t', s.act a = some s' → s.task? i = some t → s'.task? i = some t' → t.isTerminated = false →
      t'.isTerminated = true → s.live = s'.live + 1) ∧
    (s.live = 0 → s.Concluded s.failureList) ∧
    ∀ (caller caller' : Session) fs, caller.system.Reached → caller.reply .run = (.finished (some fs), caller') →
      caller'.system.supervisor.Concluded fs := by
  refine ⟨run.live_eq_alive, fun a s' i t t' m ht ht' before after => ?_, run.concluded, ?_⟩
  · rcases (act_effect m).census run with ⟨_, fewer⟩ | ⟨kept, _⟩
    · rw [run.live_eq_alive, (run.move m).live_eq_alive, fewer]
    · exact absurd (after.symm.trans ((kept i t t' ht ht').trans before)) Bool.noConfusion
  · intro caller caller' fs reached answered
    exact Session.concluded_of_reply reached answered

/-- One task fails for good, another one takes its name and waits for a third that nobody has registered. -/
def renamed : List Act :=
  [.supervise { name := "a", task := "a" }, .actor 0 .proceed, .actor 0 .proceed,
    .work ⟨0, none⟩ (.ended (.returned (some (.fail "e")))), .actor 0 .proceed, .actor 0 .proceed,
    .supervise { name := "a", task := "b", requires := ["c"] }, .actor 1 .proceed]

theorem live_counts_registrations_renamed : ∃ s past, Run s past ∧ s.tasks.length = 2 ∧ s.live = 1 ∧
    s.live = s.tasks.countP (!·.isTerminated) ∧
    (∀ a s' i t t', s.act a = some s' → s.task? i = some t → s'.task? i = some t' → t.isTerminated = false →
      t'.isTerminated = true → s.live = s'.live + 1) ∧
    (s.live = 0 → s.Concluded s.failureList) ∧
    ∀ (caller caller' : Session) fs, caller.system.Reached → caller.reply .run = (.finished (some fs), caller') →
      caller'.system.supervisor.Concluded fs := by
  obtain ⟨s, past, run, h⟩ := exists_run (P := fun s => s.tasks.length = 2 ∧ s.live = 1) renamed (by decide +kernel)
  obtain ⟨registered, live⟩ := of_decide_eq_true h
  exact ⟨s, past, run, registered, live, live_counts_registrations run⟩

end Supervisor

end Switchyard
