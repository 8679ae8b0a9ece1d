import Mathlib.Logic.Relation
import Switchyard.Proofs.Supervision.Effect
import Switchyard.Schedule

/-!
The schedule takes only steps that are open. Main statement: once its line is empty, no step is.
-/
namespace Switchyard.System

open Supervisor

variable {s s' : System} {u : UnitId} {i : TaskId} {t : Task}

/-- What happens in an instant. -/
def Steps : System → System → Prop := Relation.ReflTransGen fun s s' => ∃ l, s.step l = some s'

theorem steps_stepThread {th : Thread} (h : s.stepThread th = some s') : s.Steps s' := by
  obtain ⟨l, _, step⟩ := List.exists_of_findSome?_eq_some h
  exact .single ⟨l, step⟩

theorem steps_runThread (fuel : Nat) (s : System) (th : Thread) : s.Steps (runThread fuel s th) := by
  induction fuel generalizing s with
  | zero => exact .refl
  | succ fuel ih =>
    unfold System.runThread
    split
    next s' step => exact (steps_stepThread step).trans (ih s')
    next => exact .refl

theorem steps_settleFrom (fuel : Nat) (line : List Thread) (s : System) : s.Steps (settleFrom fuel line s) := by
  induction fuel generalizing s line with
  | zero => exact .refl
  | succ fuel ih =>
    unfold System.settleFrom
    split
    next => exact .refl
    next => exact (steps_runThread ..).trans (ih ..)

theorem steps_settled (s : System) : s.Steps s.settled := steps_settleFrom ..

/-! ### Who is not a thread can do nothing -/

theorem mem_threads (h : s.supervisor.task? i = some t) {th : Thread} (mem : th ∈ taskThreads i t) : th ∈ s.threads := by
  have place : (t, i) ∈ s.supervisor.tasks.zipIdx := List.mem_zipIdx_iff_getElem?.2 h
  exact List.mem_append_left _ (List.mem_append_right _ (List.mem_flatMap.2 ⟨(t, i), place, mem⟩))

theorem mem_taskThreads_unit (i : TaskId) {sub : Option Nat} {p : Progress} (unit : t.unit? sub = some p) :
    Thread.unit ⟨i, sub⟩ ∈ taskThreads i t := by
  cases sub with
  | none => simp [taskThreads]
  | some j =>
    obtain ⟨u, found, _⟩ := Option.bind_eq_some_iff.1 unit
    have inside : j < t.subUnits.length := (List.getElem?_eq_some_iff.1 found).1
    simp [taskThreads, inside]

theorem abandon_of_brackets_le {w : Work} {depth : Nat} (h : w.brackets ≤ depth) : w.abandon depth = none := by
  induction w generalizing depth with
  | script todo => rfl
  | bracket w cleanup ih =>
    cases depth with
    | zero => exact absurd h (Nat.not_succ_le_zero _)
    | succ depth => exact Option.map_eq_none_iff.2 (ih (Nat.le_of_succ_le_succ h))
  | cleanup worked w ih => exact Option.map_eq_none_iff.2 (ih h)

/-- Every step that is open is one of those that some thread tries. -/
theorem exists_thread {l : Label} (h : s.step l = some s') : ∃ th ∈ s.threads, l ∈ th.labels s := by
  cases l with
  | actor i turn =>
    obtain ⟨sup, steps, _⟩ := Option.map_eq_some_iff.1 h
    obtain ⟨t, ht, _⟩ := Option.bind_eq_some_iff.1 steps
    have mem : Thread.actor i ∈ taskThreads i t := by simp [taskThreads]
    exact ⟨_, mem_threads ht mem, by cases turn <;> simp [Thread.labels]⟩
  | watch i j =>
    obtain ⟨sup, steps, _⟩ := Option.map_eq_some_iff.1 h
    obtain ⟨t, ht, steps⟩ := Option.bind_eq_some_iff.1 steps
    obtain ⟨u, found, _⟩ := Option.bind_eq_some_iff.1 steps
    have inside : j < t.subUnits.length := (List.getElem?_eq_some_iff.1 found).1
    have mem : Thread.watch i j ∈ taskThreads i t := by simp [taskThreads, inside]
    exact ⟨_, mem_threads ht mem, List.mem_cons_self⟩
  | deliver box =>
    obtain ⟨m, found, _⟩ := Option.bind_eq_some_iff.1 h
    have inside : box < s.supervisor.mailboxes.length := (List.getElem?_eq_some_iff.1 found).1
    have mem : Thread.listener box ∈ s.threads := by simp [threads, inside]
    exact ⟨_, mem, List.mem_cons_self⟩
  | reconciler =>
    have mem : Thread.reconciler ∈ s.threads := by simp [threads]
    exact ⟨_, mem, List.mem_cons_self⟩
  | unit u turn =>
    obtain ⟨p, unit, steps⟩ := Option.bind_eq_some_iff.1 h
    obtain ⟨t, ht, _⟩ := Option.bind_eq_some_iff.1 unit
    have found : t.unit? u.sub = some p := (progress?_eq ht u.sub).symm.trans unit
    refine ⟨.unit u, mem_threads ht (mem_taskThreads_unit u.task found), ?_⟩
    cases p with
    | ended e => cases steps
    | running w =>
      simp only [Thread.labels, unitLabels, unit]
      cases turn with
      | proceed => simp
      | cancel => simp
      | abandon depth =>
        obtain ⟨w', abandons, _⟩ := Option.bind_eq_some_iff.1 steps
        have inside : depth < w.brackets := Nat.lt_of_not_le fun beyond =>
          nomatch (abandon_of_brackets_le beyond).symm.trans abandons
        simp [inside]

/-- Nobody stands in the line any more exactly when nothing can happen. -/
theorem lineUp_eq_nil_iff (s : System) : s.lineUp [] = [] ↔ s.Settled := by
  have empty : s.lineUp [] = [] ↔ ∀ th ∈ s.threads, s.stepThread th = none := by simp [lineUp]
  rw [empty]
  constructor
  · intro closed l
    cases step : s.step l with
    | none => rfl
    | some s' =>
      obtain ⟨th, mem, tried⟩ := exists_thread step
      have shut := List.findSome?_eq_none_iff.1 (closed th mem) l tried
      exact step.symm.trans shut
  · intro settled th _
    exact List.findSome?_eq_none_iff.2 fun l _ => settled l

end Switchyard.System
