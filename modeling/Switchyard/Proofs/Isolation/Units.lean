import Switchyard.Proofs.Execution
import Switchyard.Proofs.Isolation.Locality

/-!
Scripts that call nobody. Main statement: a step of a unit that runs such a script is a turn of its own task alone.
-/
namespace Switchyard

/-- An action that concerns nobody but the task whose unit it is. -/
inductive Action.Own : Action → Prop
  | ready : Own .ready
  | sleep (ms : Nat) : Own (.sleep ms)
  | nap (ms : Nat) : Own (.nap ms)
  | awaitCancel : Own .awaitCancel
  | forever : Own .forever
  | finish (outcome : Outcome) : Own (.finish outcome)
  | panic (reason : String) : Own (.panic reason)
  | spawn {script : Script} (own : ∀ a ∈ script, Own a) : Own (.spawn script)
  | bracket {work cleanup : Script} (own : ∀ a ∈ work, Own a) (ownCleanup : ∀ a ∈ cleanup, Own a) :
      Own (.bracket work cleanup)
  | note (text : String) : Own (.note text)
  | sleepUntil (time : Nat) : Own (.sleepUntil time)
  | napUntil (time : Nat) : Own (.napUntil time)

def Worker.Own (w : Worker Action) : Prop := ∀ script ∈ w.scripts, ∀ a ∈ script, a.Own

def Reaction.Own : Reaction → Prop
  | .goOn more => ∀ a ∈ more, a.Own
  | .bracket work cleanup => (∀ a ∈ work, a.Own) ∧ ∀ a ∈ cleanup, a.Own
  | .finish _ => True
  | .panic _ => True

def Work.Own : Work → Prop
  | .script todo => ∀ a ∈ todo, a.Own
  | .bracket w rest => w.Own ∧ ∀ a ∈ rest, a.Own
  | .cleanup _ w => w.Own

def Progress.Own : Progress → Prop
  | .running w => w.Own
  | .ended _ => True

structure Task.Own (t : Task) : Prop where
  worker : t.worker.Own
  work : t.work.Own
  subUnits : ∀ u ∈ t.subUnits, u.progress.Own

theorem Worker.Own.script {w : Worker Action} (own : w.Own) (n : Nat) : ∀ a ∈ w.script n, a.Own := by
  unfold Worker.script
  split
  next script found => exact own script (List.mem_of_getElem? found)
  next =>
    cases last : w.scripts.getLast? with
    | none => exact nofun
    | some script => exact own script (List.mem_of_getLast? last)

namespace Work

variable {w w' : Work} {r : Reaction}

theorem Own.next (own : w.Own) : w.next.Own := by
  induction w with
  | script todo =>
    cases todo with
    | nil => exact .finish none
    | cons a todo => exact own a List.mem_cons_self
  | bracket w cleanup ih => exact ih own.1
  | cleanup worked w ih => exact ih own

theorem Own.resume (own : w.Own) (reaction : r.Own) : (w.resume r).Own := by
  induction w with
  | script todo =>
    cases r with
    | goOn more =>
      intro a mem
      rcases List.mem_append.1 mem with new | rest
      · exact reaction a new
      · exact own a (List.mem_of_mem_tail rest)
    | bracket work cleanup => exact reaction
    | finish o => trivial
    | panic reason => trivial
  | bracket w cleanup ih =>
    have inner := ih own.1
    unfold Work.resume
    cases resumed : w.resume r with
    | running v =>
      rw [resumed] at inner
      exact ⟨inner, own.2⟩
    | ended e =>
      cases e with
      | returned o => exact own.2
      | panicked reason => trivial
  | cleanup worked w ih =>
    have inner := ih own
    unfold Work.resume
    cases resumed : w.resume r with
    | running v =>
      rw [resumed] at inner
      exact inner
    | ended e =>
      cases e with
      | returned o => trivial
      | panicked reason => trivial

theorem Own.abandon (own : w.Own) {depth : Nat} (h : w.abandon depth = some w') : w'.Own := by
  induction w generalizing depth w' with
  | script todo => cases h
  | bracket w cleanup ih =>
    cases depth with
    | zero =>
      cases h
      exact own.2
    | succ depth =>
      obtain ⟨v, abandoned, rfl⟩ := Option.map_eq_some_iff.1 h
      exact ⟨ih own.1 abandoned, own.2⟩
  | cleanup worked w ih =>
    obtain ⟨v, abandoned, rfl⟩ := Option.map_eq_some_iff.1 h
    have inner : v.Own := ih own abandoned
    exact inner

end Work

/-! ### The turns of units -/

namespace Task

theorem Own.of_unit? {t : Task} (own : t.Own) {sub : Option Nat} {p : Progress} (unit : t.unit? sub = some p) :
    p.Own := by
  cases sub with
  | none =>
    cases unit
    exact own.work
  | some j =>
    obtain ⟨u, found, unit⟩ := Option.bind_eq_some_iff.1 unit
    obtain ⟨_, progress⟩ := Option.ite_none_left_eq_some.1 unit
    cases progress
    exact own.subUnits u (List.mem_of_getElem? found)

/-- What an action that concerns the task alone does to it, and what is told. -/
def perform (x : Surroundings) (t : Task) : Action → Option ((Task × List Event) × Reaction)
  | .ready => some (if t.state = .running then (t.readied, [.ready t.name]) else (t, []), .goOn [])
  | .sleep ms => some ((t, []), .goOn [.sleepUntil (x.now + ms)])
  | .nap ms => some ((t, []), .goOn [.napUntil (x.now + ms)])
  | .awaitCancel => if x.cancelled || t.isDraining then some ((t, []), .goOn []) else none
  | .finish o => some ((t, []), .finish o)
  | .panic reason => some ((t, []), .panic reason)
  | .spawn script =>
    some (({ t with subUnits := t.subUnits ++ [{ progress := .running (.script script) }] }, []), .goOn [])
  | .bracket work cleanup => some ((t, []), .bracket work cleanup)
  | .note _ => some ((t, []), .goOn [])
  | .sleepUntil time => if time ≤ x.now then some ((t, []), .goOn []) else none
  | .napUntil time => if time ≤ x.now then some ((t, []), .goOn []) else none
  | _ => none

def unitTurn (x : Surroundings) (t : Task) (sub : Option Nat) (turn : System.UnitTurn) : Option Change := do
  match ← t.unit? sub with
  | .ended _ => none
  | .running w =>
    match turn with
    | .proceed =>
      let ((t, told), r) ← t.perform x w.next
      some { task := t.withUnit sub (w.resume r), told }
    | .cancel =>
      let r ← System.onCancel w.next
      if x.cancelled || t.isDraining then some { task := t.withUnit sub (w.resume r) } else none
    | .abandon depth =>
      let w ← w.abandon depth
      if x.cancelled || t.isDraining then some { task := t.withUnit sub (.running w) } else none

end Task

namespace System

open Supervisor

variable {s : System} {i : TaskId} {t : Task}

theorem attemptCancelled_of_task? (h : s.supervisor.task? i = some t) :
    s.supervisor.attemptCancelled i = ((s.supervisor.surroundings t).cancelled || t.isDraining) := by
  rw [attemptCancelled, isCancelled_of_task? h, h]
  rfl

/-- An action of its own does to the supervisor what it does to the task. -/
theorem perform_own (h : s.supervisor.task? i = some t) (sub : Option Nat) {a : Action} (own : a.Own) :
    (s.perform ⟨i, sub⟩ a).map (fun p => (p.1.supervisor, p.2)) =
      (t.perform (s.supervisor.surroundings t) a).map
        fun p => (s.supervisor.amend i p.1.1 p.1.2, p.2) := by
  have still : s.supervisor = s.supervisor.amend i t [] := (amend_nil h).symm
  have waits (p : Prop) [Decidable p] : (if p then some (s, Reaction.goOn []) else none).map
      (fun p => (p.1.supervisor, p.2)) =
        (if p then some ((t, ([] : List Event)), Reaction.goOn []) else none).map
          fun p => (s.supervisor.amend i p.1.1 p.1.2, p.2) := by
    split
    · exact congrArg (fun sup => some (sup, Reaction.goOn [])) still
    · rfl
  cases own with
  | ready =>
    have amended : (s.supervisor.amend i t []).markReady i = _ := markReady_amend (lt_of_task? h)
    rw [amend_nil h] at amended
    simp only [System.perform, Task.perform, Option.map_some, onSupervisor, amended]
    split
    · rfl
    · exact congrArg (fun sup => some (sup, Reaction.goOn [])) still
  | spawn own => exact congrArg (fun sup => some (sup, Reaction.goOn [])) (modifyTask_eq h _)
  | awaitCancel =>
    rw [System.perform, Task.perform, attemptCancelled_of_task? h]
    exact waits _
  | sleepUntil time => exact waits _
  | napUntil time => exact waits _
  | forever => rfl
  | sleep ms => exact congrArg (fun sup => some (sup, Reaction.goOn _)) still
  | nap ms => exact congrArg (fun sup => some (sup, Reaction.goOn _)) still
  | finish o => exact congrArg (fun sup => some (sup, Reaction.finish o)) still
  | panic reason => exact congrArg (fun sup => some (sup, Reaction.panic reason)) still
  | bracket own ownCleanup => exact congrArg (fun sup => some (sup, Reaction.bracket _ _)) still
  | note text => exact congrArg (fun sup => some (sup, Reaction.goOn [])) still

theorem unitStep_own (h : s.supervisor.task? i = some t) (own : t.Own) (sub : Option Nat) (turn : UnitTurn) :
    (s.unitStep ⟨i, sub⟩ turn).map (·.supervisor) =
      (t.unitTurn (s.supervisor.surroundings t) sub turn).map (s.supervisor.apply i) := by
  have sets (p : Progress) : s.supervisor.setProgress ⟨i, sub⟩ p = s.supervisor.apply i { task := t.withUnit sub p } :=
    modifyTask_eq h _
  have cancelled := attemptCancelled_of_task? h
  unfold unitStep Task.unitTurn
  rw [progress?_eq h]
  cases unit : t.unit? sub with
  | none => rfl
  | some p =>
    cases p with
    | ended e => rfl
    | running w =>
      have ownWork : w.Own := own.of_unit? unit
      simp only [Option.bind_eq_bind, Option.bind_some]
      cases turn with
      | proceed =>
        have performed : _ = (t.perform _ w.next).map _ := perform_own h sub ownWork.next
        cases acts : t.perform (s.supervisor.surroundings t) w.next with
        | none =>
          rw [acts] at performed
          rw [Option.map_eq_none_iff.1 performed]
          rfl
        | some result =>
          obtain ⟨⟨t', told⟩, r⟩ := result
          rw [acts] at performed
          obtain ⟨⟨s₁, r₁⟩, acts₁, same⟩ := Option.map_eq_some_iff.1 performed
          obtain ⟨supervisor, reaction⟩ := Prod.mk.inj same
          have supervisor : s₁.supervisor = s.supervisor.amend i t' told := supervisor
          have reaction : r₁ = r := reaction
          rw [acts₁]
          simp only [Option.bind_some, Option.map_some, onSupervisor, supervisor, reaction]
          exact congrArg some (modifyTask_amend (lt_of_task? h) _)
      | cancel =>
        cases onCancel w.next with
        | none => rfl
        | some r =>
          simp only [Option.bind_some, cancelled]
          split
          · exact congrArg some (sets _)
          · rfl
      | abandon depth =>
        dsimp only
        cases w.abandon depth with
        | none => rfl
        | some w' =>
          simp only [Option.bind_some, cancelled]
          split
          · exact congrArg some (sets _)
          · rfl

end System

end Switchyard
