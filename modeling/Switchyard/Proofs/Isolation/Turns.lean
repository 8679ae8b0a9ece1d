import Switchyard.Proofs.Isolation.Units

/-!
The turns of a task: of its loop, of its units, of the watches over sub-units. Main statement: while all scripts call
nobody, every step of a system is a turn of one task alone, or a look at a requirement, or shows on no task; and every
turn that is open to a task is a step.
-/
namespace Switchyard

/-- What can become of a task: a turn of its loop, of a unit, or of the watch over a sub-unit. -/
inductive Inner where
  | loop (turn : Turn)
  | unit (sub : Option Nat) (turn : System.UnitTurn)
  | watch (sub : Nat)

namespace Task

def inner (x : Surroundings) (t : Task) : Inner → Option Change
  | .loop turn => t.turn x turn
  | .unit sub turn => t.unitTurn x sub turn
  | .watch j => t.watchTurn j

end Task

/-! ### What all turns have in common -/

def Change.unparked (c : Change) : Change := { c with task := c.task.unparked }

/-- It is the same task after the change, only of this one is told, and nothing new has been looked at. -/
structure Change.Proper (t : Task) (c : Change) : Prop where
  worker : c.task.worker = t.worker
  told : ∀ e ∈ c.told, e.task = some t.name
  parked : ∀ pending p, c.task.phase = .blocked pending (some p) → t.phase = .blocked pending (some p)
  own : t.Own → c.task.Own

namespace Task

variable {t : Task} {x : Surroundings} {c : Change}

theorem start_proper (t : Task) : t.start.Proper t where
  worker := rfl
  told e mem := by
    simp only [start, beginning, Course.attempt, List.mem_append, List.mem_cons, List.not_mem_nil, or_false] at mem
    rcases mem with (((rfl | rfl) | mem) | mem) | mem
    · rfl
    · rfl
    · split at mem
      · cases List.mem_singleton.1 mem
        rfl
      · cases mem
    · cases mem
    · cases mem
  parked := nofun
  own own := ⟨own.worker, own.worker.script _, nofun⟩

theorem finish_proper {told : List Event} (named : ∀ e ∈ told, e.task = some t.name) (error : Option TaskError) :
    (t.finish told error).Proper t where
  worker := rfl
  told e mem := by
    rcases List.mem_append.1 mem with before | last
    · exact named e before
    · cases List.mem_singleton.1 last
      rfl
  parked := nofun
  own own := ⟨own.worker, own.work, own.subUnits⟩

theorem close_proper (x : Surroundings) (t : Task) (o : Outcome) : (t.close x o).Proper t := by
  have own (h : t.Own) : t.drained.Own := ⟨h.worker, h.work, h.subUnits⟩
  have finished {told : List Event} (named : ∀ e ∈ told, e.task = some t.name) (error : Option TaskError) :
      (t.drained.finish told error).Proper t := by
    obtain ⟨worker, told, _, owns⟩ := finish_proper (t := t.drained) named error
    exact ⟨worker, told, nofun, fun h => owns (own h)⟩
  have silent : ∀ e ∈ ([] : List Event), e.task = some t.name := nofun
  have failed (n : Nat) (reason : String) : ∀ e ∈ [Event.failed t.name n reason], e.task = some t.name := by
    intro e mem
    cases List.mem_singleton.1 mem
    rfl
  have retried (e : TaskError) : (if !t.worker.retries || x.cancelled then
      t.drained.finish [.failed t.name t.attempt e.message] (some e)
    else
      { task := t.delayedBy (x.backoff.next t.delayBefore) (x.now + (x.backoff.next t.delayBefore).ceilMillis) e
        told := [.failed t.name t.attempt e.message,
          .backoff t.name t.attempt (Supervisor.shownMillis (x.backoff.next t.delayBefore)) e.message] }
      : Change).Proper t := by
    split
    next => exact finished (failed _ _) (some e)
    next =>
      refine ⟨rfl, fun event mem => ?_, nofun, fun h => ⟨h.worker, h.work, h.subUnits⟩⟩
      rcases List.mem_cons.1 mem with first | second
      · rw [first]
        rfl
      · rw [List.mem_singleton.1 second]
        rfl
  cases o with
  | none => exact finished silent none
  | some e =>
    cases e with
    | canceled => exact finished silent none
    | fail reason => exact retried (.fail reason)
    | panicked reason => exact retried (.panicked reason)

/-- The loop goes on with a phase in which nothing has been looked at. -/
theorem proper_of_phase (t : Task) {phase : Phase} (fresh : ∀ pending p, phase ≠ .blocked pending (some p)) :
    ({ task := { t with phase } } : Change).Proper t :=
  ⟨rfl, nofun, fun pending p h => absurd h (fresh pending p), fun own => ⟨own.worker, own.work, own.subUnits⟩⟩

theorem proper_of_told (t : Task) (state : TaskState) {phase : Phase}
    (fresh : ∀ pending p, phase ≠ .blocked pending (some p)) {e : Event} (named : e.task = some t.name) :
    ({ task := { t with state, phase }, told := [e] } : Change).Proper t := by
  refine ⟨rfl, fun event mem => ?_, fun pending p h => absurd h (fresh pending p),
    fun own => ⟨own.worker, own.work, own.subUnits⟩⟩
  rw [List.mem_singleton.1 mem, named]

theorem pass_proper (t : Task) (rest : List String) : (t.pass rest).Proper t := by
  unfold pass
  split
  · exact start_proper t
  · exact proper_of_phase t nofun

theorem turn_proper {turn : Turn} (h : t.turn x turn = some c) : c.Proper t := by
  have silent : ∀ e ∈ ([] : List Event), e.task = some t.name := List.forall_mem_nil _
  cases turn with
  | recheck => cases h
  | cancel =>
    simp only [Task.turn] at h
    split at h
    · obtain ⟨_, h⟩ := Option.ite_none_right_eq_some.1 h
      cases h
      exact finish_proper silent none
    · obtain ⟨_, h⟩ := Option.ite_none_right_eq_some.1 h
      cases h
      exact proper_of_told t _ (by simp) rfl
    · obtain ⟨_, h⟩ := Option.ite_none_right_eq_some.1 h
      cases h
      exact finish_proper silent (some _)
    · cases h
  | proceed =>
    simp only [Task.turn] at h
    split at h
    · cases h
      exact proper_of_told t _ (by simp) rfl
    · cases h
      exact start_proper t
    · obtain ⟨_, h⟩ := Option.ite_none_right_eq_some.1 h
      cases h
      exact pass_proper t _
    · split at h
      · obtain ⟨_, h⟩ := Option.ite_none_left_eq_some.1 h
        cases h
        exact proper_of_phase t (by simp)
      · cases h
    · split at h
      · cases h
        exact proper_of_phase t (by simp)
      · cases h
    · obtain ⟨_, h⟩ := Option.ite_none_right_eq_some.1 h
      cases h
      exact close_proper x t _
    · obtain ⟨_, h⟩ := Option.ite_none_right_eq_some.1 h
      cases h
      exact start_proper t
    · cases h

/-- What holds of all sub-units, and of what one of them becomes, holds of all afterwards. -/
theorem forall_mem_modify {us : List SubUnit} {P : SubUnit → Prop} {j : Nat} {f : SubUnit → SubUnit}
    (all : ∀ u ∈ us, P u) (kept : ∀ u, P u → P (f u)) : ∀ u ∈ us.modify j f, P u := by
  intro u mem
  obtain ⟨k, found⟩ := List.getElem?_of_mem mem
  rw [List.getElem?_modify] at found
  obtain ⟨v, old, rfl⟩ := Option.map_eq_some_iff.1 found
  have before : P v := all v (List.mem_of_getElem? old)
  split
  · exact kept v before
  · exact before

theorem Own.withUnit (own : t.Own) (sub : Option Nat) {p : Progress} (ownWork : p.Own) : (t.withUnit sub p).Own := by
  cases sub with
  | none => exact ⟨own.worker, ownWork, own.subUnits⟩
  | some j => exact ⟨own.worker, own.work, forall_mem_modify own.subUnits fun _ _ => ownWork⟩

theorem withUnit_worker (t : Task) (sub : Option Nat) (p : Progress) : (t.withUnit sub p).worker = t.worker := by
  cases sub <;> rfl

theorem withUnit_phase (t : Task) (sub : Option Nat) (p : Progress) : (t.withUnit sub p).phase = t.phase := by
  cases sub <;> rfl

/-- What an action does to the task whose unit it is. -/
inductive Acted (t : Task) : Task → List Event → Prop
  | same : Acted t t []
  | ready (running : t.state = .running) : Acted t t.readied [.ready t.name]
  | spawn {script : Script} (own : ∀ a ∈ script, a.Own) :
      Acted t { t with subUnits := t.subUnits ++ [{ progress := .running (.script script) }] } []

theorem perform_acted {a : Action} (own : a.Own) {t' : Task} {told : List Event} {r : Reaction}
    (h : t.perform x a = some ((t', told), r)) : t.Acted t' told ∧ r.Own := by
  have waits {p : Prop} [Decidable p]
      (h : (if p then some ((t, ([] : List Event)), Reaction.goOn []) else none) = some ((t', told), r)) :
      t.Acted t' told ∧ r.Own := by
    obtain ⟨_, h⟩ := Option.ite_none_right_eq_some.1 h
    cases h
    exact ⟨.same, nofun⟩
  cases own with
  | ready =>
    obtain ⟨result, reaction⟩ := Prod.mk.inj (Option.some.inj h)
    cases reaction
    refine ⟨?_, nofun⟩
    split at result
    next running =>
      cases result
      exact .ready running
    next =>
      cases result
      exact .same
  | spawn ownScript =>
    cases h
    exact ⟨.spawn ownScript, nofun⟩
  | awaitCancel => exact waits h
  | sleepUntil time => exact waits h
  | napUntil time => exact waits h
  | forever => cases h
  | sleep ms =>
    cases h
    exact ⟨.same, fun a mem => List.mem_singleton.1 mem ▸ .sleepUntil _⟩
  | nap ms =>
    cases h
    exact ⟨.same, fun a mem => List.mem_singleton.1 mem ▸ .napUntil _⟩
  | finish o =>
    cases h
    exact ⟨.same, trivial⟩
  | panic reason =>
    cases h
    exact ⟨.same, trivial⟩
  | bracket ownWork ownCleanup =>
    cases h
    exact ⟨.same, ownWork, ownCleanup⟩
  | note text =>
    cases h
    exact ⟨.same, nofun⟩

theorem Acted.proper {t' : Task} {told : List Event} (acted : t.Acted t' told) :
    ({ task := t', told } : Change).Proper t := by
  cases acted with
  | same => exact ⟨rfl, nofun, fun _ _ => id, id⟩
  | ready =>
    refine ⟨rfl, fun e mem => ?_, fun _ _ => id, fun own => ⟨own.worker, own.work, own.subUnits⟩⟩
    rw [List.mem_singleton.1 mem]
    rfl
  | spawn ownScript =>
    refine ⟨rfl, nofun, fun _ _ => id, fun own => ⟨own.worker, own.work, fun u mem => ?_⟩⟩
    rcases List.mem_append.1 mem with old | new
    · exact own.subUnits u old
    · rw [List.mem_singleton.1 new]
      exact ownScript

theorem own_of_onCancel {a : Action} {r : Reaction} (h : System.onCancel a = some r) : r.Own := by
  cases a <;> cases h <;> trivial

/-- A turn of a unit is what its action does, and what this makes of the unit. -/
theorem unitTurn_acted (own : t.Own) {sub : Option Nat} {turn : System.UnitTurn}
    (h : t.unitTurn x sub turn = some c) :
    ∃ t' told p, t.Acted t' told ∧ Progress.Own p ∧ c = { task := t'.withUnit sub p, told } := by
  obtain ⟨p, unit, h⟩ := Option.bind_eq_some_iff.1 h
  have ownUnit := own.of_unit? unit
  cases p with
  | ended e => cases h
  | running w =>
    cases turn with
    | proceed =>
      obtain ⟨⟨⟨t', told⟩, r⟩, acts, h⟩ := Option.bind_eq_some_iff.1 h
      cases h
      obtain ⟨acted, ownReaction⟩ := perform_acted ownUnit.next acts
      exact ⟨t', told, _, acted, ownUnit.resume ownReaction, rfl⟩
    | cancel =>
      obtain ⟨r, cancels, h⟩ := Option.bind_eq_some_iff.1 h
      obtain ⟨_, h⟩ := Option.ite_none_right_eq_some.1 h
      cases h
      exact ⟨t, [], _, .same, ownUnit.resume (own_of_onCancel cancels), rfl⟩
    | abandon depth =>
      obtain ⟨w', abandons, h⟩ := Option.bind_eq_some_iff.1 h
      obtain ⟨_, h⟩ := Option.ite_none_right_eq_some.1 h
      cases h
      exact ⟨t, [], .running w', .same, ownUnit.abandon abandons, rfl⟩

theorem unitTurn_proper (own : t.Own) {sub : Option Nat} {turn : System.UnitTurn}
    (h : t.unitTurn x sub turn = some c) : c.Proper t := by
  obtain ⟨t', told, p, acted, ownWork, rfl⟩ := unitTurn_acted own h
  obtain ⟨worker, named, parked, owns⟩ := acted.proper
  exact ⟨(withUnit_worker t' sub p).trans worker, named,
    fun pending q h => parked pending q ((withUnit_phase t' sub p).symm.trans h),
    fun own => (owns own).withUnit sub ownWork⟩

theorem watchTurn_proper {j : Nat} (h : t.watchTurn j = some c) : c.Proper t := by
  have watches (w : Watch) (own : t.Own) : ∀ u ∈ (t.withWatch j w).subUnits, u.progress.Own :=
    forall_mem_modify own.subUnits fun _ own => own
  obtain ⟨u, _, h⟩ := Option.bind_eq_some_iff.1 h
  split at h
  · cases h
    exact ⟨rfl, nofun, fun _ _ => id, fun own => ⟨own.worker, own.work, watches _ own⟩⟩
  · cases h
    exact ⟨rfl, nofun, fun _ _ => id, fun own => ⟨own.worker, own.work, watches _ own⟩⟩
  · cases h

theorem inner_proper (own : t.Own) {m : Inner} (h : t.inner x m = some c) : c.Proper t := by
  cases m with
  | loop turn => exact turn_proper h
  | unit sub turn => exact unitTurn_proper own h
  | watch j => exact watchTurn_proper h

/-- What units do after the end of their task does not make it ready. -/
theorem inner_of_done (own : t.Own) (done : t.phase = .done) (gone : t.isTerminated = true) {m : Inner}
    (h : t.inner x m = some c) : c.task.everReady = t.everReady ∧ c.task.isTerminated = true := by
  cases m with
  | loop turn => cases turn <;> simp [inner, Task.turn, done] at h
  | watch j =>
    obtain ⟨u, _, h⟩ := Option.bind_eq_some_iff.1 h
    split at h
    · cases h
      exact ⟨rfl, gone⟩
    · cases h
      exact ⟨rfl, gone⟩
    · cases h
  | unit sub turn =>
    have units (v : Task) (p : Progress) : (v.withUnit sub p).everReady = v.everReady ∧
        (v.withUnit sub p).isTerminated = v.isTerminated := by
      cases sub <;> exact ⟨rfl, rfl⟩
    obtain ⟨t', told, p, acted, _, rfl⟩ := unitTurn_acted own h
    obtain ⟨ready, terminated⟩ := units t' p
    rw [ready, terminated]
    cases acted with
    | same => exact ⟨rfl, gone⟩
    | spawn => exact ⟨rfl, gone⟩
    | ready running =>
      rw [isTerminated, running] at gone
      cases gone

/-! ### The mark of what has been looked at has no part in any turn -/

/-- No phase but that of a requirement looked at bears the mark. -/
theorem unparked_of_fresh {t : Task} (fresh : ∀ pending p, t.phase ≠ .blocked pending (some p)) : t.unparked = t := by
  have same : t.phase.unparked = t.phase := by
    cases phase : t.phase with
    | blocked pending parked =>
      cases parked with
      | none => rfl
      | some p => exact absurd phase (fresh pending p)
    | _ => rfl
  rw [unparked, same]

theorem pass_unparked (t : Task) (rest : List String) : t.unparked.pass rest = Change.unparked (t.pass rest) := by
  unfold pass
  split <;> rfl

/-- No turn of the loop sets the mark, so without it there is nothing to take off. -/
theorem turn_unparked_of_fresh (x : Surroundings) {t : Task} (turn : Turn)
    (fresh : ∀ pending p, t.phase ≠ .blocked pending (some p)) :
    t.unparked.turn x turn = (t.turn x turn).map Change.unparked := by
  rw [unparked_of_fresh fresh]
  cases turns : t.turn x turn with
  | none => rfl
  | some c =>
    have same : c.task.unparked = c.task :=
      unparked_of_fresh fun pending p h => fresh pending p ((turn_proper turns).parked pending p h)
    rw [Option.map_some, Change.unparked, same]

theorem turn_unparked (x : Surroundings) (t : Task) (turn : Turn) :
    t.unparked.turn x turn = (t.turn x turn).map Change.unparked := by
  cases phase : t.phase with
  | blocked pending parked =>
    have unparked : t.unparked.phase = .blocked pending none := by rw [Task.unparked, phase, Phase.unparked]
    cases turn with
    | recheck => rfl
    | cancel =>
      simp only [Task.turn, phase, unparked]
      split <;> rfl
    | proceed =>
      cases pending with
      | nil =>
        simp only [Task.turn, phase, unparked]
        rfl
      | cons r rest =>
        simp only [Task.turn, phase, unparked, pass_unparked]
        split <;> rfl
  | _ => exact turn_unparked_of_fresh x turn (by simp [phase])

theorem isDraining_unparked (t : Task) : t.unparked.isDraining = t.isDraining := by
  unfold isDraining unparked Phase.unparked
  cases t.phase <;> rfl

theorem withUnit_unparked (t : Task) (sub : Option Nat) (p : Progress) :
    t.unparked.withUnit sub p = (t.withUnit sub p).unparked := by
  cases sub <;> rfl

theorem perform_unparked (x : Surroundings) (t : Task) (a : Action) :
    t.unparked.perform x a = (t.perform x a).map fun p => ((p.1.1.unparked, p.1.2), p.2) := by
  have waits (p : Prop) [Decidable p] : (if p then some ((t.unparked, ([] : List Event)), Reaction.goOn []) else none) =
      (if p then some ((t, ([] : List Event)), Reaction.goOn []) else none).map
        fun p => ((p.1.1.unparked, p.1.2), p.2) := by
    split <;> rfl
  cases a with
  | ready =>
    have state : t.unparked.state = t.state := rfl
    simp only [perform, state, Option.map_some]
    split <;> rfl
  | awaitCancel =>
    rw [perform, perform, isDraining_unparked]
    exact waits _
  | sleepUntil time => exact waits _
  | napUntil time => exact waits _
  | _ => rfl

theorem unitTurn_unparked (x : Surroundings) (t : Task) (sub : Option Nat) (turn : System.UnitTurn) :
    t.unparked.unitTurn x sub turn = (t.unitTurn x sub turn).map Change.unparked := by
  have unit : t.unparked.unit? sub = t.unit? sub := by cases sub <;> rfl
  unfold unitTurn
  rw [unit, isDraining_unparked]
  cases t.unit? sub with
  | none => rfl
  | some p =>
    cases p with
    | ended e => rfl
    | running w =>
      simp only [Option.bind_eq_bind, Option.bind_some]
      cases turn with
      | proceed =>
        dsimp only
        rw [perform_unparked]
        cases t.perform x w.next with
        | none => rfl
        | some result =>
          simp only [Option.map_some, Option.bind_some, withUnit_unparked]
          rfl
      | cancel =>
        dsimp only
        cases System.onCancel w.next with
        | none => rfl
        | some r =>
          simp only [Option.bind_some, withUnit_unparked]
          split <;> rfl
      | abandon depth =>
        dsimp only
        cases w.abandon depth with
        | none => rfl
        | some w' =>
          simp only [Option.bind_some, withUnit_unparked]
          split <;> rfl

theorem watchTurn_unparked (t : Task) (j : Nat) :
    t.unparked.watchTurn j = (t.watchTurn j).map Change.unparked := by
  have units : t.unparked.subUnits = t.subUnits := rfl
  unfold watchTurn
  rw [units]
  cases t.subUnits[j]? with
  | none => rfl
  | some u =>
    obtain ⟨progress, watch⟩ := u
    cases watch with
    | idle => rfl
    | watching => cases progress <;> rfl
    | _ => rfl

theorem inner_unparked (x : Surroundings) (t : Task) (m : Inner) :
    t.unparked.inner x m = (t.inner x m).map Change.unparked := by
  cases m with
  | loop turn => exact turn_unparked x t turn
  | unit sub turn => exact unitTurn_unparked x t sub turn
  | watch j => exact watchTurn_unparked t j

/-- Tasks that differ only in such marks take the same turns. -/
theorem exists_inner {t' : Task} (same : t'.unparked = t.unparked) {m : Inner} (h : t.inner x m = some c) :
    ∃ c', t'.inner x m = some c' ∧ c'.unparked = c.unparked := by
  have turns : (t'.inner x m).map Change.unparked = some c.unparked := by
    rw [← inner_unparked, same, inner_unparked, h, Option.map_some]
  exact Option.map_eq_some_iff.1 turns

end Task

namespace System

open Supervisor

variable {s s' : System} {i : TaskId} {t : Task}

/-- What a step comes to while all scripts call nobody. -/
inductive Local (s : Supervisor) : Supervisor → Prop
  /-- A turn of one task. What it finds around itself is as it seems if what it waits for is what it should be. -/
  | turn {i : TaskId} {t : Task} {x : Surroundings} {m : Inner} {c : Change} (h : s.task? i = some t)
      (sees : s.Faithful t → x = s.surroundings t) (turns : t.inner x m = some c) : Local s (s.apply i c)
  | look {i : TaskId} {t : Task} {s' : Supervisor} (h : s.task? i = some t) (looks : s.Looks i t s') : Local s s'
  | aside (mailboxes : List Mailbox) : Local s { s with mailboxes }

theorem step_local (own : ∀ t ∈ s.supervisor.tasks, t.Own) {l : Label} (h : s.step l = some s') :
    Local s.supervisor s'.supervisor := by
  cases step_cases h with
  | actor steps =>
    obtain ⟨t, ht, _⟩ := Option.bind_eq_some_iff.1 steps
    rcases actorStep_local ht steps with ⟨x, turn', c, sees, turns, applied⟩ | looks
    · have turns : t.inner x (.loop turn') = some c := turns
      rw [applied]
      exact .turn ht sees turns
    · exact .look ht looks
  | @unit u turn _ step =>
    obtain ⟨i, sub⟩ := u
    obtain ⟨p, unit, _⟩ := Option.bind_eq_some_iff.1 step
    obtain ⟨t, ht, _⟩ := Option.bind_eq_some_iff.1 unit
    have applied := unitStep_own ht (own t (List.mem_of_getElem? ht)) sub turn
    rw [step, Option.map_some] at applied
    obtain ⟨c, turns, applied⟩ := Option.map_eq_some_iff.1 applied.symm
    have turns : t.inner (s.supervisor.surroundings t) (.unit sub turn) = some c := turns
    rw [← applied]
    exact .turn ht (fun _ => rfl) turns
  | @watch i j _ steps =>
    obtain ⟨t, ht, _⟩ := Option.bind_eq_some_iff.1 steps
    rw [watchStep_apply ht] at steps
    obtain ⟨c, turns, rfl⟩ := Option.map_eq_some_iff.1 steps
    have turns : t.inner (s.supervisor.surroundings t) (.watch j) = some c := turns
    exact .turn ht (fun _ => rfl) turns
  | deliver => exact .aside _
  | reconciler => exact .aside s.supervisor.mailboxes

theorem exists_step_of_inner (h : s.supervisor.task? i = some t) (own : t.Own) (watching : Watching s.supervisor t)
    {m : Inner} {c : Change} (turns : t.inner (s.supervisor.surroundings t) m = some c) :
    ∃ l s', s.step l = some s' ∧ s'.supervisor = s.supervisor.apply i c := by
  cases m with
  | loop turn =>
    obtain ⟨turn', steps⟩ := actorStep_of_turn h watching turns
    exact ⟨.actor i turn', _, congrArg (Option.map _) steps, rfl⟩
  | unit sub turn =>
    have turns : t.unitTurn (s.supervisor.surroundings t) sub turn = some c := turns
    have applied := unitStep_own h own sub turn
    rw [turns, Option.map_some] at applied
    obtain ⟨s', steps, supervisor⟩ := Option.map_eq_some_iff.1 applied
    exact ⟨.unit ⟨i, sub⟩ turn, s', steps, supervisor⟩
  | watch j =>
    have turns : t.watchTurn j = some c := turns
    have steps : s.supervisor.watchStep i j = some (s.supervisor.apply i c) := by
      rw [watchStep_apply h, turns, Option.map_some]
    exact ⟨.watch i j, _, congrArg (Option.map _) steps, rfl⟩

end System

end Switchyard
