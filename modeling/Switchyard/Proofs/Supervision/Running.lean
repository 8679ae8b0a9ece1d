import Switchyard.Proofs.Isolation.Locality
import Switchyard.Proofs.Supervision.Readiness

/-!
Who moves a running unit, be it the work of a task or one of its sub-units. Main statement: whatever happens next, a
running unit stands where it stood, in the same attempt, unless it goes on itself.
-/
namespace Switchyard

namespace Supervisor

variable {s s' : Supervisor} {i : TaskId} {t t' : Task} {es : List Event} {u v : UnitId} {n : Nat} {p q : Progress}
  {w : Work} {past : List Supervisor}

/-- How far unit `u` of attempt `n` has come. -/
def Stands (s : Supervisor) (u : UnitId) (n : Nat) (p : Progress) : Prop :=
  ∃ t, s.task? u.task = some t ∧ t.attempt = n ∧ t.unit? u.sub = some p

theorem Stands.progress? (h : s.Stands u n p) : s.progress? u = some p := by
  obtain ⟨t, ht, _, unit⟩ := h
  exact (progress?_eq ht u.sub).trans unit

theorem Stands.isRunning (h : s.Stands u n (.running w)) : s.isRunning u = true := by
  rw [Supervisor.isRunning, h.progress?]

/-- A unit that runs belongs to an attempt that is not over. -/
theorem Stands.inAttempt (h : s.Stands u n (.running w)) (run : Run s past) :
    ∃ t, s.task? u.task = some t ∧ t.attempt = n ∧ t.phase.inAttempt = true := by
  obtain ⟨t, ht, inside⟩ := run.inAttempt_of_running h.isRunning
  obtain ⟨t', ht', attempt, _⟩ := h
  cases ht.symm.trans ht'
  exact ⟨t, ht, attempt, inside⟩

/-! ### What leaves it where it is -/

theorem Stands.amend_of_ne (h : s.Stands u n p) (other : u.task ≠ i) : (s.amend i t' es).Stands u n p := by
  obtain ⟨t, ht, rest⟩ := h
  exact ⟨t, (task?_amend_of_ne other).trans ht, rest⟩

theorem Stands.amend (h : s.Stands u n p) (ht : s.task? i = some t) (attempt : t'.attempt = t.attempt)
    (kept : u.task = i → t.unit? u.sub = some p → t'.unit? u.sub = some p) : (s.amend i t' es).Stands u n p := by
  by_cases same : u.task = i
  · obtain ⟨v, hv, count, unit⟩ := h
    subst same
    cases ht.symm.trans hv
    exact ⟨t', task?_amend_self (lt_of_task? ht), attempt.trans count, kept rfl unit⟩
  · exact h.amend_of_ne same

/-- What touches neither the units of a task nor the count of its attempts. -/
theorem Stands.amend_of_eq (h : s.Stands u n p) (ht : s.task? i = some t) (attempt : t'.attempt = t.attempt)
    (work : t'.work = t.work) (subUnits : t'.subUnits = t.subUnits) : (s.amend i t' es).Stands u n p := by
  refine h.amend ht attempt fun _ unit => unit ▸ ?_
  cases u.sub with
  | none => exact congrArg some work
  | some j => rw [Task.unit?, Task.unit?, subUnits]

theorem Stands.markReady (h : s.Stands u n p) : (s.markReady i).Stands u n p := by
  rcases markReady_cases s i with same | ⟨t, ht, _, amended⟩
  · rwa [same]
  · rw [amended]
    exact h.amend_of_eq ht rfl rfl rfl

theorem Stands.addSubUnit (h : s.Stands u n p) (script : Script) : (s.addSubUnit i script).Stands u n p := by
  cases ht : s.task? i with
  | none => rwa [Supervisor.addSubUnit, modifyTask_of_none ht]
  | some t =>
    rw [Supervisor.addSubUnit, modifyTask_eq ht]
    refine h.amend ht rfl fun _ unit => ?_
    cases sub : u.sub with
    | none => rwa [sub] at unit
    | some j =>
      rw [sub] at unit
      obtain ⟨v, hv, progress⟩ := Option.bind_eq_some_iff.1 unit
      have old : j < t.subUnits.length := (List.getElem?_eq_some_iff.1 hv).1
      rw [Task.unit?, List.getElem?_append_left old, hv]
      exact progress

theorem Stands.requests (h : s.Stands u n p) (asked : Requests s s') : s'.Stands u n p := by
  induction asked with
  | refl => exact h
  | tail _ m ih =>
    obtain ⟨a, request, m⟩ := m
    cases a with
    | supervise w =>
      obtain ⟨t, ht, rest⟩ := ih
      exact ⟨t, by rw [task?_supervise (act_supervise.1 m), if_neg (Nat.ne_of_lt (lt_of_task? ht)), ht], rest⟩
    | stop name =>
      cases m
      rcases stop_cases _ name with same | ⟨i, t, ht, amended⟩
      · rwa [same]
      · rw [amended]
        exact ih.amend_of_eq ht rfl rfl rfl
    | shutdown =>
      cases m
      unfold Supervisor.shutdown
      split <;> exact ih
    | _ => cases request

theorem unit?_withUnit_of_ne (t : Task) {sub sub' : Option Nat} (other : sub' ≠ sub) (p : Progress) :
    (t.withUnit sub p).unit? sub' = t.unit? sub' := by
  cases sub with
  | none =>
    cases sub' with
    | none => exact absurd rfl other
    | some k => rfl
  | some j =>
    cases sub' with
    | none => rfl
    | some k =>
      have apart : j ≠ k := fun same => other (congrArg some same.symm)
      rw [Task.unit?, Task.unit?, Task.withUnit, List.getElem?_modify_ne _ _ apart]

theorem unit?_withUnit_self (t : Task) (sub : Option Nat) (h : t.unit? sub = some q) (p : Progress) :
    (t.withUnit sub p).unit? sub = some p := by
  cases sub with
  | none => rfl
  | some j =>
    obtain ⟨v, hv, progress⟩ := Option.bind_eq_some_iff.1 h
    obtain ⟨watched, _⟩ := Option.ite_none_left_eq_some.1 progress
    simp [Task.unit?, Task.withUnit, hv, watched]

theorem setProgress_eq (h : s.task? u.task = some t) (p : Progress) :
    s.setProgress u p = s.amend u.task (t.withUnit u.sub p) [] := modifyTask_eq h _

theorem attempt_withUnit (t : Task) (sub : Option Nat) (p : Progress) : (t.withUnit sub p).attempt = t.attempt := by
  cases sub <;> rfl

theorem Stands.setProgress_of_ne (h : s.Stands u n p) (other : u ≠ v) (q : Progress) :
    (s.setProgress v q).Stands u n p := by
  cases ht : s.task? v.task with
  | none => rwa [setProgress, modifyTask_of_none ht]
  | some t =>
    rw [setProgress_eq ht]
    refine h.amend ht (attempt_withUnit t v.sub q) fun same unit => ?_
    have apart : u.sub ≠ v.sub := by
      intro sub
      cases u
      cases v
      exact other (congr (congrArg UnitId.mk same) sub)
    rwa [unit?_withUnit_of_ne t apart]

theorem Stands.setProgress (h : s.Stands u n p) (q : Progress) : (s.setProgress u q).Stands u n q := by
  obtain ⟨t, ht, attempt, unit⟩ := h
  rw [setProgress_eq ht]
  exact ⟨_, task?_amend_self (lt_of_task? ht), (attempt_withUnit t u.sub q).trans attempt,
    unit?_withUnit_self t u.sub unit q⟩

/-! ### The watch over a sub-unit, and the loop -/

theorem unit?_withWatch {sub : Option Nat} {watch : Watch} (begun : watch ≠ .idle) (h : t.unit? sub = some p)
    (j : Nat) : (t.withWatch j watch).unit? sub = some p := by
  cases sub with
  | none => exact h
  | some k =>
    obtain ⟨v, hv, progress⟩ := Option.bind_eq_some_iff.1 h
    obtain ⟨_, progress⟩ := Option.ite_none_left_eq_some.1 progress
    by_cases same : j = k
    · subst same
      simpa [Task.unit?, Task.withWatch, hv, begun] using progress
    · rwa [Task.unit?, Task.withWatch, List.getElem?_modify_ne _ _ same]

theorem Stands.watchStep (h : s.Stands u n p) {j : Nat} (step : s.watchStep i j = some s') : s'.Stands u n p := by
  cases ht : s.task? i with
  | none => simp [Supervisor.watchStep, ht] at step
  | some t =>
    rw [watchStep_apply ht] at step
    obtain ⟨c, turns, rfl⟩ := Option.map_eq_some_iff.1 step
    obtain ⟨v, _, turns⟩ := Option.bind_eq_some_iff.1 turns
    split at turns
    · cases turns
      have begun : Watch.watching ≠ .idle := nofun
      exact h.amend ht rfl fun _ unit => unit?_withWatch begun unit j
    · cases turns
      have begun : Watch.over ≠ .idle := nofun
      refine h.amend ht rfl fun _ unit => ?_
      have noted := unit?_withWatch begun unit j
      cases sub : u.sub <;> rw [sub] at noted <;> exact noted
    · cases turns

theorem units_of_close (t : Task) (x : Surroundings) (o : Outcome) : (t.close x o).task.work = t.work ∧
    (t.close x o).task.subUnits = t.subUnits ∧ (t.close x o).task.attempt = t.attempt := by
  unfold Task.close
  split
  · exact ⟨rfl, rfl, rfl⟩
  · exact ⟨rfl, rfl, rfl⟩
  · split <;> exact ⟨rfl, rfl, rfl⟩

/-- No turn of the loop touches the units of an attempt in progress. -/
theorem units_of_turn (inside : t.phase.inAttempt = true) {x : Surroundings} {turn : Turn} {c : Change}
    (turns : t.turn x turn = some c) :
    c.task.work = t.work ∧ c.task.subUnits = t.subUnits ∧ c.task.attempt = t.attempt := by
  cases turn with
  | recheck => cases turns
  | cancel =>
    cases phase : t.phase <;> rw [phase] at inside <;> simp only [Task.turn, phase] at turns
    case attempting =>
      obtain ⟨_, turns⟩ := Option.ite_none_right_eq_some.1 turns
      cases turns
      exact ⟨rfl, rfl, rfl⟩
    case stopping => cases turns
    case draining => cases turns
    all_goals cases inside
  | proceed =>
    cases phase : t.phase <;> rw [phase] at inside <;> simp only [Task.turn, phase] at turns
    case attempting =>
      cases work : t.work <;> rw [work] at turns
      · cases turns
      · obtain ⟨_, turns⟩ := Option.ite_none_left_eq_some.1 turns
        cases turns
        exact ⟨work, rfl, rfl⟩
    case stopping =>
      cases work : t.work <;> rw [work] at turns <;> cases turns
      exact ⟨work, rfl, rfl⟩
    case draining o =>
      obtain ⟨_, turns⟩ := Option.ite_none_right_eq_some.1 turns
      cases turns
      exact units_of_close t x _
    all_goals cases inside

theorem stands_apply {c : Change} (amended : (s.amend i c.task c.told).Stands u n p) : (s.apply i c).Stands u n p := by
  rw [Supervisor.apply]
  split <;> exact amended

theorem Stands.actorStep (h : s.Stands u n (.running w)) (run : Run s past) {turn : Turn}
    (step : s.actorStep i turn = some s') : s'.Stands u n (.running w) := by
  cases ht : s.task? i with
  | none => simp [Supervisor.actorStep, ht] at step
  | some t =>
    have moved := actorStep_local ht step
    by_cases same : u.task = i
    · obtain ⟨t', ht', _, inside⟩ := h.inAttempt run
      subst same
      cases ht.symm.trans ht'
      rcases moved with ⟨x, turn', c, _, turns, rfl⟩ | ⟨_, _, _, phase, _⟩
      · obtain ⟨work, subUnits, attempt⟩ := units_of_turn inside turns
        exact stands_apply (h.amend_of_eq ht attempt work subUnits)
      · rw [phase] at inside
        cases inside
    · rcases moved with ⟨_, _, c, _, _, rfl⟩ | ⟨_, _, _, _, rfl, _⟩
      · exact stands_apply (h.amend_of_ne same)
      · exact h.amend_of_ne same

end Supervisor

namespace System

open Supervisor

variable {s s' : System} {u v : UnitId} {n : Nat} {w : Work} {p : Progress}

/-- What a system may become next: it takes a step, time goes on, or somebody asks the supervisor for something. -/
inductive Next (s : System) : System → Prop
  | step {s' : System} {l : Label} (m : s.step l = some s') : Next s s'
  | clock {time : Nat} (later : s.supervisor.now ≤ time) : Next s (s.setClock time)
  | call {s' : System} (m : Requests s.supervisor s'.supervisor) : Next s s'

theorem Reached.next (reached : s.Reached) (m : Next s s') : s'.Reached := by
  cases m with
  | step m => exact reached.step m
  | clock later => exact reached.clock later
  | call m => exact reached.call m

/-- What the next action of a unit may come to. -/
inductive Reacts (s : System) (u : UnitId) (a : Action) : Reaction → Prop
  | performs {s' : System} {r : Reaction} (h : s.perform u a = some (s', r)) : Reacts s u a r
  | cancels {r : Reaction} (h : onCancel a = some r) (cancelled : s.supervisor.attemptCancelled u.task = true) :
      Reacts s u a r

theorem stands_perform {a : Action} {reaction : Reaction} (h : s.supervisor.Stands v n p)
    (performed : s.perform u a = some (s', reaction)) : s'.supervisor.Stands v n p := by
  rcases perform_supervisor performed with requests | ready | ⟨script, spawn⟩
  · exact h.requests requests
  · exact ready ▸ h.markReady
  · exact spawn ▸ h.addSubUnit script

/-- A running unit goes on: what its action comes to is put in its place, or the work of a bracket is given up. -/
theorem unitStep_stands {turn : UnitTurn} (h : s.supervisor.Stands u n (.running w))
    (m : s.step (.unit u turn) = some s') :
    (∃ r, s.Reacts u w.next r ∧ s'.supervisor.Stands u n (w.resume r)) ∨
      ∃ depth w', turn = .abandon depth ∧ w.abandon depth = some w' ∧ s.supervisor.attemptCancelled u.task = true ∧
        s'.supervisor.Stands u n (.running w') := by
  have running := h.progress?
  cases unitStep_cases m with
  | proceed here performed =>
    cases here.symm.trans running
    exact .inl ⟨_, .performs performed, (stands_perform h performed).setProgress _⟩
  | cancel here asked cancelled =>
    cases here.symm.trans running
    exact .inl ⟨_, .cancels asked cancelled, h.setProgress _⟩
  | abandon here left cancelled =>
    cases here.symm.trans running
    exact .inr ⟨_, _, rfl, left, cancelled, h.setProgress _⟩

/-- Another unit goes on. -/
theorem unitStep_stands_of_ne {turn : UnitTurn} (h : s.supervisor.Stands v n p) (other : v ≠ u)
    (m : s.step (.unit u turn) = some s') : s'.supervisor.Stands v n p := by
  cases unitStep_cases m with
  | proceed _ performed => exact (stands_perform h performed).setProgress_of_ne other _
  | cancel => exact h.setProgress_of_ne other _
  | abandon => exact h.setProgress_of_ne other _

/-- Whatever happens next, a running unit stands where it stood unless it goes on itself. -/
theorem Next.stands (m : Next s s') (reached : s.Reached) (h : s.supervisor.Stands u n (.running w)) :
    s'.supervisor.Stands u n (.running w) ∨ ∃ turn, s.step (.unit u turn) = some s' := by
  cases m with
  | clock => exact .inl h
  | call m => exact .inl (h.requests m)
  | step m =>
    cases step_cases m with
    | actor turns =>
      obtain ⟨past, run⟩ := reached.run
      exact .inl (h.actorStep run turns)
    | @unit v turn =>
      by_cases same : u = v
      · exact .inr ⟨turn, same ▸ m⟩
      · exact .inl (unitStep_stands_of_ne h same m)
    | watch turns => exact .inl (h.watchStep turns)
    | deliver => exact .inl h
    | reconciler => exact .inl h

end System

end Switchyard
