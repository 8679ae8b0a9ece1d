import Switchyard.Proofs.Execution
import Switchyard.Proofs.Supervision.Failures

/-!
The sub-units of an attempt. Main statement: an attempt is over only when all of them have ended, whoever has started
them and whenever, and the first error among their ends counts where the work itself has none.
-/
namespace Switchyard

/-- The failure or the panic of a unit; that it stopped because it was asked to is neither. -/
def Ending.error? (e : Ending) : Option TaskError := e.outcome.filter (!·.isCanceled)

/-- The end of a sub-unit, which has come once its watch has noted it. -/
def SubUnit.ending? (u : SubUnit) : Option Ending :=
  match u.watch, u.progress with
  | .over, .ended e => some e
  | _, _ => none

/-- What is told when an attempt is over, and when the next one begins. -/
def EventKind.isBetween : EventKind → Bool
  | .taskFailed | .backoffScheduled | .taskTerminated | .taskStarting => true
  | _ => false

/-- Whether the loop waits for the work to end. -/
def Phase.awaitsWork : Phase → Bool
  | .attempting | .stopping => true
  | _ => false

namespace Task

theorem phase_of_isDraining {t : Task} (h : t.isDraining = true) : ∃ o, t.phase = .draining o := by
  cases phase : t.phase with
  | draining o => exact ⟨o, rfl⟩
  | _ => simp [isDraining, phase] at h

def ending? (t : Task) (j : Nat) : Option Ending := t.subUnits[j]?.bind SubUnit.ending?

/-- The work and every sub-unit have ended. -/
def AllOver (t : Task) : Prop := (∃ e, t.work = .ended e) ∧ ∀ j, j < t.subUnits.length → (t.ending? j).isSome

/-- The first error of these sub-units. -/
def firstError (t : Task) (order : List Nat) : Option TaskError :=
  order.findSome? fun j => (t.ending? j).bind Ending.error?

/-- What is told when an attempt is over that has come to this. -/
inductive Closes (t : Task) : Outcome → List Event → Prop
  | success : Closes t none [.terminated t.name]
  | canceled : Closes t (some .canceled) [.terminated t.name]
  | failure {e : TaskError} (error : e ≠ .canceled) :
      Closes t (some e) [.failed t.name t.attempt e.message, .terminated t.name]
  | retry {e : TaskError} (error : e ≠ .canceled) (delayMs : Nat) :
      Closes t (some e) [.failed t.name t.attempt e.message, .backoff t.name t.attempt delayMs e.message]

/-- How the ends of sub-units stand after a move. -/
inductive Tally (t t' : Task) : Prop
  | anew (attempt : t'.attempt = t.attempt + 1) (empty : t'.subUnits = []) (clear : t'.subUnitError = none)
  | same (attempt : t'.attempt = t.attempt) (length : t.subUnits.length ≤ t'.subUnits.length)
      (ends : t'.ending? = t.ending?) (error : t'.subUnitError = t.subUnitError)
  | next {j : Nat} {e : Ending} (attempt : t'.attempt = t.attempt) (length : t.subUnits.length ≤ t'.subUnits.length)
      (fresh : t.ending? j = none) (ends : ∀ k, t'.ending? k = if k = j then some e else t.ending? k)
      (error : t'.subUnitError = t.subUnitError.or e.error?)

end Task

namespace Supervisor

variable {s s' : Supervisor} {i : TaskId} {t t' : Task} {es : List Event} {past : List Supervisor}
  {error : Option TaskError} {order : List Nat}

/-! ### One move -/

theorem ending?_of_running {u : SubUnit} {w : Work} (h : u.progress = .running w) : u.ending? = none := by
  rw [SubUnit.ending?, h]
  cases u.watch <;> rfl

theorem ending?_of_watch {u : SubUnit} (h : u.watch ≠ .over) : u.ending? = none := by
  rw [SubUnit.ending?]
  split
  next noted _ => exact absurd noted h
  next => rfl

theorem isSome_ending?_of_noted {u : SubUnit} (noted : u.Noted) (watch : u.watch = .over) : u.ending?.isSome := by
  obtain ⟨e, ended⟩ := noted watch
  rw [SubUnit.ending?, watch, ended]
  rfl

/-- Only the sub-unit changed may have another end than before. -/
theorem ending?_modify {us : List SubUnit} {j : Nat} {u : SubUnit} (h : us[j]? = some u) (f : SubUnit → SubUnit)
    (k : Nat) : ((us.modify j f)[k]?).bind SubUnit.ending? =
      if k = j then (f u).ending? else us[k]?.bind SubUnit.ending? := by
  by_cases hk : k = j
  · subst hk
    rw [if_pos rfl, List.getElem?_modify_eq, h]
    rfl
  · rw [if_neg hk, List.getElem?_modify_ne _ _ (Ne.symm hk)]

theorem ending?_modify_of_none {us : List SubUnit} {j : Nat} {u : SubUnit} (h : us[j]? = some u)
    {f : SubUnit → SubUnit} (before : u.ending? = none) (after : (f u).ending? = none) :
    (fun k : Nat => ((us.modify j f)[k]?).bind SubUnit.ending?) = fun k => us[k]?.bind SubUnit.ending? := by
  funext k
  rw [ending?_modify h]
  split
  next hk => rw [after, hk, h, Option.bind_some, before]
  next => rfl

theorem Goes.tally (g : Goes s i t t' es) (noted : ∀ u ∈ t.subUnits, u.Noted) : t.Tally t' := by
  cases g with
  | start => exact .anew rfl rfl rfl
  | @attend j u h idle =>
    refine .same rfl (Nat.le_of_eq (List.length_modify ..).symm) ?_ rfl
    exact ending?_modify_of_none h (ending?_of_watch (by simp [idle])) (ending?_of_watch nofun)
  | @note j u e h watching finished =>
    have fresh : t.ending? j = none := by
      rw [Task.ending?, h, Option.bind_some, ending?_of_watch (by simp [watching])]
    have ended : ({ u with watch := .over } : SubUnit).ending? = some e := by rw [SubUnit.ending?, finished]
    refine .next (e := e) rfl (Nat.le_of_eq (List.length_modify ..).symm) fresh (fun k => ?_) ?_
    · rw [← ended]
      exact ending?_modify h _ k
    · cases t.subUnitError <;> simp [Ending.error?]
  | spawn running script =>
    refine .same rfl (by simp) (funext fun k => ?_) rfl
    rw [Task.ending?, Task.ending?, List.getElem?_append]
    split
    next => rfl
    next beyond =>
      rw [List.getElem?_eq_none (Nat.le_of_not_lt beyond)]
      cases at' : k - t.subUnits.length with
      | zero => rfl
      | succ n => rfl
  | @work sub w running p =>
    cases sub with
    | none => exact .same rfl (Nat.le_refl _) rfl rfl
    | some j =>
      obtain ⟨u, hu, progress⟩ := Option.bind_eq_some_iff.1 running
      have running : u.progress = .running w := by
        split at progress
        next => cases progress
        next => exact Option.some.inj progress
      have unnoted : u.watch ≠ .over := by
        intro watch
        obtain ⟨e, ended⟩ := noted u (List.mem_of_getElem? hu) watch
        exact nomatch running.symm.trans ended
      refine .same rfl (Nat.le_of_eq (List.length_modify ..).symm) ?_ rfl
      exact ending?_modify_of_none hu (ending?_of_running running) (ending?_of_watch unnoted)
  | _ => exact .same rfl (Nat.le_refl _) rfl rfl

theorem Ends.tally (d : Ends s i t t' es error) : t.Tally t' := by
  cases d <;> exact .same rfl (Nat.le_refl _) rfl rfl

theorem Fate.tally (f : Fate s s' i t') (h : s.task? i = some t) (noted : ∀ u ∈ t.subUnits, u.Noted) :
    t.Tally t' := by
  rcases f.of_task? h with rfl | ⟨_, g⟩ | ⟨_, _, d⟩
  · exact .same rfl (Nat.le_refl _) rfl rfl
  · exact g.tally noted
  · exact d.tally

/-! ### The order of the ends -/

/-- Within an attempt no sub-unit is forgotten. -/
theorem Run.subUnits_le (run : Run s past) {m : Supervisor} {u : Task} (hm : m ∈ past) (hu : m.task? i = some u)
    (h : s.task? i = some t) :
    u.attempt ≤ t.attempt ∧ (u.attempt = t.attempt → u.subUnits.length ≤ t.subUnits.length) := by
  refine run.keeps
    (P := fun t => u.attempt ≤ t.attempt ∧ (u.attempt = t.attempt → u.subUnits.length ≤ t.subUnits.length))
    (fun run e h h' older => ?_) hm hu ⟨Nat.le_refl _, fun _ => Nat.le_refl _⟩ h
  obtain ⟨le, length⟩ := older
  cases (e.fate h').tally h (run.noted h) with
  | anew attempt =>
    rw [attempt]
    exact ⟨Nat.le_succ_of_le le, fun eq => absurd (eq ▸ le) (Nat.not_succ_le_self _)⟩
  | same attempt longer =>
    rw [attempt]
    exact ⟨le, fun eq => Nat.le_trans (length eq) longer⟩
  | next attempt longer =>
    rw [attempt]
    exact ⟨le, fun eq => Nat.le_trans (length eq) longer⟩

/-- The sub-units of the current attempt that have ended, the first one to end first: at every moment of the attempt
those that had ended by then come before all others. -/
structure EndOrder (past : List Supervisor) (i : TaskId) (t : Task) (order : List Nat) : Prop where
  nodup : order.Nodup
  mem : ∀ j, j ∈ order ↔ (t.ending? j).isSome
  prefixes : ∀ m ∈ past, ∀ u, m.task? i = some u → u.attempt = t.attempt →
    ∃ before, before <+: order ∧ ∀ j, j ∈ before ↔ (u.ending? j).isSome

theorem EndOrder.empty (empty : t.subUnits = [])
    (first : ∀ m ∈ past, ∀ u, m.task? i = some u → u.attempt ≠ t.attempt) : EndOrder past i t [] :=
  ⟨List.nodup_nil, fun j => by simp [Task.ending?, empty], fun m hm u hu same => absurd same (first m hm u hu)⟩

/-- The state left becomes one of the past. -/
theorem EndOrder.leave (o : EndOrder past i t order) (h : s.task? i = some t) : EndOrder (s :: past) i t order := by
  refine ⟨o.nodup, o.mem, fun m hm u hu attempt => ?_⟩
  rcases List.mem_cons.1 hm with rfl | hm
  · cases h.symm.trans hu
    exact ⟨order, List.prefix_rfl, o.mem⟩
  · exact o.prefixes m hm u hu attempt

theorem EndOrder.same (o : EndOrder past i t order) (attempt : t'.attempt = t.attempt)
    (ends : t'.ending? = t.ending?) : EndOrder past i t' order :=
  ⟨o.nodup, ends ▸ o.mem, attempt ▸ o.prefixes⟩

theorem EndOrder.fresh (o : EndOrder past i t order) {j : Nat} (fresh : t.ending? j = none) : j ∉ order := by
  rw [o.mem, fresh]
  exact Bool.false_ne_true

theorem EndOrder.next (o : EndOrder past i t order) {j : Nat} {e : Ending} (attempt : t'.attempt = t.attempt)
    (fresh : t.ending? j = none) (ends : ∀ k, t'.ending? k = if k = j then some e else t.ending? k) :
    EndOrder past i t' (order ++ [j]) := by
  refine ⟨?_, fun k => ?_, fun m hm u hu now => ?_⟩
  · rw [← List.concat_eq_append]
    exact (List.nodup_concat order j).2 ⟨o.fresh fresh, o.nodup⟩
  · rw [List.mem_append, List.mem_singleton, o.mem, ends]
    split
    next same => simp [same]
    next other => simp [other]
  · obtain ⟨before, initial, mem⟩ := o.prefixes m hm u hu (now.trans attempt)
    exact ⟨before, initial.trans (List.prefix_append ..), mem⟩

theorem firstError_congr (same : t'.ending? = t.ending?) (order : List Nat) :
    t'.firstError order = t.firstError order := by
  rw [Task.firstError, same, Task.firstError]

theorem firstError_snoc {j : Nat} {e : Ending} (fresh : j ∉ order)
    (ends : ∀ k, t'.ending? k = if k = j then some e else t.ending? k) :
    t'.firstError (order ++ [j]) = (t.firstError order).or e.error? := by
  have before : t'.firstError order = t.firstError order := by
    rw [Task.firstError, Task.firstError, ← List.head?_filterMap, ← List.head?_filterMap]
    refine congrArg List.head? (List.filterMap_congr fun k hk => ?_)
    rw [ends, if_neg (ne_of_mem_of_not_mem hk fresh)]
  have last : (t'.ending? j).bind Ending.error? = e.error? := by
    rw [ends, if_pos rfl, Option.bind_some]
  rw [← before, Task.firstError, List.findSome?_append, List.findSome?_singleton, last, Task.firstError]

/-- In a run the noted error is the first one in the order of the ends. -/
theorem Run.endOrder (run : Run s past) (h : s.task? i = some t) :
    ∃ order, EndOrder past i t order ∧ t.subUnitError = t.firstError order := by
  refine run.registrations
    (P := fun _ past i t => ∃ order, EndOrder past i t order ∧ t.subUnitError = t.firstError order) ?_ h
  intro s s' past i t' run _ f ih
  cases old : s.task? i with
  | none =>
    cases f with
    | new =>
      refine ⟨[], .empty rfl fun m hm u hu => ?_, rfl⟩
      rcases List.mem_cons.1 hm with rfl | hm
      · exact nomatch old.symm.trans hu
      · exact nomatch (run.task?_of_none old hm).symm.trans hu
    | same h => exact nomatch old.symm.trans h
    | goes h => exact nomatch old.symm.trans h
    | ends h => exact nomatch old.symm.trans h
  | some t =>
    obtain ⟨order, ended, error⟩ := ih t old
    have ended := ended.leave old
    cases f.tally old (run.noted old) with
    | anew attempt empty clear =>
      refine ⟨[], .empty empty fun m hm u hu same => ?_, clear⟩
      have le : u.attempt ≤ t.attempt := by
        rcases List.mem_cons.1 hm with rfl | hm
        · cases old.symm.trans hu
          exact Nat.le_refl _
        · exact (run.subUnits_le hm hu old).1
      rw [same, attempt] at le
      exact absurd le (Nat.not_succ_le_self _)
    | same attempt _ ends same =>
      refine ⟨order, ended.same attempt ends, ?_⟩
      rw [same, error, firstError_congr ends]
    | next attempt _ fresh ends noted =>
      refine ⟨_, ended.next attempt fresh ends, ?_⟩
      rw [noted, error, firstError_snoc (ended.fresh fresh) ends]

/-! ### The end of an attempt -/

theorem allOver_of_atRest (rest : t.AtRest) (noted : ∀ u ∈ t.subUnits, u.Noted) : t.AllOver := by
  refine ⟨rest.1, fun j hj => ?_⟩
  have mem := List.getElem_mem hj
  rw [Task.ending?, List.getElem?_eq_getElem hj, Option.bind_some]
  exact isSome_ending?_of_noted (noted _ mem) (rest.2 _ mem)

theorem atRest_of_unblocked {told : List Event} (a : t.Accounted told) (unblocked : s.Unblocked t.phase) :
    t.AtRest := by
  rw [Task.Accounted] at a
  cases phase : t.phase with
  | blocked | delayed =>
    rw [phase] at a
    exact a.1
  | created | attempting | stopping | draining | done =>
    rw [phase] at unblocked
    cases unblocked

theorem work_of_draining {told : List Event} {o : Outcome} (a : t.Accounted told) (h : t.phase = .draining o) :
    ∃ e, t.work = .ended e ∧ e.outcome = o := by
  rw [Task.Accounted, h] at a
  exact a.2

/-- Work that nobody waits for has ended, and so have the sub-units unless they are waited for. -/
theorem atRest_or_draining {told : List Event} (a : t.Accounted told) (h : t.phase.awaitsWork = false) :
    t.AtRest ∨ t.isDraining = true := by
  rw [Task.Accounted] at a
  cases phase : t.phase with
  | attempting | stopping => simp [phase, Phase.awaitsWork] at h
  | draining => exact .inr (by rw [Task.isDraining, phase])
  | created | blocked | delayed | done =>
    rw [phase] at a
    exact .inl a.1

theorem Goes.atRest {told : List Event} (g : Goes s i t t' es) (a : t.Accounted told)
    (between : ∃ e ∈ es, e.kind.isBetween = true) : t.AtRest := by
  cases g with
  | start unblocked => exact atRest_of_unblocked a unblocked
  | retry h drained =>
    obtain ⟨e, work, _⟩ := work_of_draining a h
    exact atRest_of_drained work drained
  | _ => simp [Event.blocked, Event.shuttingDown, Event.ready, EventKind.isBetween] at between

theorem Ends.atRest {told : List Event} (d : Ends s i t t' es error) (a : t.Accounted told) : t.AtRest := by
  cases d with
  | unstarted h =>
    rw [Task.Accounted, h] at a
    exact a.1
  | undelayed h =>
    rw [Task.Accounted, h] at a
    exact a.1
  | finish h drained =>
    obtain ⟨e, work, _⟩ := work_of_draining a h
    exact atRest_of_drained work drained
  | fail h drained =>
    obtain ⟨e, work, _⟩ := work_of_draining a h
    exact atRest_of_drained work drained

theorem Goes.leaves (g : Goes s i t t' es) (before : t.phase.awaitsWork = true) (after : t'.phase.awaitsWork = false) :
    ∃ e, t.work = .ended e ∧ t'.phase = .draining e.outcome := by
  cases g with
  | leave _ work => exact ⟨_, work, rfl⟩
  | retry h => simp [h, Phase.awaitsWork] at before
  | block h => simp [h, Phase.awaitsWork] at before
  | pass h => simp [h, Phase.awaitsWork] at before
  | park h => simp [h, Phase.awaitsWork] at before
  | start => cases after
  | surface => cases after
  | @work sub => cases sub <;> exact absurd (before.symm.trans after) Bool.noConfusion
  | _ => exact absurd (before.symm.trans after) Bool.noConfusion

theorem Ends.not_awaitsWork (d : Ends s i t t' es error) : t.phase.awaitsWork = false := by
  cases d with
  | unstarted h => rw [h]; rfl
  | undelayed h => rw [h]; rfl
  | finish h => rw [h]; rfl
  | fail h => rw [h]; rfl

theorem Goes.closes (g : Goes s i t t' es) (before : t.isDraining = true) (after : t'.isDraining = false) :
    ∃ o, t.phase = .draining o ∧ t.Closes (t.attemptResult o) es := by
  cases g with
  | retry h _ result error =>
    refine ⟨_, h, ?_⟩
    rw [result]
    exact .retry error _
  | leave => cases after
  | block h => simp [Task.isDraining, h] at before
  | pass h => simp [Task.isDraining, h] at before
  | park h => simp [Task.isDraining, h] at before
  | surface h => simp [Task.isDraining, h] at before
  | start unblocked =>
    cases phase : t.phase <;> simp [Task.isDraining, phase] at before
    rw [phase] at unblocked
    cases unblocked
  | @work sub => cases sub <;> exact absurd (before.symm.trans after) Bool.noConfusion
  | _ => exact absurd (before.symm.trans after) Bool.noConfusion

theorem Ends.closes (d : Ends s i t t' es error) (before : t.isDraining = true) :
    ∃ o, t.phase = .draining o ∧ t.Closes (t.attemptResult o) es := by
  cases d with
  | unstarted h => simp [Task.isDraining, h] at before
  | undelayed h => simp [Task.isDraining, h] at before
  | finish h _ result =>
    refine ⟨_, h, ?_⟩
    rcases result with result | result
    · rw [result]
      exact .success
    · rw [result]
      exact .canceled
  | fail h _ result error =>
    refine ⟨_, h, ?_⟩
    rw [result]
    exact .failure error

/-- Nothing is left to wait for. -/
theorem act_of_allOver (h : s.task? i = some t) (draining : t.isDraining = true) (ended : t.AllOver) :
    (s.act (.actor i .proceed)).isSome := by
  have drained : t.isDrained = true := by
    refine List.all_eq_true.2 fun u hu => decide_eq_true ?_
    obtain ⟨j, hj⟩ := List.mem_iff_getElem?.1 hu
    have noted := ended.2 j (List.getElem?_eq_some_iff.1 hj).1
    rw [Task.ending?, hj, Option.bind_some] at noted
    refine Decidable.byContradiction fun watch => ?_
    rw [ending?_of_watch watch] at noted
    cases noted
  obtain ⟨o, phase⟩ := Task.phase_of_isDraining draining
  simp [act, actorStep, h, phase, drained]

theorem firstError_ne_canceled (t : Task) (order : List Nat) : t.firstError order ≠ some .canceled := by
  intro h
  obtain ⟨j, _, error⟩ := List.exists_of_findSome?_eq_some h
  obtain ⟨e, _, error⟩ := Option.bind_eq_some_iff.1 error
  have kept := (Option.filter_eq_some_iff.1 error).2
  exact absurd kept (by decide)

/-- The sub-units of an attempt, whoever has started them and however late, are never forgotten, and their ends are
kept in order. What is told at the end of an attempt and at the start of the next one is told only when all have ended;
from the moment at which the end of the work is seen until then, the attempt counts as cancelled. Then nothing keeps the
attempt from its end, and the error of the work closes it, or else the first error of a sub-unit, which is never that it
has been cancelled. -/
theorem attempt_closes_drained (run : Run s past) (h : s.task? i = some t) : ∃ order,
    EndOrder past i t order ∧
    (∀ m ∈ past, ∀ u, m.task? i = some u → u.attempt = t.attempt → u.subUnits.length ≤ t.subUnits.length) ∧
    (t.phase.awaitsWork = false → s.attemptCancelled i = true ∨ t.AllOver) ∧
    (t.isDraining = true → t.AllOver → (s.act (.actor i .proceed)).isSome) ∧
    t.firstError order ≠ some .canceled ∧
    ∀ a s' t', s.act a = some s' → s'.task? i = some t' → ∃ es, s'.published i = s.published i ++ es ∧
      ((∃ e ∈ es, e.kind.isBetween = true) → t.AllOver) ∧
      (t.phase.awaitsWork = true → t'.phase.awaitsWork = false → s'.attemptCancelled i = true ∧
        ∃ e, t.work = .ended e ∧ t'.phase = .draining e.outcome) ∧
      (t.isDraining = true → t'.isDraining = false →
        ∃ e, t.work = .ended e ∧ t.Closes (e.outcome <|> t.firstError order) es) := by
  have accounted := run.accounted h
  have noted := run.noted h
  obtain ⟨order, ended, first⟩ := run.endOrder h
  have closes {es : List Event} (closed : ∃ o, t.phase = .draining o ∧ t.Closes (t.attemptResult o) es) :
      ∃ e, t.work = .ended e ∧ t.Closes (e.outcome <|> t.firstError order) es := by
    obtain ⟨o, draining, closed⟩ := closed
    obtain ⟨e, work, rfl⟩ := work_of_draining accounted draining
    exact ⟨e, work, first ▸ closed⟩
  refine ⟨order, ended, fun m hm u hu => (run.subUnits_le hm hu h).2, fun left => ?_,
    act_of_allOver h, firstError_ne_canceled t order, fun a s' t' move h' => ?_⟩
  · rcases atRest_or_draining accounted left with rest | draining
    · exact .inr (allOver_of_atRest rest noted)
    · exact .inl (by simp [attemptCancelled, h, draining])
  · cases (act_effect move).fate h' with
    | new unmade => exact nomatch h.symm.trans unmade
    | same old told =>
      cases h.symm.trans old
      refine ⟨[], told.trans (List.append_nil _).symm, fun between => ?_, fun before after => ?_,
        fun before after => ?_⟩
      · obtain ⟨e, he, _⟩ := between
        cases he
      · exact absurd (before.symm.trans after) Bool.noConfusion
      · exact absurd (before.symm.trans after) Bool.noConfusion
    | goes old g told =>
      cases h.symm.trans old
      refine ⟨_, told, fun between => allOver_of_atRest (g.atRest accounted between) noted, fun before after => ?_,
        fun before after => closes (g.closes before after)⟩
      obtain ⟨e, work, phase⟩ := g.leaves before after
      exact ⟨by simp [attemptCancelled, h', Task.isDraining, phase], e, work, phase⟩
    | ends old d told =>
      cases h.symm.trans old
      refine ⟨_, told, fun _ => allOver_of_atRest (d.atRest accounted) noted, fun before _ => ?_,
        fun before _ => closes (d.closes before)⟩
      exact absurd (before.symm.trans d.not_awaitsWork) Bool.noConfusion

/-- A sub-unit starts another one after the work has returned, which fails first; the first one panics. -/
def nested : List Act :=
  [.supervise { name := "a", task := "a", retries := true }, .actor 0 .proceed, .actor 0 .proceed,
    .spawn ⟨0, none⟩ [], .watch 0 0, .work ⟨0, none⟩ (.ended (.returned none)), .actor 0 .proceed,
    .spawn ⟨0, some 0⟩ [], .watch 0 1, .work ⟨0, some 1⟩ (.ended (.returned (some (.fail "x")))), .watch 0 1,
    .work ⟨0, some 0⟩ (.ended (.panicked "p")), .watch 0 0]

theorem attempt_closes_drained_nested : ∃ s past t, Run s past ∧ s.task? 0 = some t ∧
    t.ending? 0 = some (.panicked "p") ∧ t.ending? 1 = some (.returned (some (.fail "x"))) ∧
    (∃ s', s.act (.actor 0 .proceed) = some s' ∧
      s'.published 0 = s.published 0 ++ [.failed "a" 1 "x", .backoff "a" 1 100 "x"]) ∧
    ∃ order, EndOrder past 0 t order ∧
      (∀ m ∈ past, ∀ u, m.task? 0 = some u → u.attempt = t.attempt → u.subUnits.length ≤ t.subUnits.length) ∧
      (t.phase.awaitsWork = false → s.attemptCancelled 0 = true ∨ t.AllOver) ∧
      (t.isDraining = true → t.AllOver → (s.act (.actor 0 .proceed)).isSome) ∧
      t.firstError order ≠ some .canceled ∧
      ∀ a s' t', s.act a = some s' → s'.task? 0 = some t' → ∃ es, s'.published 0 = s.published 0 ++ es ∧
        ((∃ e ∈ es, e.kind.isBetween = true) → t.AllOver) ∧
        (t.phase.awaitsWork = true → t'.phase.awaitsWork = false → s'.attemptCancelled 0 = true ∧
          ∃ e, t.work = .ended e ∧ t'.phase = .draining e.outcome) ∧
        (t.isDraining = true → t'.isDraining = false →
          ∃ e, t.work = .ended e ∧ t.Closes (e.outcome <|> t.firstError order) es) := by
  obtain ⟨s, past, run, h⟩ := exists_run
    (P := fun s => (s.task? 0).any (fun t => t.ending? 0 = some (.panicked "p") ∧
        t.ending? 1 = some (.returned (some (.fail "x")))) &&
      (s.act (.actor 0 .proceed)).any fun s' =>
        s'.published 0 = s.published 0 ++ [.failed "a" 1 "x", .backoff "a" 1 100 "x"])
    nested (by decide +kernel)
  obtain ⟨ends, next⟩ := Bool.and_eq_true_iff.1 h
  obtain ⟨t, ht, ends⟩ := (Option.any_eq_true _ _).1 ends
  obtain ⟨s', move, told⟩ := (Option.any_eq_true _ _).1 next
  obtain ⟨panicked, failed⟩ := of_decide_eq_true ends
  exact ⟨s, past, t, run, ht, panicked, failed, ⟨s', move, of_decide_eq_true told⟩, attempt_closes_drained run ht⟩

end Supervisor

end Switchyard
