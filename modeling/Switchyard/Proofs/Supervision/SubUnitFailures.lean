import Switchyard.Proofs.Supervision.Draining
import Switchyard.Proofs.Supervision.RetrySchedule

/-!
What becomes of the failures of sub-units. Main statement: behind work that has succeeded, the first of them is told as
the failure of the attempt and listed unless another attempt starts; behind work that says it was canceled, all of them
are lost.
-/
namespace Switchyard

namespace Task

variable {t : Task} {o : Outcome} {es : List Event}

theorem Closes.between (c : t.Closes o es) : ∃ e ∈ es, e.kind.isBetween = true := by
  cases c with
  | success => exact ⟨_, List.mem_singleton_self _, rfl⟩
  | canceled => exact ⟨_, List.mem_singleton_self _, rfl⟩
  | failure => exact ⟨_, List.mem_cons_self, rfl⟩
  | retry => exact ⟨_, List.mem_cons_self, rfl⟩

theorem Closes.not_starting (c : t.Closes o es) : ¬ ∃ e ∈ es, e.kind = .taskStarting := by
  cases c <;> simp [Event.failed, Event.terminated, Event.backoff]

end Task

namespace Supervisor

variable {s s' m : Supervisor} {i : TaskId} {t t' u : Task} {past : List Supervisor} {order : List Nat}

/-! ### The first failure -/

/-- A move that ends a drain closes the attempt, and leaves its failure as it is. -/
theorem Run.closes (run : Run s past) (h : s.task? i = some t) (e : Effect s s') (h' : s'.task? i = some t')
    (before : t.isDraining = true) (after : t'.isDraining = false) :
    ∃ o es, t.phase = .draining o ∧ s'.published i = s.published i ++ es ∧ t.Closes (t.attemptResult o) es ∧
      t.AtRest ∧ t'.AtRest ∧ t'.failure? = t.failure? := by
  have accounted := run.accounted h
  cases e.fate h' with
  | new unmade => exact absurd (h.symm.trans unmade) nofun
  | same old =>
    cases h.symm.trans old
    exact absurd (before.symm.trans after) Bool.noConfusion
  | goes old g told =>
    cases h.symm.trans old
    obtain ⟨o, phase, closes⟩ := g.closes before after
    -- what closes an attempt finds it at rest, and does not start another one
    have rest := g.atRest accounted closes.between
    have kept := (g.of_atRest rest (run.noted h)).resolve_right fun start => closes.not_starting start.2
    exact ⟨o, _, phase, told, closes, rest, kept⟩
  | ends old d told =>
    cases h.symm.trans old
    obtain ⟨o, phase, closes⟩ := d.closes before
    have rest := d.atRest accounted
    exact ⟨o, _, phase, told, closes, rest, d.of_atRest rest⟩

/-! ### Until the next attempt -/

/-- What has become by `s` of registration `i`, which was at rest at `u` in `m`: it has started anew, or what its latest
attempt has come to still lasts. A task that has ended tells nothing more. -/
def Lasts (m : Supervisor) (u : Task) (i : TaskId) (s : Supervisor) : Prop :=
  ∃ t news, s.task? i = some t ∧ t.name = u.name ∧ s.published i = m.published i ++ news ∧
    ((∃ e ∈ news, e.kind = .taskStarting) ∨ t.AtRest ∧ t.failure? = u.failure?) ∧
    (u.phase = .done → t.phase = .done ∧ news = [])

theorem Lasts.move (lasts : Lasts m u i s) (run : Run s past) (e : Effect s s') : Lasts m u i s' := by
  obtain ⟨t, news, h, name, told, latest, final⟩ := lasts
  have started {es : List Event} (before : ∃ e ∈ news, e.kind = .taskStarting) :
      ∃ e ∈ news ++ es, e.kind = .taskStarting := by
    obtain ⟨e, he, starting⟩ := before
    exact ⟨e, List.mem_append_left _ he, starting⟩
  obtain ⟨t', h'⟩ := e.task? h
  cases e.fate h' with
  | new unmade => exact absurd (h.symm.trans unmade) nofun
  | same old untold =>
    cases h.symm.trans old
    exact ⟨_, news, h', name, untold.trans told, latest, final⟩
  | @goes _ _ es old g more =>
    cases h.symm.trans old
    refine ⟨t', news ++ es, h', (congrArg Worker.name g.worker).trans name, ?_, ?_, fun done => ?_⟩
    · rw [more, told, List.append_assoc]
    · rcases latest with before | ⟨rest, same⟩
      · exact .inl (started before)
      · rcases g.of_atRest rest (run.noted h) with ⟨rest', same'⟩ | ⟨_, e, he, starting⟩
        · exact .inr ⟨rest', same'.trans same⟩
        · exact .inl ⟨e, List.mem_append_right _ he, starting⟩
    · -- readiness is all that could still be told, and only of a task that runs
      obtain ⟨done, rfl⟩ := final done
      have terminated : t.state = .terminated := (terminated_iff_done (run.chronicle h)).2 done
      exact ⟨g.done_iff.2 done, g.silent done (by simp [terminated])⟩
  | @ends _ _ es _ old d more =>
    cases h.symm.trans old
    refine ⟨t', news ++ es, h', (congrArg Worker.name d.worker).trans name, ?_, ?_, fun done => ?_⟩
    · rw [more, told, List.append_assoc]
    · rcases latest with before | ⟨rest, same⟩
      · exact .inl (started before)
      · obtain ⟨rest', same'⟩ := d.of_atRest rest
        exact .inr ⟨rest', same'.trans same⟩
    · exact absurd (final done).1 d.not_done

theorem Run.lasts (run : Run m past) (h : m.task? i = some u) (rest : u.AtRest) {as : List Act}
    (acts : m.acts as = some s) : (∃ past, Run s past) ∧ Lasts m u i s := by
  refine kept_of_foldlM (P := fun s => (∃ past, Run s past) ∧ Lasts m u i s) (fun move before => ?_) acts
    ⟨⟨past, run⟩, u, [], h, rfl, (List.append_nil _).symm, .inr ⟨rest, rfl⟩, fun done => ⟨done, rfl⟩⟩
  obtain ⟨⟨past, run⟩, lasts⟩ := before
  exact ⟨⟨_, run.move move⟩, lasts.move run (act_effect move)⟩

end Supervisor

end Switchyard
