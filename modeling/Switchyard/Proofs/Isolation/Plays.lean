import Switchyard.Proofs.Isolation.Likeness
import Switchyard.Proofs.Schedule

/-!
Plays of a scenario: requests come from outside, each at an instant at which nothing more is to be expected. Main
statement: while all scripts call nobody, every system of a play is one whose calm tasks wait for what the registry
leads to.
-/
namespace Switchyard

namespace Supervisor

variable {s s' : Supervisor} {i j : TaskId} {t t' u : Task} {c : Change} {past : List Supervisor} {calm : String → Prop}

/-! ### What a blocked task waits for -/

theorem Faithful.of_phase (faithful : s.Faithful t)
    (parked : ∀ pending p, t'.phase = .blocked pending (some p) → t.phase = .blocked pending (some p)) :
    s.Faithful t' :=
  fun r rest p j blocked on => faithful r rest p j (parked _ p blocked) on

theorem Faithful.kept (faithful : s.Faithful t) (lookup : ∀ name, s'.lookup name = s.lookup name)
    (gone : ∀ j, s.everReady j = false → s.isTerminated j = true → s'.everReady j = false ∧ s'.isTerminated j = true) :
    s'.Faithful t := by
  intro r rest p j blocked on
  rcases faithful r rest p j blocked on with found | ⟨unready, terminated⟩
  · exact .inl ((lookup r).trans found)
  · exact .inr (gone j unready terminated)

theorem lookup_apply (s : Supervisor) (i : TaskId) (c : Change) (name : String) :
    (s.apply i c).lookup name = s.lookup name := by
  unfold apply
  split <;> exact lookup_amend ..

theorem task?_apply_self (h : s.task? i = some t) (c : Change) : (s.apply i c).task? i = some c.task := by
  unfold apply
  split <;> exact task?_amend_self (lt_of_task? h)

theorem task?_apply_of_ne (other : j ≠ i) (c : Change) : (s.apply i c).task? j = s.task? j := by
  unfold apply
  split <;> exact task?_amend_of_ne other

theorem mem_tasks_apply (h : u ∈ (s.apply i c).tasks) : u ∈ s.tasks ∨ u = c.task := by
  have tasks : (s.apply i c).tasks = s.tasks.set i c.task := by
    unfold apply
    split <;> exact tasks_amend ..
  rw [tasks] at h
  exact List.mem_or_eq_of_mem_set h

/-- Whoever has ended unready stays so in a change that keeps this of the task it touches. -/
theorem over_apply (h : s.task? i = some t)
    (kept : t.everReady = false → t.isTerminated = true → c.task.everReady = false ∧ c.task.isTerminated = true)
    (unready : s.everReady j = false) (terminated : s.isTerminated j = true) :
    (s.apply i c).everReady j = false ∧ (s.apply i c).isTerminated j = true := by
  by_cases same : j = i
  · subst same
    rw [everReady_of_task? h] at unready
    rw [isTerminated, h, Option.any_some] at terminated
    rw [everReady_of_task? (task?_apply_self h c), isTerminated, task?_apply_self h c, Option.any_some]
    exact kept unready terminated
  · rw [everReady, isTerminated, task?_apply_of_ne same]
    exact ⟨unready, terminated⟩

/-! ### All scripts call nobody -/

/-- The scripts of all tasks call nobody, the calm tasks require only calm ones, and what they wait for is what it
should be. -/
structure Composed (calm : String → Prop) (s : Supervisor) : Prop where
  run : ∃ past, Run s past
  own : ∀ t ∈ s.tasks, t.Own
  closed : ∀ t ∈ s.tasks, calm t.name → ∀ r ∈ t.worker.requires, calm r
  faithful : ∀ t ∈ s.tasks, calm t.name → s.Faithful t

theorem Composed.apply (composed : Composed calm s) (h : s.task? i = some t) (worker : c.task.worker = t.worker)
    (own : c.task.Own) (faithful : calm t.name → s.Faithful c.task)
    (kept : t.everReady = false → t.isTerminated = true → c.task.everReady = false ∧ c.task.isTerminated = true)
    (run : ∃ past, Run (s.apply i c) past) : Composed calm (s.apply i c) := by
  have named : c.task.name = t.name := congrArg Worker.name worker
  have still {v : Task} (faithful : s.Faithful v) : (s.apply i c).Faithful v :=
    faithful.kept (lookup_apply s i c) fun j unready terminated => over_apply h kept unready terminated
  refine ⟨run, fun u hu => ?_, fun u hu calm => ?_, fun u hu calm => ?_⟩
  · rcases mem_tasks_apply hu with old | rfl
    · exact composed.own u old
    · exact own
  · rcases mem_tasks_apply hu with old | rfl
    · exact composed.closed u old calm
    · rw [worker]
      exact composed.closed t (List.mem_of_getElem? h) (named ▸ calm)
  · rcases mem_tasks_apply hu with old | rfl
    · exact still (composed.faithful u old calm)
    · exact still (faithful (named ▸ calm))

theorem Composed.inner (composed : Composed calm s) (h : s.task? i = some t) {x : Surroundings} {m : Inner}
    (turns : t.inner x m = some c) (run : ∃ past, Run (s.apply i c) past) : Composed calm (s.apply i c) := by
  have mem : t ∈ s.tasks := List.mem_of_getElem? h
  have proper := Task.inner_proper (composed.own t mem) turns
  refine composed.apply h proper.worker (proper.own (composed.own t mem))
    (fun calm => (composed.faithful t mem calm).of_phase proper.parked) (fun unready terminated => ?_) run
  obtain ⟨past, before⟩ := composed.run
  have done : t.phase = .done := (terminated_iff_done (before.chronicle h)).1 (Task.isTerminated_iff.1 terminated)
  obtain ⟨same, gone⟩ := Task.inner_of_done (composed.own t mem) done terminated turns
  exact ⟨same.trans unready, gone⟩

theorem Composed.looks (composed : Composed calm s) (h : s.task? i = some t) (looks : s.Looks i t s')
    (run : ∃ past, Run s' past) : Composed calm s' := by
  obtain ⟨pending, parked, parked', _, rfl, current⟩ := looks
  have own := composed.own t (List.mem_of_getElem? h)
  have reparked : Composed calm (s.apply i { task := { t with phase := .blocked pending parked' } }) := by
    refine composed.apply h rfl ⟨own.worker, own.work, own.subUnits⟩ (fun _ => ?_) (fun unready gone => ⟨unready, gone⟩) run
    intro r rest p j blocked on
    obtain ⟨rfl, rfl⟩ := Phase.blocked.inj blocked
    obtain ⟨r', rest', first, found⟩ := current p j rfl on
    cases first
    exact .inl found
  exact reparked

/-- What a blocked task waits for has not been ready. -/
def Unmet (s : Supervisor) (t : Task) : Prop :=
  ∀ r rest p j, t.phase = .blocked (r :: rest) (some p) → p.on = some j → s.everReady j = false

theorem Composed.supervise (composed : Composed calm s) {w : Worker Action} (h : s.supervise w = .ok s')
    (own : w.Own) (closed : calm w.name → ∀ r ∈ w.requires, calm r)
    (unmet : ∀ t ∈ s.tasks, calm t.name → s.Unmet t) : Composed calm s' := by
  obtain ⟨past, run⟩ := composed.run
  have tasks : s'.tasks = s.tasks ++ [{ worker := w }] := by rw [supervise_eq h]
  have cases {u : Task} (hu : u ∈ s'.tasks) : u ∈ s.tasks ∨ u = { worker := w } := by
    rw [tasks] at hu
    exact (List.mem_append.1 hu).imp_right List.mem_singleton.1
  refine ⟨⟨_, run.move (act_supervise.2 h)⟩, fun u hu => ?_, fun u hu calm => ?_, fun u hu calm => ?_⟩
  · rcases cases hu with old | rfl
    · exact composed.own u old
    · exact ⟨own, trivial, List.forall_mem_nil _⟩
  · rcases cases hu with old | rfl
    · exact composed.closed u old calm
    · exact closed calm
  · rcases cases hu with old | rfl
    · intro r rest p j blocked on
      have unready : s.everReady j = false := unmet u old calm r rest p j blocked on
      have gone {k : TaskId} (terminated : s.isTerminated k = true) (unready : s.everReady k = false) :
          s'.everReady k = false ∧ s'.isTerminated k = true := by
        obtain ⟨v, hv, _⟩ := (Option.any_eq_true _ _).1 terminated
        have kept : s'.task? k = s.task? k := by rw [task?_supervise h, if_neg (Nat.ne_of_lt (lt_of_task? hv))]
        rw [everReady, isTerminated, kept]
        exact ⟨unready, terminated⟩
      rw [lookup_supervise h]
      rcases composed.faithful u old calm r rest p j blocked on with found | ⟨_, terminated⟩
      · split
        next same =>
          -- the name was free, so whoever had it has ended without having been ready
          obtain ⟨v, hv, _⟩ := run.name_of_lookup found
          have terminated : v.isTerminated = true := by
            have free := isLive_of_supervise h
            rw [← same] at free
            by_contra alive
            have live := isLive_of_lookup found hv (Bool.not_eq_true _ ▸ alive)
            exact Bool.false_ne_true (free.symm.trans live)
          exact .inr (gone (by rw [isTerminated, hv, Option.any_some, terminated]) unready)
        next => exact .inl found
      · exact .inr (gone terminated unready)
    · intro r rest p j blocked
      cases blocked

theorem Composed.stop (composed : Composed calm s) (name : String) : Composed calm (s.stop name).2 := by
  obtain ⟨past, run⟩ := composed.run
  have moved : s.act (.stop name) = some (s.stop name).2 := rfl
  cases found : s.lookup name with
  | none => rwa [stop_of_none found]
  | some i =>
    obtain ⟨t, h, _⟩ := run.name_of_lookup found
    have stopped := stop_apply found h
    have own := composed.own t (List.mem_of_getElem? h)
    have proper := stop_proper t
    rw [stopped] at moved ⊢
    split
    next => exact composed
    next alive =>
      rw [if_neg alive] at moved
      exact composed.apply h rfl (proper.own own)
        (fun calm => (composed.faithful t (List.mem_of_getElem? h) calm).of_phase proper.parked)
        (fun unready gone => ⟨unready, gone⟩) ⟨_, run.move moved⟩

theorem Composed.shutdown (composed : Composed calm s) : Composed calm s.shutdown := by
  obtain ⟨past, run⟩ := composed.run
  have moved : s.act .shutdown = some s.shutdown := rfl
  have still {t : Task} (faithful : s.Faithful t) : s.shutdown.Faithful t := by
    refine faithful.kept (fun name => ?_) fun j unready gone => ?_
    · rw [lookup, registry_shutdown, lookup]
    · rw [everReady, isTerminated, task?_shutdown]
      exact ⟨unready, gone⟩
  have same (t : Task) (ht : t ∈ s.shutdown.tasks) : t ∈ s.tasks := tasks_shutdown ▸ ht
  exact ⟨⟨_, run.move moved⟩, fun t ht => composed.own t (same t ht), fun t ht => composed.closed t (same t ht),
    fun t ht calm => still (composed.faithful t (same t ht) calm)⟩

theorem Composed.clock (composed : Composed calm s) {time : Nat} (later : s.now ≤ time) :
    Composed calm { s with now := time } := by
  obtain ⟨past, run⟩ := composed.run
  have moved : s.act (.clock time) = some { s with now := time } := if_pos later
  exact ⟨⟨_, run.move moved⟩, composed.own, composed.closed, composed.faithful⟩

end Supervisor

theorem Task.pass_ne {t : Task} {r : String} {rest : List String} {parked : Option Parked}
    (blocked : t.phase = .blocked (r :: rest) parked) : (t.pass rest).task.unparked ≠ t.unparked := by
  intro same
  have phase : (t.pass rest).task.unparked.phase = .blocked (r :: rest) none := by
    rw [same, Task.unparked, blocked, Phase.unparked]
  unfold Task.pass at phase
  split at phase
  · cases phase
  · have fewer : rest = r :: rest := (Phase.blocked.inj phase).1
    exact List.cons_ne_self r rest fewer.symm

namespace System

open Supervisor

variable {s s' start : System} {i : TaskId} {t : Task} {calm : String → Prop} {q : Request}
  {asked : List (Nat × Request)}

/-! ### Plays -/

/-- No step shows on a calm task. -/
def Idle (calm : String → Prop) (s : System) : Prop :=
  ∀ l s', s.step l = some s' → ∀ name, calm name → s'.supervisor.sight name = s.supervisor.sight name

/-- The instant is over: nothing can happen, or there is no end to what happens and none of it shows on a calm task. -/
def Rests (calm : String → Prop) (s : System) : Prop :=
  s.Settled ∨ s.Idle calm ∧ ∀ s', s.Steps s' → ¬ s'.Settled

/-- What comes of a scenario, in any order of the steps of an instant. Somebody outside asks for one thing after the
other, at the times given, and time goes on, when an instant is over. -/
inductive Plays (calm : String → Prop) (start : System) : List (Nat × Request) → System → Prop
  | start : Plays calm start [] start
  | step {asked : List (Nat × Request)} {s s' : System} {l : Label} (h : Plays calm start asked s)
      (m : s.step l = some s') : Plays calm start asked s'
  | tick {asked : List (Nat × Request)} {s : System} (h : Plays calm start asked s) (rests : s.Rests calm) :
      Plays calm start asked (s.setClock (s.supervisor.now + 1))
  | ask {asked : List (Nat × Request)} {s : System} (h : Plays calm start asked s) (rests : s.Rests calm)
      (q : Request) : Plays calm start (asked ++ [(s.supervisor.now, q)]) (s.onSupervisor (·.ask q))

/-- A worker asked for calls nobody, and if it is calm, requires only calm ones. -/
def Permits (calm : String → Prop) (q : Request) : Prop :=
  ∀ w, q = .supervise w → w.Own ∧ (calm w.name → ∀ r ∈ w.requires, calm r)

theorem composed_step (composed : Composed calm s.supervisor) {l : Label} (h : s.step l = some s') :
    Composed calm s'.supervisor := by
  obtain ⟨past, run⟩ := composed.run
  have run' : ∃ past, Run s'.supervisor past := run.follows (step_follows h)
  have step := step_local composed.own h
  revert run' step
  generalize s'.supervisor = r
  intro run' step
  cases step with
  | turn h sees turns => exact composed.inner h turns run'
  | look h looks => exact composed.looks h looks run'
  | aside mailboxes => exact ⟨run', composed.own, composed.closed, composed.faithful⟩

/-- What has been ready is not waited for when the instant is over. -/
theorem unmet_of_rests (rests : s.Rests calm) (h : t ∈ s.supervisor.tasks) (still : calm t.name) : s.supervisor.Unmet t := by
  intro r rest p j blocked on
  obtain ⟨i, ht⟩ := List.getElem?_of_mem h
  have ht : s.supervisor.task? i = some t := ht
  by_contra ready
  have ready : s.supervisor.everReady j = true := by simpa using ready
  have opens : s.supervisor.actorStep i .proceed = some (s.supervisor.apply i (t.pass rest)) := by
    rw [← requirementMet_apply ht]
    simp [actorStep, ht, blocked, on, ready]
  have steps : s.step (.actor i .proceed) = some { s with supervisor := s.supervisor.apply i (t.pass rest) } := by
    rw [step, opens, Option.map_some]
  rcases rests with settled | ⟨idle, _⟩
  · exact absurd (steps.symm.trans (settled _)) (Option.some_ne_none _)
  · -- to go on from a requirement shows
    have same : (s.supervisor.apply i (t.pass rest)).sight t.name = s.supervisor.sight t.name := idle _ _ steps t.name still
    rw [sight_apply ht (Task.pass_proper t rest), if_pos rfl] at same
    have tasks : (s.supervisor.tasksOf t.name).set (s.supervisor.rank t.name i) (t.pass rest).task.unparked =
        s.supervisor.tasksOf t.name := congrArg Sight.tasks same
    have before := tasksOf_rank ht rfl
    have after := List.getElem?_set_self (a := (t.pass rest).task.unparked) (List.getElem?_eq_some_iff.1 before).1
    rw [tasks, before] at after
    exact Task.pass_ne blocked (Option.some.inj after).symm

theorem composed_ask (composed : Composed calm s.supervisor) (rests : s.Rests calm) (permits : Permits calm q) :
    Composed calm (s.supervisor.ask q) := by
  cases q with
  | supervise w =>
    obtain ⟨own, closed⟩ := permits w rfl
    rcases ask_supervise s.supervisor w with ⟨_, refused⟩ | ⟨_, registered⟩
    · rwa [refused]
    · exact composed.supervise registered own closed fun t mem still => unmet_of_rests rests mem still
  | stop name => exact composed.stop name
  | shutdown => exact composed.shutdown

theorem Plays.composed (plays : Plays calm start asked s) (fresh : Composed calm start.supervisor)
    (permits : ∀ p ∈ asked, Permits calm p.2) : Composed calm s.supervisor := by
  induction plays with
  | start => exact fresh
  | step _ m ih => exact composed_step (ih permits) m
  | tick _ _ ih => exact (ih permits).clock (Nat.le_succ _)
  | ask _ rests q ih =>
    have before := ih fun p mem => permits p (List.mem_append_left _ mem)
    exact composed_ask before rests (permits _ (List.mem_append_right _ List.mem_cons_self))

end System

end Switchyard
