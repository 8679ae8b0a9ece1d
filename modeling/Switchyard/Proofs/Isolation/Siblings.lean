import Mathlib.Data.List.Forall2
import Switchyard.Proofs.Isolation.Plays

/-!
Tasks that do not need each other do not feel each other. Main statement: other scripts for one worker, and another
choice whether it is tried again, change nothing of what is told and recorded under names that do not need it.
-/
namespace Switchyard.System

open Supervisor

variable {s s' r r' start : System} {calm : String → Prop} {q q' : Request} {x : String}
  {asked asked' : List (Nat × Request)}

/-! ### One instant -/

/-- A step takes no time, and asks nobody to stop. -/
theorem keeps_step (composed : Composed calm s.supervisor) {l : Label} (h : s.step l = some s') :
    s'.supervisor.now = s.supervisor.now ∧ s'.supervisor.backoff = s.supervisor.backoff ∧
      s'.supervisor.shuttingDown = s.supervisor.shuttingDown := by
  have step := step_local composed.own h
  revert step
  generalize s'.supervisor = v
  intro step
  cases step with
  | turn => exact ⟨now_apply .., backoff_apply .., shuttingDown_apply ..⟩
  | look _ looks =>
    obtain ⟨_, _, _, _, rfl, _⟩ := looks
    exact ⟨now_amend .., backoff_amend .., shuttingDown_amend ..⟩
  | aside => exact ⟨rfl, rfl, rfl⟩

theorem alike_of_idle (composed : Composed calm s.supervisor) (idle : s.Idle calm) {l : Label}
    (h : s.step l = some s') : Alike calm s.supervisor s'.supervisor := by
  obtain ⟨now, backoff, shuttingDown⟩ := keeps_step composed h
  exact ⟨now, backoff, shuttingDown, idle l s' h⟩

/-- What shows of a step in one system can happen in another that looks alike. -/
theorem exists_step (alike : Alike calm s.supervisor s'.supervisor) (composed : Composed calm s.supervisor)
    (composed' : Composed calm s'.supervisor) {l : Label} (h : s.step l = some r) :
    ∃ r', (r' = s' ∨ ∃ l', s'.step l' = some r') ∧ Alike calm r.supervisor r'.supervisor := by
  obtain ⟨past, run⟩ := composed.run
  obtain ⟨past', run'⟩ := composed'.run
  have step := step_local composed.own h
  revert step
  generalize r.supervisor = v
  intro step
  cases step with
  | look h looks => exact ⟨s', .inl rfl, (alike_of_looks h looks).symm.trans alike⟩
  | aside mailboxes => exact ⟨s', .inl rfl, (alike_aside mailboxes).symm.trans alike⟩
  | @turn i t _ m c h sees turns =>
    have mem : t ∈ s.supervisor.tasks := List.mem_of_getElem? h
    have proper := Task.inner_proper (composed.own t mem) turns
    by_cases still : calm t.name
    · -- the peer finds around itself what the task has found
      obtain ⟨j, t', h', same, rank⟩ := alike.exists_peer h still
      have own' := composed'.own t' (List.mem_of_getElem? h')
      have around := alike.surroundings run run' same (run.watching h) (composed.closed t mem still)
      rw [sees (composed.faithful t mem still), ← around] at turns
      obtain ⟨c', turns', unparked⟩ := Task.exists_inner same turns
      obtain ⟨l', r', steps, applied⟩ := exists_step_of_inner h' own' (run'.watching h') turns'
      have named : t'.name = t.name := by
        have worker : t'.unparked.worker = t.unparked.worker := by rw [same]
        exact congrArg Worker.name worker
      refine ⟨r', .inr ⟨l', steps⟩, ?_⟩
      rw [applied]
      exact alike.apply h h' proper (Task.inner_proper own' turns') named rank unparked
    · exact ⟨s', .inl rfl, (alike_apply h proper still).symm.trans alike⟩

/-- While one system is idle, nothing shows in another that looks alike. -/
theorem alike_of_idle_other (alike : Alike calm s.supervisor s'.supervisor) (composed : Composed calm s.supervisor)
    (composed' : Composed calm s'.supervisor) (idle : s.Idle calm) {l : Label} (h : s'.step l = some r') :
    Alike calm s.supervisor r'.supervisor := by
  obtain ⟨r, same | ⟨l', steps⟩, like⟩ := exists_step alike.symm composed' composed h
  · rw [same] at like
    exact like.symm
  · exact (alike_of_idle composed idle steps).trans like.symm

theorem alike_of_idle_steps (alike : Alike calm s.supervisor s'.supervisor) (composed : Composed calm s.supervisor)
    (composed' : Composed calm s'.supervisor) (idle : s.Idle calm) (h : s'.Steps r') :
    Alike calm s.supervisor r'.supervisor ∧ Composed calm r'.supervisor := by
  induction h with
  | refl => exact ⟨alike, composed'⟩
  | tail _ m ih =>
    obtain ⟨l, m⟩ := m
    obtain ⟨alike, composed'⟩ := ih
    exact ⟨alike_of_idle_other alike composed composed' idle m, composed_step composed' m⟩

/-- When the instant is over for one system, it can be over for another that looks alike. -/
theorem exists_rests (alike : Alike calm s.supervisor s'.supervisor) (composed : Composed calm s.supervisor)
    (composed' : Composed calm s'.supervisor) (rests : s.Rests calm) :
    ∃ r', s'.Steps r' ∧ r'.Rests calm ∧ Alike calm s.supervisor r'.supervisor := by
  have idle : s.Idle calm := by
    rcases rests with settled | ⟨idle, _⟩
    · exact fun l r h => nomatch (settled l).symm.trans h
    · exact idle
  by_cases ends : ∃ r', s'.Steps r' ∧ r'.Settled
  · obtain ⟨r', steps, settled⟩ := ends
    exact ⟨r', steps, .inl settled, (alike_of_idle_steps alike composed composed' idle steps).1⟩
  · have endless : ∀ r', s'.Steps r' → ¬ r'.Settled := fun r' steps settled => ends ⟨r', steps, settled⟩
    have idle' : s'.Idle calm := fun l r' h name still =>
      ((alike_of_idle_other alike composed composed' idle h).sight name still).trans (alike.sight name still).symm
    exact ⟨s', .refl, .inr ⟨idle', endless⟩, alike⟩

/-! ### Requests -/

/-- The worker of this name gets other scripts, and another choice whether it is tried again; all else stays. -/
inductive Recast (x : String) : Nat × Request → Nat × Request → Prop
  | same (p : Nat × Request) : Recast x p p
  | other (time : Nat) {w : Worker Action} (named : w.name = x) (scripts : List (List Action)) (retries : Bool) :
      Recast x (time, .supervise w) (time, .supervise { w with scripts, retries })

theorem Recast.symm {p p' : Nat × Request} (h : Recast x p p') : Recast x p' p := by
  cases h with
  | same => exact .same p
  | @other time w named scripts retries => exact .other (w := { w with scripts, retries }) time named w.scripts w.retries

theorem alike_loud (v : Supervisor) {w : Worker Action} (loud : ¬ calm w.name) :
    Alike calm v (v.ask (.supervise w)) := by
  rcases ask_supervise v w with ⟨_, refused⟩ | ⟨_, registered⟩
  · rw [refused]
    exact .refl calm _
  · exact alike_loud_supervise registered loud

theorem alike_ask (alike : Alike calm s.supervisor s'.supervisor) (composed : Composed calm s.supervisor)
    (composed' : Composed calm s'.supervisor) (q : Request) :
    Alike calm (s.supervisor.ask q) (s'.supervisor.ask q) := by
  obtain ⟨past, run⟩ := composed.run
  obtain ⟨past', run'⟩ := composed'.run
  cases q with
  | supervise w =>
    by_cases still : calm w.name
    · have live := alike.isLive run run' still
      rcases ask_supervise s.supervisor w with ⟨taken, refused⟩ | ⟨free, registered⟩
      · rcases ask_supervise s'.supervisor w with ⟨_, refused'⟩ | ⟨free', _⟩
        · rwa [refused, refused']
        · exact absurd (taken.symm.trans (live.symm.trans free')) nofun
      · rcases ask_supervise s'.supervisor w with ⟨taken', _⟩ | ⟨_, registered'⟩
        · exact absurd (free.symm.trans (live.symm.trans taken')) nofun
        · exact alike_supervise alike registered registered'
    · exact ((alike_loud _ still).symm.trans alike).trans (alike_loud _ still)
  | stop name =>
    by_cases still : calm name
    · exact alike.stop run run' still
    · exact ((alike_loud_stop run still).symm.trans alike).trans (alike_loud_stop run' still)
  | shutdown => exact alike.shutdown

theorem Recast.time {p p' : Nat × Request} (h : Recast x p p') : p'.1 = p.1 := by
  cases h with
  | same => rfl
  | other => rfl

/-- The last request of the one scenario stands in the place of the last one of the other. -/
theorem exists_last {p : Nat × Request} (h : List.Forall₂ (Recast x) (asked ++ [p]) asked') :
    ∃ front p', asked' = front ++ [p'] ∧ List.Forall₂ (Recast x) asked front ∧ Recast x p p' := by
  have turned : List.Forall₂ (flip (Recast x)) asked' (asked ++ [p]) := List.Forall₂.flip (R := flip (Recast x)) h
  have front := (List.forall₂_take_append _ _ _ turned).flip
  have last := (List.forall₂_drop_append _ _ _ turned).flip
  obtain ⟨p', rest, recast, none, split⟩ := List.forall₂_cons_left_iff.1 last
  cases none
  refine ⟨asked'.take asked.length, p', ?_, front, recast⟩
  rw [← split, List.take_append_drop]

theorem alike_recast (alike : Alike calm s.supervisor s'.supervisor) (composed : Composed calm s.supervisor)
    (composed' : Composed calm s'.supervisor) (loud : ¬ calm x) {p p' : Nat × Request} (recast : Recast x p p') :
    Alike calm (s.supervisor.ask p.2) (s'.supervisor.ask p'.2) := by
  cases recast with
  | same => exact alike_ask alike composed composed' p.2
  | other time named =>
    have still : ¬ calm _ := named ▸ loud
    exact ((alike_loud _ still).symm.trans alike).trans (alike_loud _ still)

/-! ### Plays -/

theorem Plays.steps (plays : Plays calm start asked s) (h : s.Steps s') : Plays calm start asked s' := by
  induction h with
  | refl => exact plays
  | tail _ m ih =>
    obtain ⟨l, m⟩ := m
    exact .step ih m

/-- Every play of a scenario has its like among the plays of the scenario recast. -/
theorem Plays.recast (plays : Plays calm start asked s) (fresh : Composed calm start.supervisor) (loud : ¬ calm x)
    (permits : ∀ p ∈ asked, Permits calm p.2) (permits' : ∀ p ∈ asked', Permits calm p.2)
    (recast : List.Forall₂ (Recast x) asked asked') :
    ∃ s', Plays calm start asked' s' ∧ Alike calm s.supervisor s'.supervisor := by
  induction plays generalizing asked' with
  | start =>
    cases recast
    exact ⟨start, .start, .refl calm _⟩
  | @step asked s r l plays m ih =>
    obtain ⟨s', plays', alike⟩ := ih permits permits' recast
    obtain ⟨r', same | ⟨l', m'⟩, alike⟩ :=
      exists_step alike (plays.composed fresh permits) (plays'.composed fresh permits') m
    · rw [same] at alike
      exact ⟨s', plays', alike⟩
    · exact ⟨r', .step plays' m', alike⟩
  | @tick asked s plays rests ih =>
    obtain ⟨s', plays', alike⟩ := ih permits permits' recast
    obtain ⟨r', steps, rests', alike⟩ :=
      exists_rests alike (plays.composed fresh permits) (plays'.composed fresh permits') rests
    have ticked := (plays'.steps steps).tick rests'
    rw [alike.now] at ticked
    exact ⟨_, ticked, alike.clock _⟩
  | @ask asked s plays rests q ih =>
    obtain ⟨before, p', rfl, recast, last⟩ := exists_last recast
    have front : ∀ p ∈ asked, Permits calm p.2 := fun p mem => permits p (List.mem_append_left _ mem)
    have front' : ∀ p ∈ before, Permits calm p.2 := fun p mem => permits' p (List.mem_append_left _ mem)
    obtain ⟨s', plays', alike⟩ := ih front front' recast
    obtain ⟨r', steps, rests', alike⟩ :=
      exists_rests alike (plays.composed fresh front) (plays'.composed fresh front') rests
    have plays' := plays'.steps steps
    have asks := plays'.ask rests' p'.2
    have entry : (r'.supervisor.now, p'.2) = p' := Prod.ext (alike.now.trans last.time.symm) rfl
    rw [entry] at asks
    exact ⟨_, asks, alike_recast alike (plays.composed fresh front) (plays'.composed fresh front') loud last⟩

/-! ### Names that do not need the worker -/

/-- Some worker asked for under this name requires the name given, or one that in turn needs it. -/
inductive Needs (asked : List (Nat × Request)) (x : String) : String → Prop
  | self : Needs asked x x
  | requires {time : Nat} {w : Worker Action} {r : String} (mem : (time, .supervise w) ∈ asked)
      (required : r ∈ w.requires) (needs : Needs asked x r) : Needs asked x w.name

/-- All workers asked for call nobody. -/
def AllOwn (asked : List (Nat × Request)) : Prop := ∀ time w, (time, .supervise w) ∈ asked → w.Own

theorem permits_of_own (own : AllOwn asked) : ∀ p ∈ asked, Permits (¬ Needs asked x ·) p.2 := by
  rintro ⟨time, q⟩ mem w rfl
  exact ⟨own time w mem, fun apart r required needs => apart (.requires mem required needs)⟩

theorem exists_recast (h : List.Forall₂ (Recast x) asked asked') {p' : Nat × Request} (mem : p' ∈ asked') :
    ∃ p ∈ asked, Recast x p p' := by
  induction h with
  | nil => cases mem
  | cons first _ ih =>
    rcases List.mem_cons.1 mem with rfl | later
    · exact ⟨_, List.mem_cons_self, first⟩
    · obtain ⟨p, mem, recast⟩ := ih later
      exact ⟨p, List.mem_cons_of_mem _ mem, recast⟩

/-- What is required does not change, so neither does who needs whom. -/
theorem permits_of_recast (own' : AllOwn asked') (recast : List.Forall₂ (Recast x) asked asked') :
    ∀ p ∈ asked', Permits (¬ Needs asked x ·) p.2 := by
  rintro ⟨time, q⟩ mem w rfl
  refine ⟨own' time w mem, fun apart r required needs => apart ?_⟩
  obtain ⟨p, before, recast⟩ := exists_recast recast mem
  cases recast with
  | same => exact .requires before required needs
  | @other time w named scripts retries => exact .requires (w := w) before required needs

/-- At the same time the same has been told of, and recorded for, all the names; and if the instant is over in the one,
so it is in the other. -/
structure Agrees (calm : String → Prop) (s s' : System) : Prop where
  now : s'.supervisor.now = s.supervisor.now
  events : ∀ name, calm name → s'.supervisor.eventsOf name = s.supervisor.eventsOf name
  failures : ∀ name, calm name → s'.supervisor.failuresOf name = s.supervisor.failuresOf name
  rests : s.Rests calm → s'.Rests calm

theorem Plays.exists_agrees (plays : Plays calm start asked s) (fresh : Composed calm start.supervisor)
    (loud : ¬ calm x) (permits : ∀ p ∈ asked, Permits calm p.2) (permits' : ∀ p ∈ asked', Permits calm p.2)
    (recast : List.Forall₂ (Recast x) asked asked') :
    ∃ s', Plays calm start asked' s' ∧ Agrees calm s s' := by
  have agrees {s' : System} (alike : Alike calm s.supervisor s'.supervisor) (rests : s.Rests calm → s'.Rests calm) :
      Agrees calm s s' :=
    ⟨alike.now, fun name still => congrArg Sight.events (alike.sight name still),
      fun name still => congrArg Sight.failures (alike.sight name still), rests⟩
  obtain ⟨s', plays', alike⟩ := plays.recast fresh loud permits permits' recast
  by_cases rests : s.Rests calm
  · obtain ⟨r', steps, rests', alike⟩ :=
      exists_rests alike (plays.composed fresh permits) (plays'.composed fresh permits') rests
    exact ⟨r', plays'.steps steps, agrees alike fun _ => rests'⟩
  · exact ⟨s', plays', agrees alike fun rested => absurd rested rests⟩

theorem composed_fresh {backoff : Backoff} {now : Nat} {mailboxes : List Mailbox}
    (fresh : start.supervisor = { backoff, now, mailboxes }) : Composed calm start.supervisor := by
  have none : start.supervisor.tasks = [] := by rw [fresh]
  have nobody {t : Task} (mem : t ∈ start.supervisor.tasks) : False := by
    rw [none] at mem
    cases mem
  refine ⟨⟨[], ?_⟩, fun t mem => (nobody mem).elim, fun t mem => (nobody mem).elim, fun t mem => (nobody mem).elim⟩
  rw [fresh]
  exact .start ..

/-- Whatever the scripts of one worker are, and whether it is tried again or not: what can be told of the tasks under
names that do not need it, when it is told, and what can be recorded for them, is the same. -/
theorem siblings_unaffected {backoff : Backoff} {now : Nat} {mailboxes : List Mailbox}
    (fresh : start.supervisor = { backoff, now, mailboxes }) (own : AllOwn asked) (own' : AllOwn asked')
    (recast : List.Forall₂ (Recast x) asked asked') :
    (∀ s, start.Plays (¬ Needs asked x ·) asked s →
      ∃ s', start.Plays (¬ Needs asked x ·) asked' s' ∧ Agrees (¬ Needs asked x ·) s s') ∧
    ∀ s', start.Plays (¬ Needs asked x ·) asked' s' →
      ∃ s, start.Plays (¬ Needs asked x ·) asked s ∧ Agrees (¬ Needs asked x ·) s' s := by
  have permits : ∀ p ∈ asked, Permits (¬ Needs asked x ·) p.2 := permits_of_own own
  have permits' : ∀ p ∈ asked', Permits (¬ Needs asked x ·) p.2 := permits_of_recast own' recast
  have loud : ¬ ¬ Needs asked x x := not_not_intro .self
  have back : List.Forall₂ (Recast x) asked' asked :=
    List.Forall₂.flip (recast.imp fun _ _ h => h.symm)
  exact ⟨fun s plays => plays.exists_agrees (composed_fresh fresh) loud permits permits' recast,
    fun s' plays' => plays'.exists_agrees (composed_fresh fresh) loud permits' permits back⟩

/-- A worker that fails at once and is tried again and again. -/
def failing : Worker Action :=
  { name := "x", task := "x", retries := true, scripts := [[.finish (some (.fail "e"))]] }

/-- The same worker, never returning. -/
def hanging : Worker Action := { failing with retries := false, scripts := [[.forever]] }

/-- A worker that fails after a millisecond. -/
def brief : Worker Action := { name := "b", task := "b", scripts := [[.sleep 1, .finish (some (.fail "f"))]] }

theorem own_failing : failing.Own := by
  intro script mem a inside
  cases List.mem_singleton.1 mem
  cases List.mem_singleton.1 inside
  exact .finish _

theorem own_hanging : hanging.Own := by
  intro script mem a inside
  cases List.mem_singleton.1 mem
  cases List.mem_singleton.1 inside
  exact .forever

theorem own_brief : brief.Own := by
  intro script mem a inside
  cases List.mem_singleton.1 mem
  rcases List.mem_cons.1 inside with rfl | last
  · exact .sleep 1
  · cases List.mem_singleton.1 last
    exact .finish _

theorem allOwn_pair {w w' : Worker Action} (own : w.Own) (own' : w'.Own) :
    AllOwn [(0, .supervise w), (0, .supervise w')] := by
  intro time v mem
  rcases List.mem_cons.1 mem with first | second
  · cases first
    exact own
  · cases List.mem_singleton.1 second
    exact own'

/-- While the one is tried again and again the other has its millisecond, whoever counts as calm. -/
theorem exists_play_failing (calm : String → Prop) :
    ∃ s, Plays calm { redirector := { chain := "SLIPWAY" } } [(0, .supervise failing), (0, .supervise brief)] s ∧
      s.supervisor.now = 1 ∧
      s.supervisor.eventsOf "b" =
        [(0, .added "b"), (0, .blocked "b"), (0, .starting "b" 1), (0, .running "b"), (0, .ready "b"),
          (1, .failed "b" 1 "f"), (1, .terminated "b")] ∧
      s.supervisor.failuresOf "b" = [(1, .fail "f")] := by
  obtain ⟨start, empty⟩ : ∃ r : System, r = { redirector := { chain := "SLIPWAY" } } := ⟨_, rfl⟩
  obtain ⟨first, begins⟩ : ∃ r, r = (start.onSupervisor (·.ask (.supervise failing))).settled := ⟨_, rfl⟩
  obtain ⟨second, asks⟩ : ∃ r, r = (first.onSupervisor (·.ask (.supervise brief))).settled := ⟨_, rfl⟩
  obtain ⟨third, ticks⟩ : ∃ r, r = (second.setClock (second.supervisor.now + 1)).settled := ⟨_, rfl⟩
  have now : start.supervisor.now = 0 := by rw [empty]
  have settled : start.Settled := (lineUp_eq_nil_iff _).1 (by rw [empty]; decide +kernel)
  have plays : start.Plays calm [(0, .supervise failing)] first := by
    have asked := Plays.start.ask (.inl settled : start.Rests calm) (.supervise failing)
    rw [now] at asked
    exact begins ▸ asked.steps (steps_settled _)
  have now : first.supervisor.now = 0 := by
    rw [begins, empty]
    decide +kernel
  have settled : first.Settled := (lineUp_eq_nil_iff _).1 (by rw [begins, empty]; decide +kernel)
  have plays : start.Plays calm [(0, .supervise failing), (0, .supervise brief)] second := by
    have asked := plays.ask (.inl settled) (.supervise brief)
    rw [now] at asked
    exact asks ▸ asked.steps (steps_settled _)
  have settled : second.Settled := (lineUp_eq_nil_iff _).1 (by rw [asks, begins, empty]; decide +kernel)
  have plays := (plays.tick (.inl settled)).steps (steps_settled _)
  rw [← ticks, empty] at plays
  refine ⟨third, plays, ?_, ?_, ?_⟩
  all_goals
    rw [ticks, asks, begins, empty]
    decide +kernel

theorem siblings_unaffected_hanging :
    let start : System := { redirector := { chain := "SLIPWAY" } }
    let asked : List (Nat × Request) := [(0, .supervise failing), (0, .supervise brief)]
    let asked' : List (Nat × Request) := [(0, .supervise hanging), (0, .supervise brief)]
    start.supervisor = {} ∧ AllOwn asked ∧ AllOwn asked' ∧ List.Forall₂ (Recast "x") asked asked' ∧
      ¬ Needs asked "x" "b" ∧
      ∃ s', start.Plays (¬ Needs asked "x" ·) asked' s' ∧ s'.supervisor.now = 1 ∧
        s'.supervisor.eventsOf "b" =
          [(0, .added "b"), (0, .blocked "b"), (0, .starting "b" 1), (0, .running "b"), (0, .ready "b"),
            (1, .failed "b" 1 "f"), (1, .terminated "b")] ∧
        s'.supervisor.failuresOf "b" = [(1, .fail "f")] := by
  intro start asked asked'
  have own : AllOwn asked := allOwn_pair own_failing own_brief
  have own' : AllOwn asked' := allOwn_pair own_hanging own_brief
  have recast : List.Forall₂ (Recast "x") asked asked' :=
    .cons (.other (w := failing) 0 rfl [[.forever]] false) (.cons (.same _) .nil)
  have alone {name : String} (needs : Needs asked "x" name) : name = "x" := by
    cases needs with
    | self => rfl
    | @requires time w r mem required _ =>
      rcases List.mem_cons.1 mem with first | second
      · cases first
        cases required
      · cases List.mem_singleton.1 second
        cases required
  have apart : ¬ Needs asked "x" "b" := fun needs => absurd (alone needs) (by decide)
  obtain ⟨s, plays, now, events, failures⟩ := exists_play_failing (¬ Needs asked "x" ·)
  obtain ⟨s', plays', agrees⟩ := (siblings_unaffected rfl own own' recast).1 s plays
  exact ⟨rfl, own, own', recast, apart, s', plays', agrees.now.trans now, (agrees.events "b" apart).trans events,
    (agrees.failures "b" apart).trans failures⟩

/-- Two workers of one name, of which only the first one requires another, whose scripts are given. -/
def reusing (scripts : List (List Action)) : List Call :=
  [.supervise { name := "x", task := "x", readiness := .explicit, scripts },
    .supervise { name := "a", task := "a", requires := ["x"], scripts := [[.finish none]] },
    .supervise { name := "a", task := "a", scripts := [[.finish none]] }]

def afterReusing (scripts : List (List Action)) : Supervisor :=
  ((reusing scripts).foldl (fun s c => (s.call c).2)
    (Session.start "SLIPWAY" .standard 65536 none false)).system.supervisor

/-- Whether the second of them, which requires nobody, is registered at all depends on whether the first one has ended,
and so on the scripts of the one that this requires. -/
theorem reused_name_felt :
    ((afterReusing [[.ready, .forever]]).task? 2).map (·.worker.requires) = some [] ∧
    (afterReusing [[.ready, .forever]]).published 2 =
      [.added "a", .blocked "a", .starting "a" 1, .running "a", .ready "a", .terminated "a"] ∧
    (afterReusing [[.forever]]).tasks.length = 2 ∧ (afterReusing [[.forever]]).published 2 = [] := by
  decide +kernel

end Switchyard.System
