import Switchyard.Proofs.Isolation.Locality
import Switchyard.Proofs.Reconciliation.Ownership

/-!
What it says of a watcher that a call keeps it. Main statement: it was alive when the call began, and the call does not
ask it to stop; it has been asked before only by somebody else, or by a call that was dropped.
-/
namespace Switchyard

namespace Task

variable {t : Task} {x : Surroundings} {c : Change}

theorem stopRequested_pass (rest : List String) : (t.pass rest).task.stopRequested = t.stopRequested := by
  unfold pass
  split
  · rfl
  · rfl

theorem stopRequested_close (o : Outcome) : (t.close x o).task.stopRequested = t.stopRequested := by
  unfold close
  split
  · rfl
  · rfl
  · split
    · rfl
    · rfl

/-- No turn of the loop asks the task to stop. -/
theorem stopRequested_turn {turn : Turn} (h : t.turn x turn = some c) : c.task.stopRequested = t.stopRequested := by
  cases turn with
  | recheck => cases h
  | cancel =>
    simp only [Task.turn] at h
    split at h
    case h_4 => cases h
    all_goals
      obtain ⟨_, h⟩ := Option.ite_none_right_eq_some.1 h
      cases h
      rfl
  | proceed =>
    simp only [Task.turn] at h
    split at h
    case h_1 => cases h; rfl
    case h_2 => cases h; rfl
    case h_3 =>
      obtain ⟨_, h⟩ := Option.ite_none_right_eq_some.1 h
      cases h
      exact stopRequested_pass _
    case h_4 =>
      split at h
      · obtain ⟨_, h⟩ := Option.ite_none_left_eq_some.1 h
        cases h
        rfl
      · cases h
    case h_5 =>
      split at h
      · cases h
        rfl
      · cases h
    case h_6 =>
      obtain ⟨_, h⟩ := Option.ite_none_right_eq_some.1 h
      cases h
      exact stopRequested_close _
    case h_7 =>
      obtain ⟨_, h⟩ := Option.ite_none_right_eq_some.1 h
      cases h
      rfl
    case h_8 => cases h

theorem stopRequested_watchTurn {j : Nat} (h : t.watchTurn j = some c) :
    c.task.stopRequested = t.stopRequested := by
  obtain ⟨u, _, h⟩ := Option.bind_eq_some_iff.1 h
  split at h
  · cases h
    rfl
  · cases h
    rfl
  · cases h

end Task

namespace Supervisor

variable {s s' : Supervisor} {i k : TaskId} {t t' u u' : Task} {es : List Event} {past : List Supervisor} {x : Act}

/-! ### Who is asked to stop -/

/-- Whom a request to stop reaches that goes out under this name. -/
def reached (s : Supervisor) (name : String) : List TaskId :=
  ((s.lookup name).filter fun i => !s.isTerminated i).toList

/-- Whom this asks to stop. -/
def requested (s : Supervisor) : Act → List TaskId
  | .stop name => s.reached name
  | _ => []

theorem mem_reached {name : String} (h : s.task? k = some t) :
    k ∈ s.reached name ↔ s.lookup name = some k ∧ t.isTerminated = false := by
  have ended : s.isTerminated k = t.isTerminated := by rw [isTerminated, h, Option.any_some]
  rw [reached, Option.mem_toList, Option.filter_eq_some_iff, ended, Bool.not_eq_true']

theorem lt_of_requested (run : Run s past) (h : k ∈ s.requested x) : k < s.tasks.length := by
  cases x with
  | stop name =>
    obtain ⟨found, _⟩ := Option.filter_eq_some_iff.1 (Option.mem_toList.1 h)
    obtain ⟨t, ht, _⟩ := run.name_of_lookup found
    exact lt_of_task? ht
  | _ => cases h

theorem stopRequested_amend (hu : s.task? i = some u) (h : s.task? k = some t)
    (h' : (s.amend i u' es).task? k = some t') (same : u'.stopRequested = u.stopRequested) :
    t'.stopRequested = t.stopRequested := by
  by_cases hk : k = i
  · subst hk
    cases h.symm.trans hu
    cases (task?_amend_self (lt_of_task? h)).symm.trans h'
    exact same
  · cases h.symm.trans ((task?_amend_of_ne hk).symm.trans h')
    rfl

theorem stopRequested_apply {c : Change} (hu : s.task? i = some u) (h : s.task? k = some t)
    (h' : (s.apply i c).task? k = some t') (same : c.task.stopRequested = u.stopRequested) :
    t'.stopRequested = t.stopRequested := by
  unfold apply at h'
  split at h'
  · exact stopRequested_amend hu h h' same
  · exact stopRequested_amend hu h h' same

/-- Only a request to stop asks anybody. -/
theorem stopRequested_act (m : s.act x = some s') (other : ∀ name, x ≠ .stop name) (h : s.task? k = some t)
    (h' : s'.task? k = some t') : t'.stopRequested = t.stopRequested := by
  have unchanged (same : s'.task? k = s.task? k) : t'.stopRequested = t.stopRequested := by
    cases h.symm.trans (same.symm.trans h')
    rfl
  cases x with
  | actor i turn =>
    obtain ⟨u, hu, _⟩ := Option.bind_eq_some_iff.1 m
    rcases actorStep_local hu m with ⟨_, _, c, _, turns, rfl⟩ | ⟨_, _, _, _, rfl, _⟩
    · exact stopRequested_apply hu h h' (Task.stopRequested_turn turns)
    · exact stopRequested_amend hu h h' rfl
  | watch i j =>
    obtain ⟨u, hu, _⟩ := Option.bind_eq_some_iff.1 m
    obtain ⟨c, turns, rfl⟩ := Option.map_eq_some_iff.1 ((watchStep_apply hu j).symm.trans m)
    exact stopRequested_apply hu h h' (Task.stopRequested_watchTurn turns)
  | supervise w =>
    refine unchanged ?_
    rw [task?_supervise (act_supervise.1 m), if_neg (Nat.ne_of_lt (lt_of_task? h))]
  | stop name => exact absurd rfl (other name)
  | shutdown =>
    cases m
    exact unchanged task?_shutdown
  | ready v =>
    obtain ⟨_, m⟩ := Option.ite_none_right_eq_some.1 m
    cases m
    rcases markReady_cases s v.task with same | ⟨u, hu, _, amended⟩
    · exact unchanged (by rw [same])
    · rw [amended] at h'
      exact stopRequested_amend hu h h' rfl
  | spawn v script =>
    obtain ⟨running, m⟩ := Option.ite_none_right_eq_some.1 m
    cases m
    obtain ⟨u, _, hu, _⟩ := task?_of_isRunning running
    rw [addSubUnit, modifyTask_eq hu] at h'
    exact stopRequested_amend hu h h' rfl
  | work v p =>
    obtain ⟨running, m⟩ := Option.ite_none_right_eq_some.1 m
    cases m
    obtain ⟨u, _, hu, _⟩ := task?_of_isRunning running
    rw [setProgress, modifyTask_eq hu] at h'
    refine stopRequested_amend hu h h' ?_
    cases v.sub with
    | none => rfl
    | some j => rfl
  | clock time =>
    obtain ⟨_, m⟩ := Option.ite_none_right_eq_some.1 m
    cases m
    exact unchanged rfl
  | mail mailboxes =>
    cases m
    exact unchanged rfl

theorem stopRequested_act_iff (m : s.act x = some s') (h : s.task? k = some t) (h' : s'.task? k = some t') :
    t'.stopRequested = true ↔ t.stopRequested = true ∨ k ∈ s.requested x := by
  by_cases stops : ∃ name, x = .stop name
  · obtain ⟨name, rfl⟩ := stops
    cases m
    cases (task?_stop (n := name) h).symm.trans h'
    rw [requested, mem_reached h]
    split
    next asked => simp [asked]
    next unasked => simp [unasked]
  · have other : ∀ name, x ≠ .stop name := fun name same => stops ⟨name, same⟩
    have nobody : s.requested x = [] := by
      cases x with
      | stop name => exact absurd rfl (other name)
      | _ => rfl
    rw [stopRequested_act m other h h', nobody]
    simp

theorem stopRequested_of_new (m : s.act x = some s') (new : s.task? k = none) (h' : s'.task? k = some t') :
    t'.stopRequested = false := by
  cases (act_effect m).fate h' with
  | new => rfl
  | same h => exact nomatch new.symm.trans h
  | goes h => exact nomatch new.symm.trans h
  | ends h => exact nomatch new.symm.trans h

end Supervisor

/-- A pass waits for registration `i`, which has this name. -/
structure Pass.WaitsFor (p : Pass) (i : TaskId) (n : String) : Prop where
  listed : n ∈ p.waiting
  current : ∀ rest j, p.waiting = n :: rest → p.current = some j → j = i

namespace Reconciler

open Supervisor

variable {a b : Scene} {r r' : Reconciler} {s s' s₀ : Supervisor} {i : TaskId} {t : Task} {past : List Supervisor}
  {specs : List WatchSpec} {watched : List String} {report : ReconcileReport} {p : Pass} {n : String}

/-! ### A step of the wait -/

/-- Whoever is waited for and lives is waited for after the step. -/
theorem waitsFor_advance (run : Run s past) (live : s.LiveUnder n i) (busy : r.pass = some p) (waits : p.WaitsFor i n)
    (h : r.advance s = some r') : ∃ p', r'.pass = some p' ∧ p'.WaitsFor i n := by
  have found : s.lookup n = some i := run.lookup_of_liveUnder live
  have behind {m : String} {rest : List String} (first : p.waiting = m :: rest) (other : n ≠ m) : n ∈ rest := by
    have listed := waits.listed
    rw [first, List.mem_cons] at listed
    exact listed.resolve_left other
  rw [advance, busy, Option.bind_eq_bind, Option.bind_some] at h
  split at h
  next none =>
    have listed := waits.listed
    rw [none] at listed
    cases listed
  next m rest first fresh =>
    split at h
    next unknown =>
      cases h
      have other : n ≠ m := by
        rintro rfl
        cases found.symm.trans unknown
      refine ⟨_, rfl, behind first other, fun _ _ _ current => ?_⟩
      cases fresh.symm.trans current
    next k known =>
      cases h
      refine ⟨_, rfl, waits.listed, fun rest' j first' current => ?_⟩
      cases first.symm.trans first'
      cases current
      exact Option.some.inj (known.symm.trans found)
  next m rest k first current =>
    obtain ⟨ended, h⟩ := Option.ite_none_right_eq_some.1 h
    cases h
    have other : n ≠ m := by
      rintro rfl
      obtain ⟨t, ht, _, alive⟩ := live
      rw [waits.current rest k first current, isTerminated, ht, Option.any_some, alive] at ended
      cases ended
    refine ⟨_, rfl, behind first other, fun _ _ _ none => ?_⟩
    cases none

/-- A pass keeps its report until it is over. -/
theorem report_advance (busy : r.pass = some p) (h : r.advance s = some r') :
    (∃ p', r' = { r with pass := some p' } ∧ p'.report = p.report) ∨ r' = { watched := found p.report } := by
  rw [advance, busy, Option.bind_eq_bind, Option.bind_some] at h
  split at h
  next =>
    cases h
    exact .inr rfl
  next =>
    split at h
    next =>
      cases h
      exact .inl ⟨_, rfl, rfl⟩
    next =>
      cases h
      exact .inl ⟨_, rfl, rfl⟩
  next =>
    obtain ⟨_, h⟩ := Option.ite_none_right_eq_some.1 h
    cases h
    exact .inl ⟨_, rfl, rfl⟩

/-- Whatever happens beside the calls, a completed one has left what it has found under watch. -/
theorem watched_of_steps {own : String → Prop} (busy : a.reconciler.pass = some p)
    (steps : Relation.ReflTransGen (Step own) a b) (idle : b.reconciler.pass = none) :
    b.reconciler.watched = found p.report := by
  have stands : (∃ p', b.reconciler.pass = some p' ∧ p'.report = p.report) ∨
      b.reconciler = { watched := found p.report } := by
    clear idle
    induction steps with
    | refl => exact .inl ⟨p, busy, rfl⟩
    | tail _ step ih =>
      cases step with
      | other => exact ih
      | advance advanced =>
        rcases ih with ⟨p', busy', same⟩ | complete
        · rw [← same]
          rcases report_advance busy' advanced with ⟨q, waits, same⟩ | complete
          · exact .inl ⟨q, by rw [waits], same⟩
          · exact .inr complete
        · have complete := congrArg Reconciler.pass complete
          rw [Reconciler.advance, complete] at advanced
          cases advanced
  rcases stands with ⟨p', busy', _⟩ | complete
  · cases idle.symm.trans busy'
  · rw [complete]

/-! ### Whom a call keeps -/

/-- Of a pass that found the supervisor at `s₀`: whom it keeps was alive then, and whom it registers nobody has asked to
stop. -/
structure Fair (s₀ : Supervisor) (report : ReconcileReport) (s : Supervisor) : Prop where
  live : ∀ n ∈ report.kept, s₀.isLive n = true
  unasked : ∀ i t, s₀.tasks.length ≤ i → s.task? i = some t → t.stopRequested = false

theorem Fair.start (s : Supervisor) : Fair s {} s where
  live := nofun
  unasked _ _ beyond h := absurd (lt_of_task? h) (Nat.not_lt.2 beyond)

theorem Fair.keep (f : Fair s₀ report s) (live : s₀.isLive n = true) :
    Fair s₀ { report with kept := report.kept ++ [n] } s := by
  refine { f with live := fun m hm => ?_ }
  rcases List.mem_append.1 hm with hm | hm
  · exact f.live m hm
  · exact List.mem_singleton.1 hm ▸ live

theorem Fair.supervise {w : Worker Action} {names : List String} (f : Fair s₀ report s)
    (registered : s.supervise w = .ok s') : Fair s₀ { report with started := names } s' := by
  refine ⟨f.live, fun i t beyond h => ?_⟩
  rw [task?_supervise registered] at h
  split at h
  · cases h
    rfl
  · exact f.unasked i t beyond h

theorem Fair.gather (f : Fair s₀ report s) (e : Enrolled watched s₀ report s) (specs : List WatchSpec) :
    Fair s₀ (gather watched specs report s).1 (gather watched specs report s).2 := by
  induction specs generalizing report s with
  | nil => exact f
  | cons spec specs ih =>
    simp only [Reconciler.gather]
    split
    next => exact ih f e
    next unseen =>
      have unseen : spec.watchName ∉ report.started ∧ spec.watchName ∉ report.kept := by simpa using unseen
      split
      next kept =>
        obtain ⟨mem, live⟩ := Bool.and_eq_true_iff.1 kept
        have mem : spec.watchName ∈ watched := by simpa using mem
        exact ih (f.keep ((e.unstarted _ unseen.1).2.symm.trans live)) (e.keep mem)
      next =>
        split
        next => exact ih f e
        next =>
          split
          next => exact ih f e
          next registered => exact ih (f.supervise registered) (e.supervise registered)

/-- What a call says to be kept was alive, and those it has registered are not asked to stop. -/
theorem Begun.fair (b : Begun a specs report) (run : Run a.supervisor past) :
    (∀ n ∈ report.kept, a.supervisor.isLive n = true) ∧
      ∀ i t, a.supervisor.tasks.length ≤ i → (a.call specs).supervisor.task? i = some t →
        t.stopRequested = false := by
  obtain ⟨s, r⟩ := a
  have start : Enrolled r.watched s {} s := .start run
  have e := start.gather specs
  have f := (Fair.start s).gather start specs
  have kept : report.kept = (gather r.watched specs {} s).1.kept :=
    (Option.some.inj (congrArg (·.map (·.report.kept)) b.pass)).symm
  have asked : ((Scene.mk s r).call specs).supervisor =
      report.stopped.foldl (fun s n => (s.stop n).2) (gather r.watched specs {} s).2 := by
    have stopped : report.stopped = ((r.begin s specs).1.pass.map (·.report.stopped)).getD [] :=
      (congrArg (fun pass => (pass.map (·.report.stopped)).getD []) b.pass).symm
    rw [stopped]
    rfl
  refine ⟨fun n hn => f.live n (kept ▸ hn), fun i t beyond ht => ?_⟩
  have old : i < (gather r.watched specs {} s).2.tasks.length := by
    have bound := lt_of_task? ht
    rwa [asked, length_stops] at bound
  have hu : (gather r.watched specs {} s).2.task? i = some _ := List.getElem?_eq_getElem old
  have unasked := f.unasked i _ beyond hu
  rw [asked, task?_stops _ hu] at ht
  split at ht
  next reaches =>
    -- a new registration has the name of one that has been started, and those are not stopped
    obtain ⟨⟨n, stopped, found⟩, _⟩ := reaches
    obtain ⟨past', run'⟩ := e.run
    have named := (named_stops report.stopped).2 (run'.name_of_lookup found)
    exact absurd (b.new n i beyond (asked ▸ named)) ((b.stopped n).1 stopped).2.1
  next =>
    cases ht
    exact unasked

/-! ### Histories -/

/-- A scene, and whom has been asked to stop on the way to it. -/
structure Docket extends Scene where
  /-- By somebody else than the reconciler, or by a call that was dropped. -/
  asked : List TaskId := []
  /-- By the call that waits. -/
  asking : List TaskId := []

namespace Docket

def call (c : Docket) (specs : List WatchSpec) : Docket :=
  { c with
    toScene := c.toScene.call specs
    asking := (List.range c.supervisor.tasks.length).filter fun i => c.Asks specs i }

/-- The call that waits is dropped. Its requests remain. -/
def drop (c : Docket) : Docket where
  supervisor := c.supervisor
  reconciler := c.reconciler.abandon
  asked := c.asked ++ c.asking

/-- Between the calls and during them anything may happen on the supervisor. -/
inductive Step : Docket → Docket → Prop
  | other {c : Docket} {x : Act} {s : Supervisor} (h : c.supervisor.act x = some s) :
      Step c { c with supervisor := s, asked := c.asked ++ c.supervisor.requested x }
  | call {c : Docket} (idle : c.reconciler.pass = none) (specs : List WatchSpec) : Step c (c.call specs)
  | wait {c : Docket} {r : Reconciler} {p : Pass} (h : c.reconciler.advance c.supervisor = some r)
      (busy : r.pass = some p) : Step c { c with reconciler := r }
  | complete {c : Docket} {r : Reconciler} (h : c.reconciler.advance c.supervisor = some r) (idle : r.pass = none) :
      Step c { c with reconciler := r, asking := [] }
  | drop {c : Docket} : Step c c.drop

/-- Where nobody has registered yet. -/
def fresh (backoff : Backoff) (now : Nat) (mailboxes : List Mailbox) : Docket where
  supervisor := { backoff, now, mailboxes }
  reconciler := {}

def Reached (c : Docket) : Prop :=
  ∃ backoff now mailboxes, Relation.ReflTransGen Step (fresh backoff now mailboxes) c

variable {c d : Docket}

theorem Reached.step (h : c.Reached) (m : Step c d) : d.Reached := by
  obtain ⟨backoff, now, mailboxes, steps⟩ := h
  exact ⟨backoff, now, mailboxes, steps.tail m⟩

/-- Of the registrations alive, those have been asked to stop that the docket says. Whom a call has asked and who is
alive, it waits for. -/
structure Sound (c : Docket) : Prop where
  run : ∃ past, Run c.supervisor past
  known : ∀ i, i ∈ c.asked ∨ i ∈ c.asking → i < c.supervisor.tasks.length
  asked : ∀ i t, c.supervisor.task? i = some t → t.isTerminated = false →
    (t.stopRequested = true ↔ i ∈ c.asked ∨ i ∈ c.asking)
  idle : c.reconciler.pass = none → c.asking = []
  waits : ∀ p, c.reconciler.pass = some p → ∀ i ∈ c.asking, ∀ n, c.supervisor.LiveUnder n i → p.WaitsFor i n

theorem Sound.fresh (backoff : Backoff) (now : Nat) (mailboxes : List Mailbox) :
    (fresh backoff now mailboxes).Sound where
  run := ⟨[], .start backoff now mailboxes⟩
  known _ hi := hi.elim (absurd · List.not_mem_nil) (absurd · List.not_mem_nil)
  asked i _ h := absurd (lt_of_task? h) (Nat.not_lt_zero i)
  idle _ := rfl
  waits _ busy := nomatch busy

theorem Sound.other {x : Act} (h : c.Sound) (m : c.supervisor.act x = some s) :
    Sound { c with supervisor := s, asked := c.asked ++ c.supervisor.requested x } := by
  obtain ⟨past, run⟩ := h.run
  have follows : Follows c.supervisor s := .single ⟨x, m⟩
  have longer := follows.length_le
  refine ⟨⟨_, run.move m⟩, fun i hi => ?_, fun i t' ht' alive' => ?_, h.idle, fun p busy i hi n live => ?_⟩
  · refine Nat.lt_of_lt_of_le ?_ longer
    rw [List.mem_append, or_right_comm] at hi
    rcases hi with hi | hi
    · exact h.known i hi
    · exact lt_of_requested run hi
  · rw [List.mem_append, or_right_comm]
    cases ht : c.supervisor.task? i with
    | some t =>
      have alive := (act_effect m).wasLive run ht ht' alive'
      rw [stopRequested_act_iff m ht ht', h.asked i t ht alive]
    | none =>
      have unknown : ¬ i < c.supervisor.tasks.length := Nat.not_lt.2 (List.getElem?_eq_none_iff.1 ht)
      have unasked := stopRequested_of_new m ht ht'
      refine ⟨fun asked => absurd (asked.symm.trans unasked) Bool.noConfusion, fun asked => absurd ?_ unknown⟩
      exact asked.elim (h.known i) (lt_of_requested run)
  · have before := follows.liveUnder run (h.known i (.inr hi)) live
    exact h.waits p busy i hi n before

theorem Sound.call (h : c.Sound) (idle : c.reconciler.pass = none) (specs : List WatchSpec) :
    (c.call specs).Sound := by
  obtain ⟨past, run⟩ := h.run
  obtain ⟨report, b⟩ := c.toScene.begun run specs
  obtain ⟨past', run'⟩ := run.follows b.follows
  have longer : c.supervisor.tasks.length ≤ (c.call specs).supervisor.tasks.length := b.follows.length_le
  have asking {i : TaskId} : i ∈ (c.call specs).asking ↔ i < c.supervisor.tasks.length ∧ c.Asks specs i := by
    have listed : (c.call specs).asking =
        (List.range c.supervisor.tasks.length).filter fun i => c.Asks specs i := rfl
    rw [listed, List.mem_filter, List.mem_range, decide_eq_true_iff]
  refine ⟨⟨past', run'⟩, fun i hi => ?_, fun i t' ht' alive' => ?_, fun none => ?_, fun p busy i hi n live => ?_⟩
  · refine Nat.lt_of_lt_of_le ?_ longer
    exact hi.elim (fun hi => h.known i (.inl hi)) fun hi => (asking.1 hi).1
  · rw [asking]
    cases ht : c.supervisor.task? i with
    | none =>
      have unknown : ¬ i < c.supervisor.tasks.length := Nat.not_lt.2 (List.getElem?_eq_none_iff.1 ht)
      have unasked := (b.fair run).2 i t' (Nat.not_lt.1 unknown) ht'
      refine ⟨fun asked => absurd (asked.symm.trans unasked) Bool.noConfusion, fun asked => absurd ?_ unknown⟩
      exact asked.elim (fun hi => h.known i (.inl hi)) (·.1)
    | some t =>
      have asks : c.Asks specs i ↔
          (∃ n ∈ report.stopped, c.supervisor.lookup n = some i) ∧ t.isTerminated = false := by
        rw [b.asks_iff, isTerminated, ht, Option.any_some]
      have nobody : c.asking = [] := h.idle idle
      have now := (b.asked i t ht).symm.trans ht'
      by_cases asked : c.Asks specs i
      · rw [if_pos (asks.1 asked)] at now
        cases now
        exact iff_of_true rfl (.inr ⟨lt_of_task? ht, asked⟩)
      · rw [if_neg fun reached => asked (asks.2 reached)] at now
        cases now
        rw [h.asked i t' ht alive', nobody]
        simp [asked, Docket.call]
  · cases none.symm.trans b.pass
  · -- whoever is asked to stop has the name of a stopped watcher
    cases b.pass.symm.trans busy
    obtain ⟨⟨m, stopped, found⟩, _⟩ := b.asks_iff.1 (asking.1 hi).2
    have same : m = n := (b.follows.named (run.name_of_lookup found)).unique live.named
    refine ⟨same ▸ stopped, fun _ _ _ none => ?_⟩
    cases none

theorem Sound.wait (h : c.Sound) (advanced : c.reconciler.advance c.supervisor = some r) (busy : r.pass = some p) :
    Sound { c with reconciler := r } := by
  obtain ⟨past, run⟩ := h.run
  refine { h with idle := fun none => (nomatch busy.symm.trans none), waits := fun p' busy' i hi n live => ?_ }
  cases before : c.reconciler.pass with
  | none =>
    rw [advance, before] at advanced
    cases advanced
  | some q =>
    obtain ⟨p'', after, waits⟩ := waitsFor_advance run live before (h.waits q before i hi n live) advanced
    cases after.symm.trans busy'
    exact waits

/-- Whom a completed call has asked to stop has ended. -/
theorem Sound.complete (h : c.Sound) (advanced : c.reconciler.advance c.supervisor = some r) (idle : r.pass = none) :
    Sound { c with reconciler := r, asking := [] } := by
  obtain ⟨past, run⟩ := h.run
  cases before : c.reconciler.pass with
  | none =>
    rw [advance, before] at advanced
    cases advanced
  | some p =>
    refine ⟨h.run, fun i hi => h.known i (hi.imp_right (absurd · List.not_mem_nil)), fun i t ht alive => ?_,
      fun _ => rfl, fun q busy => ?_⟩
    · have ended : i ∉ c.asking := by
        intro hi
        have live : c.supervisor.LiveUnder t.name i := ⟨t, ht, rfl, alive⟩
        obtain ⟨q, busy, _⟩ := waitsFor_advance run live before (h.waits p before i hi t.name live) advanced
        cases idle.symm.trans busy
      have asked := h.asked i t ht alive
      simpa [ended] using asked
    · cases idle.symm.trans busy

theorem Sound.drop (h : c.Sound) : c.drop.Sound := by
  have same {i : TaskId} : i ∈ c.drop.asked ∨ i ∈ c.drop.asking ↔ i ∈ c.asked ∨ i ∈ c.asking := by
    simp [Docket.drop]
  refine ⟨h.run, fun i hi => h.known i (same.1 hi), fun i t ht alive => ?_, fun _ => rfl, nofun⟩
  rw [same]
  exact h.asked i t ht alive

theorem Reached.sound (h : c.Reached) : c.Sound := by
  obtain ⟨backoff, now, mailboxes, steps⟩ := h
  induction steps with
  | refl => exact .fresh backoff now mailboxes
  | tail _ step ih =>
    cases step with
    | other m => exact ih.other m
    | call idle specs => exact ih.call idle specs
    | wait advanced busy => exact ih.wait advanced busy
    | complete advanced idle => exact ih.complete advanced idle
    | drop => exact ih.drop

/-! ### The same histories, told of registrations -/

theorem exists_other (h : c.Reached) (follows : Follows c.supervisor s) :
    ∃ d : Docket, d.Reached ∧ d.toScene = ⟨s, c.reconciler⟩ := by
  induction follows with
  | refl => exact ⟨c, h, rfl⟩
  | @tail s s' _ m ih =>
    obtain ⟨x, m⟩ := m
    obtain ⟨d, reached, same⟩ := ih
    have sup : d.supervisor = s := by rw [same]
    have its : d.reconciler = c.reconciler := by rw [same]
    have m : d.supervisor.act x = some s' := by rw [sup, m]
    exact ⟨_, reached.step (.other m), by rw [its]⟩

theorem follows_of_run (run : Run s past) :
    ∃ backoff now mailboxes, Follows (fresh backoff now mailboxes).supervisor s := by
  induction run with
  | start backoff now mailboxes => exact ⟨backoff, now, mailboxes, .refl⟩
  | move _ m ih =>
    obtain ⟨backoff, now, mailboxes, follows⟩ := ih
    exact ⟨backoff, now, mailboxes, follows.tail ⟨_, m⟩⟩

/-- Whatever scene calls lead to, some docket leads there too. -/
theorem exists_of_kept {l : Ledger} (h : l.Kept) : ∃ c : Docket, c.Reached ∧ c.toScene = l.toScene := by
  obtain ⟨s, past, run, steps⟩ := h
  induction steps with
  | refl =>
    obtain ⟨backoff, now, mailboxes, follows⟩ := follows_of_run run
    exact exists_other ⟨backoff, now, mailboxes, .refl⟩ follows
  | tail _ step ih =>
    obtain ⟨c, reached, same⟩ := ih
    have sup : c.supervisor = _ := congrArg Scene.supervisor same
    have its : c.reconciler = _ := congrArg Scene.reconciler same
    cases step with
    | other follows =>
      obtain ⟨d, reached', same'⟩ := exists_other reached (sup ▸ follows)
      exact ⟨d, reached', by rw [same', its]⟩
    | call idle specs => exact ⟨_, reached.step (.call (its ▸ idle) specs), congrArg (Scene.call · specs) same⟩
    | wait advanced busy => exact ⟨_, reached.step (.wait (sup ▸ its ▸ advanced) busy), by rw [sup]⟩
    | complete advanced idle => exact ⟨_, reached.step (.complete (sup ▸ its ▸ advanced) idle), by rw [sup]⟩
    | drop =>
      refine ⟨_, reached.step .drop, ?_⟩
      simp only [Docket.drop, Ledger.drop, sup, its]

/-! ### What a call keeps -/

/-- Every name that a call keeps has a registration that was alive when the call began, and that the call does not ask
to stop. It had been asked before exactly if somebody else has asked it, or a call that was dropped. Whatever else has
happened, the name is under watch when the call is over. -/
theorem watchers_kept (h : c.Reached) (idle : c.reconciler.pass = none) (specs : List WatchSpec) :
    ∃ report, (c.toScene.call specs).reconciler.pass = some { report, waiting := report.stopped } ∧
      (∀ n ∈ report.kept, ∃ i t, c.supervisor.lookup n = some i ∧ c.supervisor.task? i = some t ∧ t.name = n ∧
        t.isTerminated = false ∧ ¬ c.Asks specs i ∧ (t.stopRequested = true ↔ i ∈ c.asked)) ∧
      (∀ own d, Relation.ReflTransGen (Reconciler.Step own) (c.toScene.call specs) d → d.reconciler.pass = none →
        ∀ n ∈ report.kept, n ∈ d.reconciler.watched) ∧
      ∀ (caller : Session) told, caller.system.scene = c.toScene →
        (caller.reconcile specs).1 = .reconciled (some told) →
          told = report ∧ ∀ n ∈ report.kept, n ∈ (caller.reconcile specs).2.system.reconciler.watched := by
  have sound := h.sound
  obtain ⟨past, run⟩ := sound.run
  obtain ⟨report, b⟩ := c.toScene.begun run specs
  have left {own : String → Prop} {d : Scene}
      (steps : Relation.ReflTransGen (Reconciler.Step own) (c.toScene.call specs) d)
      (complete : d.reconciler.pass = none) {n : String} (kept : n ∈ report.kept) : n ∈ d.reconciler.watched := by
    rw [watched_of_steps b.pass steps complete, mem_found]
    exact .inr kept
  refine ⟨report, b.pass, fun n kept => ?_, fun own d steps complete n => left steps complete, ?_⟩
  · obtain ⟨i, live⟩ := run.isLive_iff.1 ((b.fair run).1 n kept)
    obtain ⟨t, ht, name, alive⟩ := live
    have spared : ¬ c.Asks specs i := by
      intro asks
      obtain ⟨⟨m, stopped, found⟩, _⟩ := b.asks_iff.1 asks
      have same : m = n := Named.unique (run.name_of_lookup found) ⟨t, ht, name⟩
      exact ((b.stopped m).1 stopped).2.2 (same ▸ kept)
    have asked := sound.asked i t ht alive
    rw [sound.idle idle] at asked
    exact ⟨i, t, run.lookup_of_liveUnder ⟨t, ht, name, alive⟩, ht, name, alive, spared, by simpa using asked⟩
  · rintro caller told scene reply
    have sup : caller.system.supervisor = c.supervisor := by rw [← scene, System.scene]
    obtain ⟨reported, complete, leads⟩ := reconcile_leads (fun _ => False) (sup ▸ run) reply
    rw [scene] at reported leads
    rw [b.pass] at reported
    exact ⟨(Option.some.inj reported).symm, fun n => left (leads.2 fun _ none => none.elim) complete⟩

end Docket

/-! ### Watchers on their way out -/

namespace Ledger

/-- Of three watchers one is asked to stop by name, and another one by a call that is dropped. -/
def unsteady : List Deed :=
  [.call (wants ["a", "b", "c"]), .finish ["watch:a", "watch:b", "watch:c"], .act (.actor 0 .proceed),
    .act (.actor 0 .proceed), .act (.stop "watch:a"), .call (wants ["a", "c"]), .wait, .drop]

end Ledger

namespace Docket

open Reconciler.Ledger

theorem watchers_kept_unsteady : ∃ c : Docket, c.Reached ∧ c.reconciler.pass = none ∧
    c.supervisor.tasks.map (·.stopRequested) = [true, true, false] ∧
    (c.toScene.call (wants ["a", "b", "c"])).reconciler.pass.map (·.report) =
      some { kept := ["watch:a", "watch:b", "watch:c"] } ∧
    ∃ report, (c.toScene.call (wants ["a", "b", "c"])).reconciler.pass = some { report, waiting := report.stopped } ∧
      (∀ n ∈ report.kept, ∃ i t, c.supervisor.lookup n = some i ∧ c.supervisor.task? i = some t ∧ t.name = n ∧
        t.isTerminated = false ∧ ¬ c.Asks (wants ["a", "b", "c"]) i ∧ (t.stopRequested = true ↔ i ∈ c.asked)) ∧
      (∀ own d, Relation.ReflTransGen (Reconciler.Step own) (c.toScene.call (wants ["a", "b", "c"])) d →
        d.reconciler.pass = none → ∀ n ∈ report.kept, n ∈ d.reconciler.watched) ∧
      ∀ (caller : Session) told, caller.system.scene = c.toScene →
        (caller.reconcile (wants ["a", "b", "c"])).1 = .reconciled (some told) →
          told = report ∧
            ∀ n ∈ report.kept, n ∈ (caller.reconcile (wants ["a", "b", "c"])).2.system.reconciler.watched := by
  obtain ⟨l, _, kept, idle, asked, report⟩ := exists_kept (P := fun l => l.reconciler.pass.isNone = true ∧
    l.supervisor.tasks.map (·.stopRequested) = [true, true, false] ∧
    (l.toScene.call (wants ["a", "b", "c"])).reconciler.pass.map (·.report) =
      some { kept := ["watch:a", "watch:b", "watch:c"] }) unsteady (by decide +kernel)
  obtain ⟨c, reached, same⟩ := exists_of_kept kept
  rw [← same] at idle asked report
  have idle := Option.isNone_iff_eq_none.1 idle
  exact ⟨c, reached, idle, asked, report, watchers_kept reached idle (wants ["a", "b", "c"])⟩

/-- A call that wants all three keeps them, though each registration of two of them has been asked to stop. When it has
returned, one of these ends, and nobody is alive under a name that counts as watched. -/
theorem kept_though_stopped : ∃ l, blank.deeds unsteady = some l ∧ l.Kept ∧ l.reconciler.pass.isNone = true ∧
    l.supervisor.shuttingDown = false ∧
    (l.toScene.call (wants ["a", "b", "c"])).reconciler.pass.map (·.report) =
      some { kept := ["watch:a", "watch:b", "watch:c"] } ∧
    (∀ t ∈ l.supervisor.tasks, t.name = "watch:a" ∨ t.name = "watch:b" → t.stopRequested = true) ∧
    ((l.deeds [.call (wants ["a", "b", "c"]), .finish ["watch:a", "watch:b", "watch:c"], .act (.actor 0 .cancel),
        .act (.work ⟨0, none⟩ (.ended (.returned none))), .act (.actor 0 .proceed), .act (.actor 0 .proceed)]).any
      fun m => m.reconciler.watched.contains "watch:a" && !m.supervisor.isLive "watch:a") = true :=
  exists_kept unsteady (by decide +kernel)

end Docket

end Reconciler

end Switchyard
