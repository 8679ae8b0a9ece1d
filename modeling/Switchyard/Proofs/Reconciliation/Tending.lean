import Mathlib.Data.List.Induction
import Mathlib.Data.List.Nodup
import Switchyard.Proofs.Reconciliation.Gathering

/-!
A reconciler with the supervisor it uses, through a history of calls: what holds between two calls, and as long as a
call waits.
-/
namespace Switchyard

namespace Supervisor

variable {s s' : Supervisor} {i : TaskId} {t : Task} {past : List Supervisor} {n : String}

theorem Follows.terminated (run : Run s past) (h : Follows s s') (ht : s.task? i = some t)
    (ended : t.state = .terminated) : ∃ t', s'.task? i = some t' ∧ t'.state = .terminated := by
  induction h with
  | refl => exact ⟨t, ht, ended⟩
  | tail before m ih =>
    obtain ⟨u, hu, ended⟩ := ih
    obtain ⟨a, m⟩ := m
    obtain ⟨past, run⟩ := run.follows before
    obtain ⟨t', ht'⟩ := (act_effect m).task? hu
    exact ⟨t', ht', terminated_kept run (act_effect m) hu ht' ended⟩

theorem Follows.lookup_isSome (h : Follows s s') (known : (s.lookup n).isSome) : (s'.lookup n).isSome := by
  induction h with
  | refl => exact known
  | tail _ m ih =>
    obtain ⟨a, m⟩ := m
    exact (act_effect m).lookup_isSome ih

theorem isLive_eq_false_of_state (h : s.state n = some .terminated) : s.isLive n = false := by
  rw [isLive_eq_any_state, h]
  rfl

theorem Run.state_of_not_live (run : Run s past) (known : (s.lookup n).isSome) (dead : s.isLive n = false) :
    s.state n = some .terminated := by
  obtain ⟨i, found⟩ := Option.isSome_iff_exists.1 known
  obtain ⟨t, ht, _⟩ := run.name_of_lookup found
  refine state_eq_some_iff.2 ⟨i, t, found, ht, ?_⟩
  simpa [isLive, lookupTask, found, ht, Task.isTerminated_iff] using dead

/-- Under a name that nobody registers again, whoever has ended has ended for good. -/
theorem Follows.state (run : Run s past) (h : Follows s s') (apart : s'.lookup n = s.lookup n)
    (ended : s.state n = some .terminated) : s'.state n = some .terminated := by
  obtain ⟨i, t, found, ht, ended⟩ := state_eq_some_iff.1 ended
  obtain ⟨t', ht', ended'⟩ := h.terminated run ht ended
  exact state_eq_some_iff.2 ⟨i, t', apart.trans found, ht', ended'⟩

theorem Follows.wasLive (run : Run s past) (h : Follows s s') (apart : s'.lookup n = s.lookup n)
    (live : s'.isLive n = true) : s.isLive n = true := by
  cases dead : s.isLive n with
  | true => rfl
  | false =>
    cases found : s.lookup n with
    | none => exact absurd (live.symm.trans (isLive_of_lookup_eq_none (apart.trans found))) Bool.noConfusion
    | some i =>
      have ended := run.state_of_not_live (by rw [found]; rfl) dead
      exact absurd (live.symm.trans (isLive_eq_false_of_state (h.state run apart ended))) Bool.noConfusion

end Supervisor

namespace Reconciler

open Supervisor

/-- A supervisor, and a reconciler that uses it. -/
structure Scene where
  supervisor : Supervisor
  reconciler : Reconciler

/-- Begins a call. -/
def Scene.call (a : Scene) (specs : List WatchSpec) : Scene :=
  let (reconciler, supervisor) := a.reconciler.begin a.supervisor specs
  { supervisor, reconciler }

/-- What may happen beside the calls. Nobody else registers a name that is the reconciler's own. -/
inductive Step (own : String → Prop) : Scene → Scene → Prop
  | other {s s' : Supervisor} {r : Reconciler} (h : Follows s s') (apart : ∀ n, own n → s'.lookup n = s.lookup n) :
      Step own ⟨s, r⟩ ⟨s', r⟩
  | advance {s : Supervisor} {r r' : Reconciler} (h : r.advance s = some r') : Step own ⟨s, r⟩ ⟨s, r'⟩

/-- The scenes that come about when each call begins only after the one before has completed. -/
inductive Tended (own : String → Prop) : Scene → Prop
  | start {s : Supervisor} {past : List Supervisor} (run : Run s past) (free : ∀ n, own n → s.isLive n = false) :
      Tended own ⟨s, {}⟩
  | step {a b : Scene} (h : Tended own a) (m : Step own a b) : Tended own b
  | call {a : Scene} {specs : List WatchSpec} (h : Tended own a) (idle : a.reconciler.pass = none)
      (names : ∀ spec ∈ specs, own spec.watchName) : Tended own (a.call specs)

variable {own : String → Prop} {a b : Scene} {s s' : Supervisor} {past : List Supervisor} {specs : List WatchSpec}
  {watched : List String} {report : ReconcileReport} {p : Pass} {n : String}

/-! ### The report of a call -/

/-- What a call reports: the watchers under watch that are neither kept nor registered again are stopped. -/
def plan (watched : List String) (s : Supervisor) (specs : List WatchSpec) : ReconcileReport where
  started := toStart watched s specs
  kept := toKeep watched s specs
  stopped := watched.filter fun n => !((toStart watched s specs).contains n || (toKeep watched s specs).contains n)

theorem mem_stopped : n ∈ (plan watched s specs).stopped ↔
    n ∈ watched ∧ n ∉ (plan watched s specs).started ∧ n ∉ (plan watched s specs).kept := by
  simp [plan]

theorem nodup_eraseDups (l : List String) : l.eraseDups.Nodup := by
  induction l using List.reverseRecOn with
  | nil => exact List.nodup_nil
  | append_singleton l n ih =>
    rw [eraseDups_concat]
    split
    next => exact ih
    next new =>
      rw [← List.concat_eq_append]
      exact (List.nodup_concat _ n).2 ⟨fun h => new (List.mem_eraseDups.1 h), ih⟩

theorem disjoint_plan (h : n ∈ (plan watched s specs).started) : n ∉ (plan watched s specs).kept := by
  intro kept
  exact absurd ((mem_toKeep.1 kept).2.symm.trans (mem_toStart.1 h).1) Bool.noConfusion

theorem nodup_plan : ((plan watched s specs).started ++ (plan watched s specs).kept).Nodup := by
  rw [List.nodup_append']
  exact ⟨nodup_eraseDups _, nodup_eraseDups _, fun n => disjoint_plan⟩

theorem lookup_stops (names : List String) : (names.foldl (fun s n => (s.stop n).2) s).lookup n = s.lookup n := by
  induction names generalizing s with
  | nil => rfl
  | cons name names ih => exact ih.trans lookup_stop

theorem isLive_stops (names : List String) : (names.foldl (fun s n => (s.stop n).2) s).isLive n = s.isLive n := by
  induction names generalizing s with
  | nil => rfl
  | cons name names ih => exact ih.trans isLive_stop

theorem begin_gathered (r : Reconciler) (run : Run s past)
    (owned : ∀ spec ∈ specs, s.isLive spec.watchName = true → spec.watchName ∈ r.watched) :
    let report := plan r.watched s specs
    (r.begin s specs).1 = { r with pass := some { report, waiting := report.stopped } } ∧
      (r.begin s specs).2 =
        report.stopped.foldl (fun s n => (s.stop n).2) (gather r.watched specs {} s).2 ∧
      (∀ n ∈ report.started, ((r.begin s specs).2.lookup n).isSome) ∧
      ∀ n, n ∉ report.started → (r.begin s specs).2.isLive n = s.isLive n := by
  have gathered := gather_gathered (.start run) owned
  rw [List.nil_append] at gathered
  have started : (gather r.watched specs {} s).1.started = (plan r.watched s specs).started := gathered.started
  refine ⟨?_, ?_, fun n hn => ?_, fun n hn => ?_⟩
  · simp only [begin, plan, gathered.started, gathered.kept]
  · simp only [begin, plan, gathered.started, gathered.kept]
  · rw [begin, lookup_stops]
    exact gathered.known n (started ▸ hn)
  · rw [begin, isLive_stops]
    exact gathered.live n (started ▸ hn)

/-! ### Invariants -/

/-- Between two calls whoever lives under a name of the reconciler is under watch. -/
structure Resting (own : String → Prop) (s : Supervisor) (watched : List String) : Prop where
  ascending : watched.Pairwise (· < ·)
  owned : ∀ n ∈ watched, own n ∧ (s.lookup n).isSome
  live : ∀ n, own n → s.isLive n = true → n ∈ watched

/-- The report speaks of this name. -/
def Mentions (r : ReconcileReport) (n : String) : Prop := n ∈ r.started ∨ n ∈ r.kept ∨ n ∈ r.stopped

/-- During a call the watchers asked to stop have ended or are waited for. -/
structure Passing (own : String → Prop) (s : Supervisor) (p : Pass) : Prop where
  distinct : (p.report.started ++ p.report.kept).Nodup
  owned : ∀ n, Mentions p.report n → own n ∧ (s.lookup n).isSome
  live : ∀ n, own n → s.isLive n = true → Mentions p.report n
  waiting : ∀ n ∈ p.waiting, n ∈ p.report.stopped
  stopped : ∀ n ∈ p.report.stopped, n ∈ p.waiting ∨ s.state n = some .terminated
  current : ∀ i, p.current = some i → ∃ n rest, p.waiting = n :: rest ∧ s.lookup n = some i

theorem Resting.follows (rest : Resting own s watched) (run : Run s past) (h : Follows s s')
    (apart : ∀ n, own n → s'.lookup n = s.lookup n) : Resting own s' watched where
  ascending := rest.ascending
  owned n hn := by
    obtain ⟨mine, known⟩ := rest.owned n hn
    exact ⟨mine, apart n mine ▸ known⟩
  live n mine alive := rest.live n mine (h.wasLive run (apart n mine) alive)

theorem Passing.follows (pass : Passing own s p) (run : Run s past) (h : Follows s s')
    (apart : ∀ n, own n → s'.lookup n = s.lookup n) : Passing own s' p where
  distinct := pass.distinct
  owned n hn := by
    obtain ⟨mine, known⟩ := pass.owned n hn
    exact ⟨mine, apart n mine ▸ known⟩
  live n mine alive := pass.live n mine (h.wasLive run (apart n mine) alive)
  waiting := pass.waiting
  stopped n hn := (pass.stopped n hn).imp_right (h.state run (apart n (pass.owned n (.inr (.inr hn))).1))
  current i hi := by
    obtain ⟨n, rest, first, found⟩ := pass.current i hi
    have stopped := pass.waiting n (first ▸ List.mem_cons_self)
    exact ⟨n, rest, first, (apart n (pass.owned n (.inr (.inr stopped))).1).trans found⟩

theorem Resting.call {r : Reconciler} (rest : Resting own s r.watched) (run : Run s past)
    (names : ∀ spec ∈ specs, own spec.watchName) :
    (r.begin s specs).1.pass = some ⟨plan r.watched s specs, (plan r.watched s specs).stopped, none⟩ ∧
      Passing own (r.begin s specs).2 ⟨plan r.watched s specs, (plan r.watched s specs).stopped, none⟩ := by
  obtain ⟨begun, _, known, live⟩ := begin_gathered r run fun spec hspec => rest.live _ (names spec hspec)
  refine ⟨by rw [begun], nodup_plan, fun n hn => ?_, fun n mine alive => ?_, fun n hn => hn, fun n hn => .inl hn, nofun⟩
  · have old (hn : n ∈ r.watched) : own n ∧ ((r.begin s specs).2.lookup n).isSome := by
      obtain ⟨mine, known⟩ := rest.owned n hn
      exact ⟨mine, (begin_requests r s specs).follows.lookup_isSome known⟩
    rcases hn with hn | hn | hn
    · obtain ⟨_, spec, wanted, rfl, _⟩ := mem_toStart.1 hn
      exact ⟨names spec wanted, known _ hn⟩
    · have kept := (mem_toKeep.1 hn).2
      exact old (by simpa using (Bool.and_eq_true_iff.1 kept).1)
    · exact old (mem_stopped.1 hn).1
  · by_cases started : n ∈ (plan r.watched s specs).started
    · exact .inl started
    · by_cases kept : n ∈ (plan r.watched s specs).kept
      · exact .inr (.inl kept)
      · exact .inr (.inr (mem_stopped.2 ⟨rest.live n mine ((live n started).symm.trans alive), started, kept⟩))

/-! ### The wait -/

theorem mem_found : n ∈ found report ↔ n ∈ report.started ∨ n ∈ report.kept := by
  rw [found, List.mem_mergeSort, List.mem_append]

theorem ascending_found (distinct : (report.started ++ report.kept).Nodup) : (found report).Pairwise (· < ·) := by
  have sorted : (found report).Pairwise fun a b => decide (a ≤ b) = true := by
    refine List.pairwise_mergeSort (fun a b c ab bc => ?_) (fun a b => ?_) _
    · exact decide_eq_true (String.le_trans (of_decide_eq_true ab) (of_decide_eq_true bc))
    · simpa using String.le_total a b
  have nodup : (found report).Nodup := (List.mergeSort_perm _ _).nodup_iff.2 distinct
  refine (sorted.and nodup).imp fun {a b} h => ?_
  obtain ⟨le, ne⟩ := h
  refine Decidable.byContradiction fun ge => ?_
  exact ne (String.le_antisymm (of_decide_eq_true le) (String.not_lt.1 ge))

/-- Nobody is waited for any more. -/
theorem Passing.completed (pass : Passing own s p) (none : p.waiting = []) :
    (∀ n ∈ p.report.stopped, s.state n = some .terminated) ∧ Resting own s (found p.report) := by
  have gone : ∀ n ∈ p.report.stopped, s.state n = some .terminated := fun n hn =>
    (pass.stopped n hn).resolve_left (by simp [none])
  refine ⟨gone, ascending_found pass.distinct, fun n hn => ?_, fun n mine alive => ?_⟩
  · rcases mem_found.1 hn with hn | hn
    · exact pass.owned n (.inl hn)
    · exact pass.owned n (.inr (.inl hn))
  · rcases pass.live n mine alive with hn | hn | hn
    · exact mem_found.2 (.inl hn)
    · exact mem_found.2 (.inr hn)
    · exact absurd (alive.symm.trans (isLive_eq_false_of_state (gone n hn))) Bool.noConfusion

/-- How a call stands, and what it leaves. -/
inductive Underway (own : String → Prop) (report : ReconcileReport) (a : Scene) : Prop
  | waits {p : Pass} (busy : a.reconciler.pass = some p) (same : p.report = report) (pass : Passing own a.supervisor p)
  | completed (idle : a.reconciler.pass = none) (watched : a.reconciler.watched = found report)
      (gone : ∀ n ∈ report.stopped, own n ∧ a.supervisor.state n = some .terminated)
      (rest : Resting own a.supervisor a.reconciler.watched)

theorem Passing.advance {r r' : Reconciler} (pass : Passing own s p) (busy : r.pass = some p)
    (h : r.advance s = some r') : Underway own p.report ⟨s, r'⟩ := by
  rw [Reconciler.advance, busy] at h
  simp only [Option.bind_eq_bind, Option.bind_some] at h
  split at h
  next none =>
    cases h
    obtain ⟨gone, rest⟩ := pass.completed none
    exact .completed rfl rfl (fun n hn => ⟨(pass.owned n (.inr (.inr hn))).1, gone n hn⟩) rest
  next n rest first fresh =>
    have stopped := pass.waiting n (first ▸ List.mem_cons_self)
    obtain ⟨i, found⟩ := Option.isSome_iff_exists.1 (pass.owned n (.inr (.inr stopped))).2
    rw [found] at h
    cases h
    refine .waits rfl rfl { pass with current := fun j hj => ?_ }
    cases hj
    exact ⟨n, rest, first, found⟩
  next n rest i first current =>
    obtain ⟨ended, h⟩ := Option.ite_none_right_eq_some.1 h
    cases h
    obtain ⟨n', rest', first', found⟩ := pass.current i current
    cases first.symm.trans first'
    have ended : s.state n = some .terminated := by
      obtain ⟨t, ht, ended⟩ := (Option.any_eq_true _ _).1 ended
      exact state_eq_some_iff.2 ⟨i, t, found, ht, of_decide_eq_true ended⟩
    refine .waits rfl rfl { pass with waiting := fun k hk => ?_, stopped := fun k hk => ?_, current := nofun }
    · exact pass.waiting k (first ▸ List.mem_cons_of_mem n hk)
    · refine (pass.stopped k hk).elim (fun waits => ?_) .inr
      rw [first] at waits
      rcases List.mem_cons.1 waits with rfl | waits
      · exact .inr ended
      · exact .inl waits

theorem Underway.step (h : Underway own report a) (run : Run a.supervisor past) (m : Step own a b) :
    Underway own report b := by
  cases m with
  | other follows apart =>
    cases h with
    | waits busy same pass => exact .waits busy same (pass.follows run follows apart)
    | completed idle watched gone rest =>
      refine .completed idle watched (fun n hn => ?_) (rest.follows run follows apart)
      obtain ⟨mine, ended⟩ := gone n hn
      exact ⟨mine, follows.state run (apart n mine) ended⟩
  | advance advanced =>
    cases h with
    | waits busy same pass => exact same ▸ pass.advance busy advanced
    | completed idle =>
      rw [Reconciler.advance, idle] at advanced
      cases advanced

/-- How many steps a wait for watchers that have ended still takes. -/
def stepsLeft (p : Pass) : Nat := 2 * p.waiting.length + if p.current.isSome then 0 else 1

theorem Passing.advances {r : Reconciler} (pass : Passing own s p) (busy : r.pass = some p)
    (gone : ∀ n ∈ p.report.stopped, s.state n = some .terminated) :
    ∃ r', r.advance s = some r' ∧ ∀ p', r'.pass = some p' → stepsLeft p' < stepsLeft p := by
  rw [Reconciler.advance, busy, Option.bind_eq_bind, Option.bind_some]
  cases first : p.waiting with
  | nil => exact ⟨_, rfl, nofun⟩
  | cons n rest =>
    have stopped := pass.waiting n (first ▸ List.mem_cons_self)
    obtain ⟨i, t, found, ht, ended⟩ := state_eq_some_iff.1 (gone n stopped)
    cases current : p.current with
    | none =>
      refine ⟨{ r with pass := some { p with current := some i } }, by simp only [found, first], fun p' hp => ?_⟩
      cases hp
      simp [stepsLeft, current]
    | some j =>
      obtain ⟨n', rest', first', found'⟩ := pass.current j current
      cases first.symm.trans first'
      cases found.symm.trans found'
      have dead : s.isTerminated i = true := by
        simp [isTerminated, ht, Task.isTerminated_iff, ended]
      refine ⟨_, if_pos dead, fun p' hp => ?_⟩
      cases hp
      simp [stepsLeft, first, current, Nat.mul_add]

theorem Passing.returns {r : Reconciler} {p : Pass} (pass : Passing own s p) (busy : r.pass = some p)
    (gone : ∀ n ∈ p.report.stopped, s.state n = some .terminated) :
    ∃ r', Relation.ReflTransGen (Step own) ⟨s, r⟩ ⟨s, r'⟩ ∧ r'.pass = none := by
  obtain ⟨r', advanced, fewer⟩ := pass.advances busy gone
  have first : Relation.ReflTransGen (Step own) ⟨s, r⟩ ⟨s, r'⟩ := .single (.advance advanced)
  cases pass.advance busy advanced with
  | completed idle => exact ⟨r', first, idle⟩
  | waits busy' same pass' =>
    obtain ⟨r'', rest, idle⟩ := Passing.returns pass' busy' (same ▸ gone)
    exact ⟨r'', first.trans rest, idle⟩
termination_by stepsLeft p
decreasing_by exact fewer _ busy'

/-- A call returns as soon as all whom it has stopped have ended. -/
theorem Underway.returns (h : Underway own report a)
    (gone : ∀ n ∈ report.stopped, a.supervisor.state n = some .terminated) :
    ∃ b, Relation.ReflTransGen (Step own) a b ∧ b.supervisor = a.supervisor ∧ b.reconciler.pass = none := by
  cases h with
  | completed idle => exact ⟨a, .refl, rfl, idle⟩
  | waits busy same pass =>
    obtain ⟨r, steps, idle⟩ := pass.returns busy (same ▸ gone)
    exact ⟨⟨a.supervisor, r⟩, steps, rfl, idle⟩

/-! ### Histories of calls -/

theorem Tended.run (h : Tended own a) : ∃ past, Run a.supervisor past := by
  induction h with
  | start run => exact ⟨_, run⟩
  | step _ m ih =>
    obtain ⟨past, run⟩ := ih
    cases m with
    | other follows => exact run.follows follows
    | advance => exact ⟨past, run⟩
  | @call a specs _ _ _ ih =>
    obtain ⟨past, run⟩ := ih
    exact run.follows (begin_requests a.reconciler a.supervisor specs).follows

theorem Tended.steps (h : Tended own a) (m : Relation.ReflTransGen (Step own) a b) : Tended own b := by
  induction m with
  | refl => exact h
  | tail _ m ih => exact ih.step m

theorem call_underway (run : Run a.supervisor past) (rest : Resting own a.supervisor a.reconciler.watched)
    (names : ∀ spec ∈ specs, own spec.watchName) :
    Underway own (plan a.reconciler.watched a.supervisor specs) (a.call specs) := by
  obtain ⟨busy, pass⟩ := rest.call run names
  exact .waits busy rfl pass

theorem Underway.rest (h : Underway own report a) (idle : a.reconciler.pass = none) :
    Resting own a.supervisor a.reconciler.watched := by
  cases h with
  | waits busy => exact nomatch idle.symm.trans busy
  | completed _ _ _ rest => exact rest

theorem Tended.rest_or_underway (h : Tended own a) :
    (a.reconciler.pass = none ∧ Resting own a.supervisor a.reconciler.watched) ∨ ∃ report, Underway own report a := by
  induction h with
  | start run free =>
    refine .inl ⟨rfl, .nil, nofun, fun n mine alive => ?_⟩
    exact absurd (alive.symm.trans (free n mine)) Bool.noConfusion
  | step tended m ih =>
    obtain ⟨past, run⟩ := tended.run
    rcases ih with ⟨idle, rest⟩ | ⟨report, underway⟩
    · cases m with
      | other follows apart => exact .inl ⟨idle, rest.follows run follows apart⟩
      | advance advanced =>
        rw [Reconciler.advance, idle] at advanced
        cases advanced
    · exact .inr ⟨report, underway.step run m⟩
  | call tended idle names ih =>
    obtain ⟨past, run⟩ := tended.run
    rcases ih with ⟨_, rest⟩ | ⟨report, underway⟩
    · exact .inr ⟨_, call_underway run rest names⟩
    · exact .inr ⟨_, call_underway run (underway.rest idle) names⟩

theorem Tended.rest (h : Tended own a) (idle : a.reconciler.pass = none) :
    Resting own a.supervisor a.reconciler.watched := by
  rcases h.rest_or_underway with ⟨_, rest⟩ | ⟨_, underway⟩
  · exact rest
  · exact underway.rest idle

/-- As long as it waits, a call stands by its report. -/
theorem Tended.course (h : Tended own a) (idle : a.reconciler.pass = none)
    (names : ∀ spec ∈ specs, own spec.watchName) (m : Relation.ReflTransGen (Step own) (a.call specs) b) :
    Underway own (plan a.reconciler.watched a.supervisor specs) b := by
  induction m with
  | refl =>
    obtain ⟨past, run⟩ := h.run
    exact call_underway run (h.rest idle) names
  | tail before m ih =>
    obtain ⟨past, run⟩ := ((h.call idle names).steps before).run
    exact ih.step run m

end Reconciler

end Switchyard
