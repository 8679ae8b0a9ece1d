import Mathlib.Data.List.Range
import Switchyard.Proofs.Reconciliation.Convergence

/-!
Which registrations a reconciler answers for, when calls may be dropped and others may use its names. Main statement:
whatever a completed call has registered is under watch as long as it lives, and only names under watch are asked to
stop.
-/
namespace Switchyard

namespace Supervisor

variable {s s' : Supervisor} {i : TaskId} {t t' : Task} {past : List Supervisor} {n name : String}

/-- Registration `i` was made under this name. -/
def Named (s : Supervisor) (name : String) (i : TaskId) : Prop := ∃ t, s.task? i = some t ∧ t.name = name

instance (s : Supervisor) (name : String) (i : TaskId) : Decidable (s.LiveUnder name i) :=
  decidable_of_iff (((s.task? i).any fun t => t.name = name && !t.isTerminated) = true)
    (by simp [LiveUnder, Option.any_eq_true])

theorem LiveUnder.named (h : s.LiveUnder n i) : s.Named n i := by
  obtain ⟨t, ht, name, _⟩ := h
  exact ⟨t, ht, name⟩

theorem Named.unique (h : s.Named n i) (h' : s.Named name i) : n = name := by
  obtain ⟨t, ht, rfl⟩ := h
  obtain ⟨t', ht', rfl⟩ := h'
  cases ht.symm.trans ht'
  rfl

theorem Named.lt (h : s.Named n i) : i < s.tasks.length := by
  obtain ⟨t, ht, _⟩ := h
  exact lt_of_task? ht

theorem exists_named (h : i < s.tasks.length) : ∃ n, s.Named n i :=
  ⟨_, s.tasks[i], List.getElem?_eq_getElem h, rfl⟩

theorem Follows.named (h : Follows s s') (named : s.Named n i) : s'.Named n i := by
  induction h with
  | refl => exact named
  | tail _ m ih =>
    obtain ⟨a, m⟩ := m
    obtain ⟨t, ht, rfl⟩ := ih
    obtain ⟨t', ht', worker⟩ := (act_effect m).worker ht
    exact ⟨t', ht', by rw [Task.name, Task.name, worker]⟩

/-- Who is alive later was alive before, if it was there. -/
theorem Follows.liveUnder (run : Run s past) (h : Follows s s') (old : i < s.tasks.length)
    (live : s'.LiveUnder n i) : s.LiveUnder n i := by
  obtain ⟨m, named⟩ := exists_named old
  have same : m = n := (h.named named).unique live.named
  obtain ⟨t, ht, name⟩ := named
  refine ⟨t, ht, name.trans same, ?_⟩
  cases dead : t.isTerminated with
  | false => rfl
  | true =>
    obtain ⟨t', ht', ended⟩ := h.terminated run ht (of_decide_eq_true dead)
    obtain ⟨u, hu, _, alive⟩ := live
    cases hu.symm.trans ht'
    exact absurd (alive.symm.trans (decide_eq_true ended)) Bool.noConfusion

theorem Run.lookup_of_liveUnder (run : Run s past) (live : s.LiveUnder n i) : s.lookup n = some i := by
  obtain ⟨t, ht, rfl, alive⟩ := live
  exact run.lookup_of_live ht alive

/-! ### Requests to stop -/

theorem task?_stop (h : s.task? i = some t) : (s.stop n).2.task? i =
    some (if s.lookup n = some i ∧ t.isTerminated = false then { t with stopRequested := true } else t) := by
  unfold Supervisor.stop
  cases found : s.lookup n with
  | none => simp [h]
  | some j =>
    by_cases same : j = i
    · subst same
      have ended : s.isTerminated j = t.isTerminated := by rw [isTerminated, h, Option.any_some]
      cases dead : t.isTerminated with
      | true => simp [ended, dead, h]
      | false =>
        simp only [ended, dead, Bool.false_eq_true, if_false, and_self, if_true]
        rw [task?, modifyTask, List.getElem?_modify_eq, ← task?, h]
        rfl
    · have other : ¬ (some j = some i ∧ t.isTerminated = false) := fun both => same (Option.some.inj both.1)
      rw [if_neg other]
      simp only
      split
      · exact h
      · rw [task?, modifyTask, List.getElem?_modify_ne _ _ same, ← task?, h]

/-- What requests to stop under these names make of a registration. -/
theorem task?_stops (names : List String) (h : s.task? i = some t) :
    (names.foldl (fun s n => (s.stop n).2) s).task? i =
      some (if (∃ n ∈ names, s.lookup n = some i) ∧ t.isTerminated = false then { t with stopRequested := true }
        else t) := by
  induction names generalizing s t with
  | nil => simp [h]
  | cons n names ih =>
    have first := task?_stop (n := n) h
    rw [List.foldl_cons, ih first]
    simp only [lookup_stop, List.mem_cons, exists_eq_or_imp]
    by_cases asked : s.lookup n = some i ∧ t.isTerminated = false
    · obtain ⟨found, alive⟩ := asked
      simp [found, alive]
    · rw [if_neg asked]
      by_cases alive : t.isTerminated = false
      · have other : s.lookup n ≠ some i := fun found => asked ⟨found, alive⟩
        simp [other]
      · simp [alive]

theorem length_stop : (s.stop n).2.tasks.length = s.tasks.length := by
  rcases stop_cases s n with same | ⟨i, t, _, amended⟩
  · rw [same]
  · rw [amended, tasks_amend, List.length_set]

theorem length_stops (names : List String) :
    (names.foldl (fun s n => (s.stop n).2) s).tasks.length = s.tasks.length := by
  induction names generalizing s with
  | nil => rfl
  | cons n names ih => exact ih.trans length_stop

theorem named_stops (names : List String) :
    (names.foldl (fun s n => (s.stop n).2) s).Named n i ↔ s.Named n i := by
  have kept {n : String} (h : s.Named n i) : (names.foldl (fun s n => (s.stop n).2) s).Named n i := by
    obtain ⟨t, ht, rfl⟩ := h
    refine ⟨_, task?_stops names ht, ?_⟩
    split
    · rfl
    · rfl
  refine ⟨fun h => ?_, kept⟩
  have old : i < s.tasks.length := by
    have bound := h.lt
    rwa [length_stops] at bound
  obtain ⟨m, named⟩ := exists_named old
  exact (kept named).unique h ▸ named

end Supervisor

namespace Reconciler

open Supervisor

variable {a : Scene} {r r' : Reconciler} {s s' s₀ : Supervisor} {i : TaskId} {past : List Supervisor}
  {specs : List WatchSpec} {spec : WatchSpec} {watched : List String} {report : ReconcileReport} {p : Pass}
  {n : String}

/-! ### The registrations of a call -/

/-- How a pass stands that found the supervisor at `s₀`. -/
structure Enrolled (watched : List String) (s₀ : Supervisor) (report : ReconcileReport) (s : Supervisor) : Prop where
  run : ∃ past, Run s past
  more : s₀.tasks.length ≤ s.tasks.length
  old : ∀ i < s₀.tasks.length, s.task? i = s₀.task? i
  unstarted : ∀ n, n ∉ report.started → s.lookup n = s₀.lookup n ∧ s.isLive n = s₀.isLive n
  started : ∀ n ∈ report.started, ∃ i, s₀.tasks.length ≤ i ∧ s.Named n i
  new : ∀ n i, s₀.tasks.length ≤ i → s.Named n i → n ∈ report.started
  kept : ∀ n ∈ report.kept, n ∈ watched

theorem Enrolled.start (run : Run s past) : Enrolled watched s {} s where
  run := ⟨past, run⟩
  more := Nat.le_refl _
  old _ _ := rfl
  unstarted _ _ := ⟨rfl, rfl⟩
  started := nofun
  new _ _ beyond named := absurd named.lt (Nat.not_lt.2 beyond)
  kept := nofun

theorem Enrolled.keep (e : Enrolled watched s₀ report s) (mem : n ∈ watched) :
    Enrolled watched s₀ { report with kept := report.kept ++ [n] } s := by
  refine { e with kept := fun m hm => ?_ }
  rcases List.mem_append.1 hm with hm | hm
  · exact e.kept m hm
  · exact List.mem_singleton.1 hm ▸ mem

theorem Enrolled.supervise {w : Worker Action} (e : Enrolled watched s₀ report s)
    (registered : s.supervise (w.named n) = .ok s') :
    Enrolled watched s₀ { report with started := report.started ++ [n] } s' := by
  obtain ⟨past, run⟩ := e.run
  have follows : Follows s s' := .single ⟨_, act_supervise.2 registered⟩
  have longer : s'.tasks.length = s.tasks.length + 1 := by
    rw [supervise_eq registered, List.length_append, List.length_singleton]
  have newest : s'.Named n s.tasks.length :=
    ⟨{ worker := w.named n }, by rw [task?_supervise registered, if_pos rfl], rfl⟩
  refine ⟨⟨_, run.move (act_supervise.2 registered)⟩, ?_, fun i hi => ?_, fun m hm => ?_, fun m hm => ?_,
    fun m i beyond named => ?_, e.kept⟩
  · have := e.more
    omega
  · have before : i ≠ s.tasks.length := Nat.ne_of_lt (Nat.lt_of_lt_of_le hi e.more)
    rw [task?_supervise registered, if_neg before, e.old i hi]
  · rw [List.mem_append, not_or, List.mem_singleton] at hm
    obtain ⟨unstarted, other⟩ := hm
    have other : m ≠ (w.named n).name := other
    obtain ⟨found, live⟩ := e.unstarted m unstarted
    constructor
    · rw [lookup_supervise registered, if_neg other, found]
    · rw [isLive_supervise run registered other, live]
  · rcases List.mem_append.1 hm with hm | hm
    · obtain ⟨i, beyond, named⟩ := e.started m hm
      exact ⟨i, beyond, follows.named named⟩
    · exact ⟨s.tasks.length, e.more, List.mem_singleton.1 hm ▸ newest⟩
  · have bound := named.lt
    rw [longer] at bound
    rcases Nat.lt_succ_iff_lt_or_eq.1 bound with before | rfl
    · obtain ⟨m', named'⟩ := exists_named before
      have same : m' = m := (follows.named named').unique named
      exact List.mem_append_left _ (same ▸ e.new m' i beyond named')
    · exact List.mem_append_right _ (List.mem_singleton.2 (named.unique newest))

theorem Enrolled.gather (e : Enrolled watched s₀ report s) (specs : List WatchSpec) :
    Enrolled watched s₀ (gather watched specs report s).1 (gather watched specs report s).2 := by
  induction specs generalizing report s with
  | nil => exact e
  | cons spec specs ih =>
    simp only [Reconciler.gather]
    split
    next => exact ih e
    next =>
      split
      next kept =>
        have mem : spec.watchName ∈ watched := by simpa using (Bool.and_eq_true_iff.1 kept).1
        exact ih (e.keep mem)
      next =>
        split
        next => exact ih e
        next =>
          split
          next => exact ih e
          next registered => exact ih (e.supervise registered)

/-- A report speaks of wanted watchers only. -/
theorem wanted_of_gather
    (h : n ∈ (gather watched specs report s).1.started ∨ n ∈ (gather watched specs report s).1.kept) :
    (n ∈ report.started ∨ n ∈ report.kept) ∨ n ∈ specs.map (·.watchName) := by
  induction specs generalizing report s with
  | nil => exact .inl h
  | cons spec specs ih =>
    have later {report' : ReconcileReport} {s' : Supervisor}
        (only : n ∈ report'.started ∨ n ∈ report'.kept →
          (n ∈ report.started ∨ n ∈ report.kept) ∨ n = spec.watchName)
        (h : n ∈ (gather watched specs report' s').1.started ∨ n ∈ (gather watched specs report' s').1.kept) :
        (n ∈ report.started ∨ n ∈ report.kept) ∨ n ∈ (spec :: specs).map (·.watchName) := by
      rw [List.map_cons, List.mem_cons]
      rcases ih h with known | mem
      · rcases only known with known | rfl
        · exact .inl known
        · exact .inr (.inl rfl)
      · exact .inr (.inr mem)
    simp only [gather] at h
    split at h
    next => exact later .inl h
    next =>
      split at h
      next => exact later (by simp only [List.mem_append, List.mem_singleton]; tauto) h
      next =>
        split at h
        next => exact later .inl h
        next =>
          split at h
          next => exact later .inl h
          next => exact later (by simp only [List.mem_append, List.mem_singleton]; tauto) h

/-- A watcher under watch that is alive is kept where it is wanted. -/
theorem Enrolled.keeps (e : Enrolled watched s₀ report s) (mem : n ∈ watched) (live : s₀.isLive n = true)
    (unstarted : n ∉ report.started) (wanted : n ∈ report.kept ∨ n ∈ specs.map (·.watchName)) :
    n ∈ (Reconciler.gather watched specs report s).1.kept ∧
      n ∉ (Reconciler.gather watched specs report s).1.started := by
  induction specs generalizing report s with
  | nil =>
    rcases wanted with kept | none
    · exact ⟨kept, unstarted⟩
    · cases none
  | cons spec specs ih =>
    rw [List.map_cons, List.mem_cons] at wanted
    have alive : (watched.contains n && s.isLive n) = true := by
      rw [(e.unstarted n unstarted).2, live, Bool.and_true]
      simpa using mem
    simp only [Reconciler.gather]
    split
    next seen =>
      have seen : spec.watchName ∈ report.started ∨ spec.watchName ∈ report.kept := by simpa using seen
      refine ih e unstarted ?_
      rcases wanted with kept | rfl | wanted
      · exact .inl kept
      · exact .inl (seen.resolve_left unstarted)
      · exact .inr wanted
    next =>
      split
      next kept =>
        have mem' : spec.watchName ∈ watched := by simpa using (Bool.and_eq_true_iff.1 kept).1
        refine ih (e.keep mem') unstarted ?_
        rcases wanted with kept | rfl | wanted
        · exact .inl (List.mem_append_left _ kept)
        · exact .inl (List.mem_append_right _ (List.mem_singleton.2 rfl))
        · exact .inr wanted
      next unkept =>
        have other : n ≠ spec.watchName := fun same => unkept (same ▸ alive)
        have wanted : n ∈ report.kept ∨ n ∈ specs.map (·.watchName) := wanted.imp_right (·.resolve_left other)
        split
        next => exact ih e unstarted wanted
        next =>
          split
          next => exact ih e unstarted wanted
          next registered =>
            refine ih (e.supervise registered) ?_ wanted
            simp [unstarted, other]

/-! ### Calls -/

/-- A call that is made in the scene `a` asks registration `i` to stop. -/
def Scene.Asks (a : Scene) (specs : List WatchSpec) (i : TaskId) : Prop :=
  ∃ p n, (a.call specs).reconciler.pass = some p ∧ n ∈ p.report.stopped ∧ a.supervisor.lookup n = some i ∧
    a.supervisor.isTerminated i = false

instance (a : Scene) (specs : List WatchSpec) (i : TaskId) : Decidable (a.Asks specs i) :=
  decidable_of_iff (((a.call specs).reconciler.pass.any fun p => p.report.stopped.any fun n =>
    a.supervisor.lookup n = some i && !a.supervisor.isTerminated i) = true) (by simp [Scene.Asks, Option.any_eq_true])

/-- What a call does, with the report that it gives. -/
structure Begun (a : Scene) (specs : List WatchSpec) (report : ReconcileReport) : Prop where
  watched : (a.call specs).reconciler.watched = a.reconciler.watched
  pass : (a.call specs).reconciler.pass = some { report, waiting := report.stopped }
  follows : Follows a.supervisor (a.call specs).supervisor
  started : ∀ n ∈ report.started, ∃ i, a.supervisor.tasks.length ≤ i ∧ (a.call specs).supervisor.Named n i
  new : ∀ n i, a.supervisor.tasks.length ≤ i → (a.call specs).supervisor.Named n i → n ∈ report.started
  kept : ∀ n ∈ report.kept, n ∈ a.reconciler.watched
  stopped : ∀ n, n ∈ report.stopped ↔ n ∈ a.reconciler.watched ∧ n ∉ report.started ∧ n ∉ report.kept
  wanted : ∀ n, n ∈ report.started ∨ n ∈ report.kept → n ∈ specs.map (·.watchName)
  keeps : ∀ n ∈ a.reconciler.watched, a.supervisor.isLive n = true → n ∈ specs.map (·.watchName) → n ∈ report.kept
  asked : ∀ i t, a.supervisor.task? i = some t → (a.call specs).supervisor.task? i =
    some (if (∃ n ∈ report.stopped, a.supervisor.lookup n = some i) ∧ t.isTerminated = false then
      { t with stopRequested := true } else t)

theorem Scene.begun (run : Run a.supervisor past) (specs : List WatchSpec) : ∃ report, Begun a specs report := by
  obtain ⟨s, r⟩ := a
  have start : Enrolled r.watched s {} s := .start run
  have e := start.gather specs
  have follows : Follows s (r.begin s specs).2 := (begin_requests r s specs).follows
  have wanted {n : String} (told : n ∈ (gather r.watched specs {} s).1.started ∨
      n ∈ (gather r.watched specs {} s).1.kept) : n ∈ specs.map (·.watchName) :=
    (wanted_of_gather told).resolve_left (by simp)
  have keeps {n : String} (mem : n ∈ r.watched) (live : s.isLive n = true) (mentioned : n ∈ specs.map (·.watchName)) :
      n ∈ (gather r.watched specs {} s).1.kept :=
    (start.keeps mem live (by simp) (.inr mentioned)).1
  cases gathered : gather r.watched specs {} s with
  | mk report s' =>
    let stopped := r.watched.filter fun n => !(report.started.contains n || report.kept.contains n)
    have calls : (Scene.mk s r).call specs = ⟨stopped.foldl (fun s n => (s.stop n).2) s',
        { r with pass := some ⟨{ report with stopped }, stopped, none⟩ }⟩ := by
      simp only [Scene.call, begin, gathered, stopped]
    rw [gathered] at e wanted keeps
    refine ⟨{ report with stopped }, ?_⟩
    constructor
    · rw [calls]
    · rw [calls]
    · exact follows
    · intro n hn
      obtain ⟨i, beyond, made⟩ := e.started n hn
      rw [calls]
      exact ⟨i, beyond, (named_stops stopped).2 made⟩
    · intro n i beyond made
      rw [calls] at made
      exact e.new n i beyond ((named_stops stopped).1 made)
    · exact e.kept
    · intro n
      simp [stopped]
    · intro n hn
      exact wanted hn
    · intro n mem live mentioned
      exact keeps mem live mentioned
    · intro i t ht
      have old : s'.task? i = some t := (e.old i (lt_of_task? ht)).trans ht
      have found : ∀ n ∈ stopped, s'.lookup n = s.lookup n := by
        intro n hn
        refine (e.unstarted n ?_).1
        have unmentioned := (List.mem_filter.1 hn).2
        simp only [Bool.not_eq_true', Bool.or_eq_false_iff, List.contains_eq_mem,
          decide_eq_false_iff_not] at unmentioned
        exact unmentioned.1
      have asked : (∃ n ∈ stopped, s'.lookup n = some i) ↔ ∃ n ∈ stopped, s.lookup n = some i :=
        exists_congr fun n => and_congr_right fun hn => by rw [found n hn]
      simp only [calls, task?_stops stopped old, asked]

theorem Begun.asks_iff (b : Begun a specs report) : a.Asks specs i ↔
    (∃ n ∈ report.stopped, a.supervisor.lookup n = some i) ∧ a.supervisor.isTerminated i = false := by
  constructor
  · rintro ⟨p, n, busy, stopped, found, alive⟩
    cases b.pass.symm.trans busy
    exact ⟨⟨n, stopped, found⟩, alive⟩
  · rintro ⟨⟨n, stopped, found⟩, alive⟩
    exact ⟨_, n, b.pass, stopped, found, alive⟩

/-- Whoever is asked to stop lives under a name that is under watch. -/
theorem Begun.asked_live (b : Begun a specs report) (run : Run a.supervisor past) (h : a.Asks specs i) :
    ∃ n ∈ a.reconciler.watched, a.supervisor.lookup n = some i ∧ a.supervisor.LiveUnder n i := by
  obtain ⟨⟨n, stopped, found⟩, alive⟩ := b.asks_iff.1 h
  obtain ⟨t, ht, name⟩ := run.name_of_lookup found
  rw [isTerminated, ht, Option.any_some] at alive
  exact ⟨n, ((b.stopped n).1 stopped).1, found, t, ht, name, alive⟩

/-- Under a name under watch, a call stops whoever lives there unless it keeps it. -/
theorem Begun.asks_of_watched (b : Begun a specs report) (run : Run a.supervisor past)
    (live : a.supervisor.LiveUnder n i) (mem : n ∈ a.reconciler.watched) :
    (n ∉ specs.map (·.watchName) → a.Asks specs i) ∧
      (n ∈ specs.map (·.watchName) → ¬ a.Asks specs i ∧ n ∈ report.kept) := by
  have found : a.supervisor.lookup n = some i := run.lookup_of_liveUnder live
  constructor
  · intro unwanted
    have unmentioned : ¬ (n ∈ report.started ∨ n ∈ report.kept) := fun told => unwanted (b.wanted n told)
    have stopped : n ∈ report.stopped := (b.stopped n).2 ⟨mem, not_or.1 unmentioned⟩
    obtain ⟨t, ht, _, alive⟩ := live
    exact b.asks_iff.2 ⟨⟨n, stopped, found⟩, by rw [isTerminated, ht, Option.any_some, alive]⟩
  · intro wanted
    have alive : a.supervisor.isLive n = true := run.isLive_iff.2 ⟨i, live⟩
    have kept : n ∈ report.kept := b.keeps n mem alive wanted
    refine ⟨fun asks => ?_, kept⟩
    obtain ⟨⟨m, stopped, found'⟩, _⟩ := b.asks_iff.1 asks
    have named : a.supervisor.Named m i := run.name_of_lookup found'
    have same : m = n := named.unique live.named
    exact ((b.stopped m).1 stopped).2.2 (same ▸ kept)

/-! ### Histories -/

/-- A scene, and the registrations that the reconciler has made on the way to it. -/
structure Ledger extends Scene where
  /-- Made by calls that have completed, or by dropped ones under names that were under watch already. -/
  held : List TaskId := []
  /-- Made by the call that waits. -/
  pending : List TaskId := []
  /-- Made by calls that were dropped, under other names. -/
  lost : List TaskId := []

namespace Ledger

def made (c : Ledger) : List TaskId := c.held ++ c.pending ++ c.lost

def call (c : Ledger) (specs : List WatchSpec) : Ledger :=
  let a := c.toScene.call specs
  let before := c.supervisor.tasks.length
  { c with toScene := a, pending := List.range' before (a.supervisor.tasks.length - before) }

/-- Registered under a name that is under watch. -/
def isWatched (c : Ledger) (i : TaskId) : Bool :=
  (c.supervisor.task? i).any fun t => c.reconciler.watched.contains t.name

/-- The call that waits is dropped. -/
def drop (c : Ledger) : Ledger where
  supervisor := c.supervisor
  reconciler := c.reconciler.abandon
  held := c.held ++ c.pending.filter c.isWatched
  lost := c.lost ++ c.pending.filter fun i => !c.isWatched i

/-- Between the calls and during them anything may happen on the supervisor. -/
inductive Step : Ledger → Ledger → Prop
  | other {c : Ledger} {s : Supervisor} (h : Follows c.supervisor s) : Step c { c with supervisor := s }
  | call {c : Ledger} (idle : c.reconciler.pass = none) (specs : List WatchSpec) : Step c (c.call specs)
  | wait {c : Ledger} {r : Reconciler} {p : Pass} (h : c.reconciler.advance c.supervisor = some r)
      (busy : r.pass = some p) : Step c { c with reconciler := r }
  | complete {c : Ledger} {r : Reconciler} (h : c.reconciler.advance c.supervisor = some r) (idle : r.pass = none) :
      Step c { c with reconciler := r, held := c.held ++ c.pending, pending := [] }
  | drop {c : Ledger} : Step c c.drop

/-- The ledgers that come about from a reconciler without calls so far. -/
def Kept (c : Ledger) : Prop :=
  ∃ s past, Run s past ∧ Relation.ReflTransGen Step { supervisor := s, reconciler := {} } c

/-! ### What histories keep -/

variable {c d : Ledger}

/-- As long as a call waits. -/
structure Waits (c : Ledger) (p : Pass) : Prop where
  started : ∀ n ∈ p.report.started, ∃ i ∈ c.pending, c.supervisor.Named n i
  pending : ∀ i ∈ c.pending, ∀ n, c.supervisor.Named n i → n ∈ p.report.started
  kept : ∀ n ∈ p.report.kept, n ∈ c.reconciler.watched
  /-- Whoever is not to stay is waited for. -/
  held : ∀ i ∈ c.held, ∀ n, c.supervisor.LiveUnder n i → (n ∈ p.report.started ∨ n ∈ p.report.kept) ∨ n ∈ p.waiting
  current : ∀ i ∈ c.held, ∀ n, c.supervisor.LiveUnder n i → ∀ rest j, p.waiting = n :: rest → p.current = some j → j = i

structure Sound (c : Ledger) : Prop where
  run : ∃ past, Run c.supervisor past
  known : ∀ i ∈ c.made, i < c.supervisor.tasks.length
  watched : ∀ n ∈ c.reconciler.watched, ∃ i ∈ c.made, c.supervisor.Named n i
  held : ∀ i ∈ c.held, ∀ n, c.supervisor.LiveUnder n i → n ∈ c.reconciler.watched
  idle : c.reconciler.pass = none → c.pending = []
  waits : ∀ p, c.reconciler.pass = some p → c.Waits p

theorem mem_made : i ∈ c.made ↔ (i ∈ c.held ∨ i ∈ c.pending) ∨ i ∈ c.lost := by
  rw [made, List.mem_append, List.mem_append]

theorem Sound.start (run : Run s past) : Sound { supervisor := s, reconciler := {} } where
  run := ⟨past, run⟩
  known := nofun
  watched := nofun
  held := nofun
  idle _ := rfl
  waits := nofun

theorem Sound.other (h : c.Sound) (follows : Follows c.supervisor s) : Sound { c with supervisor := s } := by
  obtain ⟨past, run⟩ := h.run
  obtain ⟨past', run'⟩ := run.follows follows
  have longer := follows.length_le
  -- whoever is in the ledger was there before
  have before {i : TaskId} {n : String} (mem : i ∈ c.made) (live : s.LiveUnder n i) : c.supervisor.LiveUnder n i :=
    follows.liveUnder run (h.known i mem) live
  refine ⟨⟨past', run'⟩, fun i hi => Nat.lt_of_lt_of_le (h.known i hi) longer, fun n hn => ?_, fun i hi n live => ?_,
    h.idle, fun p busy => ?_⟩
  · obtain ⟨i, hi, named⟩ := h.watched n hn
    exact ⟨i, hi, follows.named named⟩
  · exact h.held i hi n (before (mem_made.2 (.inl (.inl hi))) live)
  · have w := h.waits p busy
    refine ⟨fun n hn => ?_, fun i hi n named => ?_, w.kept, fun i hi n live => ?_, fun i hi n live => ?_⟩
    · obtain ⟨i, hi, named⟩ := w.started n hn
      exact ⟨i, hi, follows.named named⟩
    · obtain ⟨m, named'⟩ := exists_named (h.known i (mem_made.2 (.inl (.inr hi))))
      exact (follows.named named').unique named ▸ w.pending i hi m named'
    · exact w.held i hi n (before (mem_made.2 (.inl (.inl hi))) live)
    · exact w.current i hi n (before (mem_made.2 (.inl (.inl hi))) live)

theorem mem_pending_call : i ∈ (c.call specs).pending ↔
    c.supervisor.tasks.length ≤ i ∧ i < (c.call specs).supervisor.tasks.length := by
  have new : (c.call specs).pending = List.range' c.supervisor.tasks.length
      ((c.call specs).supervisor.tasks.length - c.supervisor.tasks.length) := rfl
  have bounds (x y z : Nat) : x ≤ z ∧ z < x + (y - x) ↔ x ≤ z ∧ z < y := by omega
  rw [new, List.mem_range'_1]
  exact bounds _ _ _

theorem Sound.call (h : c.Sound) (idle : c.reconciler.pass = none) (specs : List WatchSpec) : (c.call specs).Sound := by
  obtain ⟨past, run⟩ := h.run
  obtain ⟨report, b⟩ := c.toScene.begun run specs
  obtain ⟨past', run'⟩ := run.follows b.follows
  have longer : c.supervisor.tasks.length ≤ (c.call specs).supervisor.tasks.length := b.follows.length_le
  have nobody : c.pending = [] := h.idle idle
  have known {i : TaskId} (hi : i ∈ c.held ∨ i ∈ c.lost) : i ∈ c.made :=
    mem_made.2 (hi.imp_left .inl)
  have held : ∀ i ∈ c.held, ∀ n, (c.call specs).supervisor.LiveUnder n i → n ∈ c.reconciler.watched := by
    intro i hi n live
    exact h.held i hi n (b.follows.liveUnder run (h.known i (known (.inl hi))) live)
  constructor
  · exact ⟨past', run'⟩
  · intro i hi
    rcases mem_made.1 hi with (hi | hi) | hi
    · exact Nat.lt_of_lt_of_le (h.known i (known (.inl hi))) longer
    · exact (mem_pending_call.1 hi).2
    · exact Nat.lt_of_lt_of_le (h.known i (known (.inr hi))) longer
  · intro n hn
    obtain ⟨i, hi, named⟩ := h.watched n (b.watched ▸ hn)
    refine ⟨i, ?_, b.follows.named named⟩
    rcases mem_made.1 hi with (hi | hi) | hi
    · exact mem_made.2 (.inl (.inl hi))
    · rw [nobody] at hi
      cases hi
    · exact mem_made.2 (.inr hi)
  · intro i hi n live
    exact b.watched ▸ held i hi n live
  · intro none
    exact nomatch none.symm.trans b.pass
  · intro p busy
    cases b.pass.symm.trans busy
    constructor
    · intro n hn
      obtain ⟨i, beyond, named⟩ := b.started n hn
      exact ⟨i, mem_pending_call.2 ⟨beyond, named.lt⟩, named⟩
    · intro i hi n named
      exact b.new n i (mem_pending_call.1 hi).1 named
    · intro n hn
      exact b.watched ▸ b.kept n hn
    · intro i hi n live
      by_cases told : n ∈ report.started ∨ n ∈ report.kept
      · exact .inl told
      · exact .inr ((b.stopped n).2 ⟨held i hi n live, not_or.1 told⟩)
    · intro _ _ _ _ _ _ _ none
      cases none

/-- Whoever is waited for and lives is not passed over. -/
theorem Sound.wait (h : c.Sound) {p : Pass} (advanced : c.reconciler.advance c.supervisor = some r)
    (busy : r.pass = some p) : Sound { c with reconciler := r } := by
  obtain ⟨past, run⟩ := h.run
  rw [advance] at advanced
  obtain ⟨q, waiting, advanced⟩ := Option.bind_eq_some_iff.1 advanced
  have w := h.waits q waiting
  split at advanced
  next =>
    cases advanced
    cases busy
  next n rest first fresh =>
    split at advanced
    next free =>
      cases advanced
      refine { h with idle := fun idle => (by cases idle), waits := fun p' busy => ?_ }
      cases busy
      refine { w with held := fun i hi m live => ?_, current := fun _ _ _ _ _ _ _ some => ?_ }
      · refine (w.held i hi m live).imp_right fun waits => ?_
        rw [first, List.mem_cons] at waits
        rcases waits with rfl | waits
        · cases free.symm.trans (run.lookup_of_liveUnder live)
        · exact waits
      · cases fresh.symm.trans some
    next j found =>
      cases advanced
      refine { h with idle := fun idle => (by cases idle), waits := fun p' busy => ?_ }
      cases busy
      refine { w with current := fun i _ m live rest' k first' some => ?_ }
      cases first.symm.trans first'
      cases some
      exact Option.some.inj (found.symm.trans (run.lookup_of_liveUnder live))
  next n rest j first current =>
    obtain ⟨ended, advanced⟩ := Option.ite_none_right_eq_some.1 advanced
    cases advanced
    refine { h with idle := fun idle => (by cases idle), waits := fun p' busy => ?_ }
    cases busy
    refine { w with held := fun i hi m live => ?_, current := fun _ _ _ _ _ _ _ some => ?_ }
    · refine (w.held i hi m live).imp_right fun waits => ?_
      rw [first, List.mem_cons] at waits
      rcases waits with rfl | waits
      · cases w.current i hi m live rest j first current
        obtain ⟨t, ht, _, alive⟩ := live
        rw [isTerminated, ht, Option.any_some, alive] at ended
        cases ended
      · exact waits
    · cases some

theorem Sound.complete (h : c.Sound) (advanced : c.reconciler.advance c.supervisor = some r) (idle : r.pass = none) :
    Sound { c with reconciler := r, held := c.held ++ c.pending, pending := [] } := by
  rw [advance] at advanced
  obtain ⟨q, waiting, advanced⟩ := Option.bind_eq_some_iff.1 advanced
  have w := h.waits q waiting
  have same {i : TaskId} (hi : i ∈ c.held ++ c.pending ++ [] ++ c.lost) : i ∈ c.made := by
    rwa [List.append_nil] at hi
  split at advanced
  next alone =>
    cases advanced
    refine ⟨h.run, fun i hi => h.known i (same hi), fun n hn => ?_, fun i hi n live => ?_, fun _ => rfl,
      fun p busy => by cases busy⟩
    · rcases mem_found.1 hn with hn | hn
      · obtain ⟨i, hi, named⟩ := w.started n hn
        exact ⟨i, mem_made.2 (.inl (.inl (List.mem_append_right _ hi))), named⟩
      · obtain ⟨i, hi, named⟩ := h.watched n (w.kept n hn)
        exact ⟨i, by rwa [made, List.append_nil], named⟩
    · rw [mem_found]
      rcases List.mem_append.1 hi with hi | hi
      · refine (w.held i hi n live).resolve_right fun waits => ?_
        rw [alone] at waits
        cases waits
      · exact .inl (w.pending i hi n live.named)
  next =>
    split at advanced
    next =>
      cases advanced
      cases idle
    next =>
      cases advanced
      cases idle
  next =>
    obtain ⟨_, advanced⟩ := Option.ite_none_right_eq_some.1 advanced
    cases advanced
    cases idle

theorem Sound.drop (h : c.Sound) : c.drop.Sound := by
  have known {i : TaskId} : i ∈ c.drop.made ↔ i ∈ c.made := by
    rw [mem_made, mem_made]
    simp only [Ledger.drop, List.mem_append, List.mem_filter, List.not_mem_nil, or_false, Bool.not_eq_true']
    cases c.isWatched i
    · simp only [Bool.false_eq_true, and_false, or_false, and_true]
      tauto
    · simp only [and_true, Bool.true_eq_false, and_false, or_false]
  refine ⟨h.run, fun i hi => h.known i (known.1 hi), fun n hn => ?_, fun i hi n live => ?_, fun _ => rfl, nofun⟩
  · obtain ⟨i, hi, named⟩ := h.watched n hn
    exact ⟨i, known.2 hi, named⟩
  · rcases List.mem_append.1 hi with hi | hi
    · exact h.held i hi n live
    · obtain ⟨t, ht, rfl, _⟩ := live
      have watched := (List.mem_filter.1 hi).2
      have ht : c.supervisor.task? i = some t := ht
      have mem : t.name ∈ c.reconciler.watched := by simpa [isWatched, ht] using watched
      exact mem

theorem Kept.sound (h : c.Kept) : c.Sound := by
  obtain ⟨s, past, run, steps⟩ := h
  induction steps with
  | refl => exact .start run
  | tail _ step ih =>
    cases step with
    | other follows => exact ih.other follows
    | call idle specs => exact ih.call idle specs
    | wait advanced busy => exact ih.wait advanced busy
    | complete advanced idle => exact ih.complete advanced idle
    | drop => exact ih.drop

/-! ### Calls of a session -/

/-- Some history has come to this system. -/
def Accounts (s : System) : Prop := ∃ c : Ledger, c.Kept ∧ c.toScene = s.scene

theorem Kept.step (h : c.Kept) (m : Step c d) : d.Kept := by
  obtain ⟨s, past, run, steps⟩ := h
  exact ⟨s, past, run, steps.tail m⟩

theorem accounts_other {s s' : System} (h : Accounts s) (follows : Follows s.supervisor s'.supervisor)
    (same : s'.reconciler = s.reconciler) : Accounts s' := by
  obtain ⟨c, kept, scene⟩ := h
  have sup : c.supervisor = s.supervisor := congrArg Scene.supervisor scene
  have its : c.reconciler = s.reconciler := congrArg Scene.reconciler scene
  refine ⟨_, kept.step (.other (sup ▸ follows)), ?_⟩
  rw [System.scene, its, same]

/-- Whatever a system does by itself continues its history. -/
theorem accounts_closed : System.Closed Accounts where
  step {s s' l} h m := by
    rcases System.step_reconciler m with same | ⟨same, advanced⟩
    · exact accounts_other h (System.step_follows m) same
    · obtain ⟨c, kept, scene⟩ := h
      have sup : c.supervisor = s.supervisor := congrArg Scene.supervisor scene
      have its : c.reconciler = s.reconciler := congrArg Scene.reconciler scene
      rw [← its, ← sup] at advanced
      have scene' : s'.scene = ⟨c.supervisor, s'.reconciler⟩ := by rw [System.scene, same, sup]
      cases pass : s'.reconciler.pass with
      | none => exact ⟨_, kept.step (.complete advanced pass), scene'.symm⟩
      | some p => exact ⟨_, kept.step (.wait advanced pass), scene'.symm⟩
  clock h later := accounts_other h (.single ⟨.clock _, if_pos later⟩) rfl

/-- So does a call from outside, whether it completes or is given up. -/
theorem accounts_reconcile {caller : Session} (h : Accounts caller.system)
    (idle : caller.system.reconciler.pass = none) (specs : List WatchSpec) :
    Accounts (caller.reconcile specs).2.system := by
  have begun : Accounts (caller.begun specs) := by
    obtain ⟨c, kept, scene⟩ := h
    have its : c.reconciler = caller.system.reconciler := congrArg Scene.reconciler scene
    refine ⟨_, kept.step (.call (its ▸ idle) specs), ?_⟩
    rw [Ledger.call, scene]
    rfl
  obtain ⟨after, closed, ⟨completed, _⟩ | given⟩ := caller.reconcile_cases specs
  · rw [completed]
    exact closed Accounts accounts_closed begun
  · rw [given]
    obtain ⟨c, kept, scene⟩ := closed Accounts accounts_closed begun
    refine ⟨_, kept.step .drop, ?_⟩
    have dropped : c.drop.toScene = ⟨c.supervisor, c.reconciler.abandon⟩ := rfl
    rw [dropped, scene]
    rfl

/-! ### What a call keeps and what it stops -/

/-- A name under watch has been registered by the reconciler, and by others only later. -/
theorem Sound.made_before (h : c.Sound) (run : Run c.supervisor past) (mem : n ∈ c.reconciler.watched)
    (found : c.supervisor.lookup n = some i) :
    i ∈ c.made ∨ ∃ j ∈ c.made, c.supervisor.Named n j ∧ j < i ∧ c.supervisor.isTerminated j = true := by
  obtain ⟨j, hj, named⟩ := h.watched n mem
  obtain ⟨t, ht, name⟩ := named
  rcases Nat.lt_or_eq_of_le (run.latest_of_lookup found ht name) with earlier | rfl
  · refine .inr ⟨j, hj, ⟨t, ht, name⟩, earlier, ?_⟩
    rw [isTerminated, ht, Option.any_some]
    cases alive : t.isTerminated with
    | true => rfl
    | false =>
      have found' : c.supervisor.lookup n = some j := run.lookup_of_liveUnder ⟨t, ht, name, alive⟩
      exact absurd (Option.some.inj (found'.symm.trans found)) (Nat.ne_of_lt earlier)
  · exact .inl hj

/-- Whatever a completed call has registered is under watch as long as it lives, and so is what a dropped call has
registered under a name that was under watch: the next call asks it to stop unless its name is wanted, and keeps it if
that is. A call asks only those to stop that have a name under watch. The reconciler has registered them itself, or
somebody else has after its own registration of the name had ended. -/
theorem answers_for_watched (h : c.Kept) :
    (∀ i ∈ c.held, ∀ n, c.supervisor.LiveUnder n i → n ∈ c.reconciler.watched ∧ ∀ specs : List WatchSpec,
      (n ∉ specs.map (·.watchName) → c.Asks specs i) ∧
      (n ∈ specs.map (·.watchName) → ¬ c.Asks specs i ∧
        ∃ p, (c.toScene.call specs).reconciler.pass = some p ∧ n ∈ p.report.kept)) ∧
    ∀ (specs : List WatchSpec) i t, c.supervisor.task? i = some t →
      (c.Asks specs i →
        (c.toScene.call specs).supervisor.task? i = some { t with stopRequested := true } ∧
        ∃ n ∈ c.reconciler.watched, c.supervisor.LiveUnder n i ∧
          (i ∈ c.made ∨ ∃ j ∈ c.made, c.supervisor.Named n j ∧ j < i ∧ c.supervisor.isTerminated j = true)) ∧
      (¬ c.Asks specs i → (c.toScene.call specs).supervisor.task? i = some t) := by
  have sound := h.sound
  obtain ⟨past, run⟩ := sound.run
  refine ⟨fun i hi n live => ?_, fun specs i t ht => ?_⟩
  · have mem : n ∈ c.reconciler.watched := sound.held i hi n live
    refine ⟨mem, fun specs => ?_⟩
    obtain ⟨report, b⟩ := c.toScene.begun run specs
    obtain ⟨stops, keeps⟩ := b.asks_of_watched run live mem
    exact ⟨stops, fun wanted => ⟨(keeps wanted).1, _, b.pass, (keeps wanted).2⟩⟩
  · obtain ⟨report, b⟩ := c.toScene.begun run specs
    have alive : c.supervisor.isTerminated i = t.isTerminated := by rw [isTerminated, ht, Option.any_some]
    have asks_iff : c.Asks specs i ↔
        (∃ n ∈ report.stopped, c.supervisor.lookup n = some i) ∧ t.isTerminated = false := by
      rw [b.asks_iff, alive]
    rw [b.asked i t ht]
    constructor
    · intro asks
      obtain ⟨n, mem, found, live⟩ := b.asked_live run asks
      exact ⟨by rw [if_pos (asks_iff.1 asks)], n, mem, live, sound.made_before run mem found⟩
    · intro unasked
      rw [if_neg fun asked => unasked (asks_iff.2 asked)]

/-! ### A dropped call -/

/-- What may come next in a history. -/
inductive Deed where
  | act (x : Act)
  | call (specs : List WatchSpec)
  | wait
  | finish (watched : List String)
  | drop

def deed (c : Ledger) : Deed → Option Ledger
  | .act x => (c.supervisor.act x).map fun s => { c with supervisor := s }
  | .call specs => if c.reconciler.pass.isNone then some (c.call specs) else none
  | .wait => (c.reconciler.advance c.supervisor).bind fun r =>
    if r.pass.isSome then some { c with reconciler := r } else none
  | .finish watched => c.reconciler.pass.bind fun p =>
    if p.waiting = [] ∧ watched.Pairwise (· < ·) ∧ watched.Perm (p.report.started ++ p.report.kept) then
      some { c with reconciler := { watched }, held := c.held ++ c.pending, pending := [] }
    else none
  | .drop => some c.drop

def deeds (c : Ledger) (ds : List Deed) : Option Ledger := ds.foldlM deed c

theorem step_of_deed {x : Deed} (h : c.deed x = some d) : Step c d := by
  cases x with
  | act x =>
    obtain ⟨s, acted, rfl⟩ := Option.map_eq_some_iff.1 h
    exact .other (.single ⟨x, acted⟩)
  | call specs =>
    obtain ⟨idle, h⟩ := Option.ite_none_right_eq_some.1 h
    cases h
    exact .call (Option.isNone_iff_eq_none.1 idle) specs
  | wait =>
    obtain ⟨r, advanced, h⟩ := Option.bind_eq_some_iff.1 h
    obtain ⟨busy, h⟩ := Option.ite_none_right_eq_some.1 h
    cases h
    obtain ⟨p, busy⟩ := Option.isSome_iff_exists.1 busy
    exact .wait advanced busy
  | finish watched =>
    obtain ⟨p, busy, h⟩ := Option.bind_eq_some_iff.1 h
    obtain ⟨⟨alone, ascending, perm⟩, h⟩ := Option.ite_none_right_eq_some.1 h
    cases h
    exact .complete (advance_found busy alone ascending perm) rfl
  | drop =>
    cases h
    exact .drop

theorem Kept.deeds (h : c.Kept) {ds : List Deed} (done : c.deeds ds = some d) : d.Kept := by
  exact kept_of_foldlM (P := Kept) (fun first before => before.step (step_of_deed first)) done h

/-- Nothing has happened yet. -/
def blank : Ledger := { supervisor := {}, reconciler := {} }

theorem exists_kept {P : Ledger → Prop} [DecidablePred P] (ds : List Deed)
    (h : (blank.deeds ds).any (fun c => P c) = true) : ∃ c, blank.deeds ds = some c ∧ c.Kept ∧ P c := by
  have start : blank.Kept := ⟨{}, [], .start .standard 0 [], .refl⟩
  obtain ⟨c, done, holds⟩ := (Option.any_eq_true _ _).1 h
  exact ⟨c, done, start.deeds done, of_decide_eq_true holds⟩

/-- A watcher that ends by itself, as the registration given. -/
def lapses (i : TaskId) : List Deed :=
  [.act (.actor i .proceed), .act (.actor i .proceed), .act (.work ⟨i, none⟩ (.ended (.returned none))),
    .act (.actor i .proceed), .act (.actor i .proceed)]

def wants (keys : List String) : List WatchSpec :=
  keys.map fun key => { watchName := Session.watchName key, make := .ok { name := key, task := key } }

/-- Two watchers, of which the first ends by itself. A call that registers it again is dropped while it waits for the
second one. -/
def renewal : List Deed :=
  [.call (wants ["a", "b"]), .finish ["watch:a", "watch:b"]] ++ lapses 0 ++ [.call (wants ["a"]), .wait, .drop]

theorem answers_for_watched_renewal : ∃ c, blank.deeds renewal = some c ∧ c.Kept ∧
    (c.reconciler.pass.isNone ∧ 2 ∈ c.held ∧
      c.supervisor.LiveUnder "watch:a" 2 ∧ c.Asks [] 2 ∧ ¬ c.Asks (wants ["a"]) 2) ∧
    (∀ i ∈ c.held, ∀ n, c.supervisor.LiveUnder n i → n ∈ c.reconciler.watched ∧ ∀ specs : List WatchSpec,
      (n ∉ specs.map (·.watchName) → c.Asks specs i) ∧
      (n ∈ specs.map (·.watchName) → ¬ c.Asks specs i ∧
        ∃ p, (c.toScene.call specs).reconciler.pass = some p ∧ n ∈ p.report.kept)) ∧
    ∀ (specs : List WatchSpec) i t, c.supervisor.task? i = some t →
      (c.Asks specs i →
        (c.toScene.call specs).supervisor.task? i = some { t with stopRequested := true } ∧
        ∃ n ∈ c.reconciler.watched, c.supervisor.LiveUnder n i ∧
          (i ∈ c.made ∨ ∃ j ∈ c.made, c.supervisor.Named n j ∧ j < i ∧ c.supervisor.isTerminated j = true)) ∧
      (¬ c.Asks specs i → (c.toScene.call specs).supervisor.task? i = some t) := by
  obtain ⟨c, done, kept, shown⟩ := exists_kept (P := fun c => c.reconciler.pass.isNone ∧ 2 ∈ c.held ∧
    c.supervisor.LiveUnder "watch:a" 2 ∧ c.Asks [] 2 ∧ ¬ c.Asks (wants ["a"]) 2) renewal (by decide +kernel)
  exact ⟨c, done, kept, shown, answers_for_watched kept⟩

/-- A watcher ends by itself, and somebody else takes its name. A call that registers another watcher is dropped
while it waits for that one. -/
def takeover : List Deed :=
  [.call (wants ["a"]), .finish ["watch:a"]] ++ lapses 0 ++
    [.act (.supervise { name := "watch:a", task := "a" }), .call (wants ["b"]), .wait, .drop]

/-- The dropped call has left a watcher that is not under watch, and whoever has taken the name is asked to stop. -/
theorem answers_for_watched_takeover : ∃ c, blank.deeds takeover = some c ∧ c.Kept ∧ c.reconciler.pass.isNone ∧
    (2 ∈ c.made ∧ c.supervisor.LiveUnder "watch:b" 2 ∧ "watch:b" ∉ c.reconciler.watched ∧ ¬ c.Asks [] 2) ∧
    1 ∉ c.made ∧ c.Asks [] 1 :=
  exists_kept takeover (by decide +kernel)

end Ledger

end Reconciler

end Switchyard
