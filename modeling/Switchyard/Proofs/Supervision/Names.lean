import Switchyard.Proofs.Session

/-!
Names. Main statement: of all registrations under a name at most one is alive, the registry leads to it, and it alone
keeps the name from being registered again.
-/
namespace Switchyard.Supervisor

variable {s s' : Supervisor} {i j k : TaskId} {t t' : Task} {past : List Supervisor} {name : String}
  {w : Worker Action} {e : SupervisorError}

/-- Registration `i` was made under this name and has not terminated. -/
def LiveUnder (s : Supervisor) (name : String) (i : TaskId) : Prop :=
  ∃ t, s.task? i = some t ∧ t.name = name ∧ t.isTerminated = false

theorem supervise_eq_error_iff : s.supervise w = .error e ↔ e = .duplicateName w.name ∧ s.isLive w.name = true := by
  unfold Supervisor.supervise isLive
  split
  next live =>
    rw [Except.error.injEq]
    exact ⟨fun h => ⟨h.symm, live⟩, fun h => h.1.symm⟩
  next dead =>
    constructor
    · intro h
      cases h
    · intro h
      exact absurd h.2 dead

theorem isLive_of_supervise (h : s.supervise w = .ok s') : s.isLive w.name = false := by
  cases live : s.isLive w.name with
  | false => rfl
  | true =>
    have refused : s.supervise w = .error (.duplicateName w.name) := supervise_eq_error_iff.2 ⟨rfl, live⟩
    exact absurd (h.symm.trans refused) nofun

theorem state_eq_some_iff {state : TaskState} :
    s.state name = some state ↔ ∃ i t, s.lookup name = some i ∧ s.task? i = some t ∧ t.state = state := by
  simp only [Supervisor.state, lookupTask, Option.map_eq_some_iff, Option.bind_eq_some_iff]
  constructor
  · rintro ⟨t, ⟨i, found, ht⟩, stands⟩
    exact ⟨i, t, found, ht, stands⟩
  · rintro ⟨i, t, found, ht, stands⟩
    exact ⟨t, ⟨i, found, ht⟩, stands⟩

theorem isLive_eq_any_state : s.isLive name = (s.state name).any (!·.isTerminal) := by
  rw [Supervisor.state, Option.any_map]
  rfl

theorem isLive_of_lookup (found : s.lookup name = some i) (h : s.task? i = some t) (live : t.isTerminated = false) :
    s.isLive name = true := by
  simp [isLive, lookupTask, found, h, live]

/-- Who is alive now was alive before. -/
theorem Effect.wasLive (run : Run s past) (e : Effect s s') (h : s.task? k = some t) (h' : s'.task? k = some t')
    (live : t'.isTerminated = false) : t.isTerminated = false := by
  cases dead : t.isTerminated with
  | false => rfl
  | true =>
    have kept := terminated_kept run e h h' (of_decide_eq_true dead)
    exact absurd (live.symm.trans (decide_eq_true kept)) nofun

/-- The registry leads to whoever is alive. -/
theorem Run.lookup_of_live (run : Run s past) (h : s.task? i = some t) (live : t.isTerminated = false) :
    s.lookup t.name = some i := by
  induction run generalizing i t with
  | start => cases h
  | @move s s' past run _ m ih =>
    have e := act_effect m
    -- whoever was there before was found before; a new registration takes over only a name that nobody alive has
    have before {u : Task} (hu : s.task? i = some u) : s.lookup t.name = some i ∧ u.isTerminated = false := by
      have alive := e.wasLive run hu h live
      have name : t.name = u.name := congrArg Worker.name ((e.fate h).worker hu)
      exact ⟨name ▸ ih hu alive, alive⟩
    rcases e.registry with ⟨_, length, same⟩ | ⟨_, w, registered⟩
    · have old : i < s.tasks.length := length ▸ lt_of_task? h
      rw [same]
      exact (before (List.getElem?_eq_getElem old)).1
    · rw [lookup_supervise registered]
      have h' := h
      rw [task?_supervise registered] at h'
      split at h'
      next last =>
        cases h'
        rw [last]
        exact if_pos rfl
      next =>
        obtain ⟨found, alive⟩ := before h'
        have other : t.name ≠ w.name := by
          intro taken
          have free := isLive_of_supervise registered
          rw [← taken, isLive_of_lookup found h' alive] at free
          cases free
        rw [if_neg other, found]

theorem Run.isLive_iff (run : Run s past) : s.isLive name = true ↔ ∃ i, s.LiveUnder name i := by
  constructor
  · intro live
    obtain ⟨t, found, alive⟩ := (Option.any_eq_true _ _).1 live
    obtain ⟨i, hi, ht⟩ := Option.bind_eq_some_iff.1 found
    obtain ⟨u, hu, named⟩ := run.name_of_lookup hi
    cases hu.symm.trans ht
    exact ⟨i, t, ht, named, by simpa using alive⟩
  · rintro ⟨i, t, ht, rfl, alive⟩
    exact isLive_of_lookup (run.lookup_of_live ht alive) ht alive

/-- A name once registered stays in the registry. -/
theorem Effect.lookup_isSome (e : Effect s s') (h : (s.lookup name).isSome) : (s'.lookup name).isSome := by
  rcases e.registry with ⟨_, _, same⟩ | ⟨_, w, registered⟩
  · rwa [same]
  · rw [lookup_supervise registered]
    split
    · rfl
    · exact h

theorem Run.lookup_isSome (run : Run s past) {m : Supervisor} (hm : m ∈ past) (h : (m.lookup name).isSome) :
    (s.lookup name).isSome :=
  run.since (P := fun s => (s.lookup name).isSome) (fun _ _ e => e.lookup_isSome) hm h

/-- A worker is refused exactly when somebody alive has its name, and then neither the caller from outside nor the
unit that asked finds anything changed. -/
theorem one_live_per_name (run : Run s past) :
    (∀ name i j, s.LiveUnder name i → s.LiveUnder name j → i = j) ∧
    (∀ name i, s.LiveUnder name i → s.lookup name = some i) ∧
    (∀ w e, s.supervise w = .error e ↔ e = .duplicateName w.name ∧ ∃ i, s.LiveUnder w.name i) ∧
    (∀ (caller : Session) w e, caller.system.supervisor = s → s.supervise w = .error e →
      caller.supervise w = (.refused e, caller)) ∧
    (∀ (system : System) u w e, system.supervisor = s → s.supervise w = .error e →
      system.perform u (.supervise w) = some (system, .finish (some (.fail e.message)))) ∧
    ∀ m ∈ past, ∀ name, (m.lookup name).isSome → (s.lookup name).isSome := by
  have found {name : String} {i : TaskId} (h : s.LiveUnder name i) : s.lookup name = some i := by
    obtain ⟨t, ht, rfl, alive⟩ := h
    exact run.lookup_of_live ht alive
  refine ⟨fun name i j hi hj => ?_, fun name i => found, fun w e => ?_, ?_, ?_, fun m hm name => run.lookup_isSome hm⟩
  · exact Option.some.inj ((found hi).symm.trans (found hj))
  · rw [supervise_eq_error_iff, run.isLive_iff]
  · rintro caller w e rfl refused
    simp only [Session.supervise, refused]
  · rintro system u w e rfl refused
    simp only [System.perform, refused]

/-- A name used again once its task has succeeded. -/
def reused : List Act :=
  [.supervise { name := "a", task := "a" }, .actor 0 .proceed, .actor 0 .proceed,
    .work ⟨0, none⟩ (.ended (.returned none)), .actor 0 .proceed, .actor 0 .proceed,
    .supervise { name := "a", task := "b" }]

theorem one_live_per_name_reused : ∃ s past, Run s past ∧ s.isTerminated 0 = true ∧ s.LiveUnder "a" 1 ∧
    (∀ name i j, s.LiveUnder name i → s.LiveUnder name j → i = j) ∧
    (∀ name i, s.LiveUnder name i → s.lookup name = some i) ∧
    (∀ w e, s.supervise w = .error e ↔ e = .duplicateName w.name ∧ ∃ i, s.LiveUnder w.name i) ∧
    (∀ (caller : Session) w e, caller.system.supervisor = s → s.supervise w = .error e →
      caller.supervise w = (.refused e, caller)) ∧
    (∀ (system : System) u w e, system.supervisor = s → s.supervise w = .error e →
      system.perform u (.supervise w) = some (system, .finish (some (.fail e.message)))) ∧
    ∀ m ∈ past, ∀ name, (m.lookup name).isSome → (s.lookup name).isSome := by
  obtain ⟨s, past, run, h⟩ := exists_run
    (P := fun s => s.isTerminated 0 && (s.task? 1).any fun t => t.name = "a" && !t.isTerminated) reused
    (by decide +kernel)
  obtain ⟨finished, live⟩ := Bool.and_eq_true_iff.1 h
  obtain ⟨t, ht, live⟩ := (Option.any_eq_true _ _).1 live
  obtain ⟨named, alive⟩ := Bool.and_eq_true_iff.1 live
  exact ⟨s, past, run, finished, ⟨t, ht, of_decide_eq_true named, by simpa using alive⟩, one_live_per_name run⟩

end Switchyard.Supervisor
