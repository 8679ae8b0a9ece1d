import Switchyard.Proofs.Supervision.Names

/-!
The first part of a pass, in closed form: which of the wanted watchers it keeps and which it registers.
-/
namespace Switchyard

namespace Supervisor

variable {s s' : Supervisor} {i : TaskId} {past : List Supervisor} {n name : String} {w : Worker Action}

theorem isLive_of_lookup_eq_none (h : s.lookup n = none) : s.isLive n = false := by
  rw [isLive, lookupTask, h]
  rfl

theorem isLive_supervise (run : Run s past) (h : s.supervise w = .ok s') (other : n ≠ w.name) :
    s'.isLive n = s.isLive n := by
  have same : s'.lookup n = s.lookup n := by rw [lookup_supervise h, if_neg other]
  cases found : s.lookup n with
  | none => rw [isLive_of_lookup_eq_none found, isLive_of_lookup_eq_none (same.trans found)]
  | some i =>
    obtain ⟨t, ht, _⟩ := run.name_of_lookup found
    rw [isLive, isLive, lookupTask, lookupTask, same, found, Option.bind_some, Option.bind_some,
      task?_supervise h, if_neg (Nat.ne_of_lt (lt_of_task? ht))]

theorem lookup_stop : (s.stop name).2.lookup n = s.lookup n := by
  rcases stop_cases s name with same | ⟨i, t, _, amended⟩
  · rw [same]
  · rw [amended, lookup_amend]

/-- To be asked to stop is not to have ended. -/
theorem isLive_stop : (s.stop name).2.isLive n = s.isLive n := by
  rcases stop_cases s name with same | ⟨i, t, ht, amended⟩
  · rw [same]
  · rw [amended, isLive, isLive, lookupTask, lookupTask, lookup_amend]
    cases found : s.lookup n with
    | none => rfl
    | some j =>
      by_cases hj : j = i
      · rw [hj, Option.bind_some, Option.bind_some, task?_amend_self (lt_of_task? ht), ht]
        rfl
      · rw [Option.bind_some, Option.bind_some, task?_amend_of_ne hj]

end Supervisor

namespace Reconciler

open Supervisor

variable {watched : List String} {s s' s₀ : Supervisor} {past : List Supervisor} {specs before : List WatchSpec}
  {spec : WatchSpec} {report : ReconcileReport} {n : String}

/-- Under watch, and alive. -/
def isKept (watched : List String) (s : Supervisor) (n : String) : Bool := watched.contains n && s.isLive n

/-- The wanted names that are watched and alive, each where it is wanted first. -/
def toKeep (watched : List String) (s : Supervisor) (specs : List WatchSpec) : List String :=
  ((specs.map (·.watchName)).filter (isKept watched s)).eraseDups

/-- The other wanted names that some watcher can be made for, each where the first of these is. -/
def toStart (watched : List String) (s : Supervisor) (specs : List WatchSpec) : List String :=
  ((specs.filter fun spec => spec.make.isOk && !isKept watched s spec.watchName).map (·.watchName)).eraseDups

theorem mem_toKeep : n ∈ toKeep watched s specs ↔ n ∈ specs.map (·.watchName) ∧ isKept watched s n = true := by
  rw [toKeep, List.mem_eraseDups, List.mem_filter]

theorem mem_toStart : n ∈ toStart watched s specs ↔
    isKept watched s n = false ∧ ∃ spec ∈ specs, spec.watchName = n ∧ spec.make.isOk = true := by
  simp only [toStart, List.mem_eraseDups, List.mem_map, List.mem_filter, Bool.and_eq_true, Bool.not_eq_true']
  constructor
  · rintro ⟨spec, ⟨wanted, ok, unkept⟩, rfl⟩
    exact ⟨unkept, spec, wanted, rfl, ok⟩
  · rintro ⟨unkept, spec, wanted, rfl, ok⟩
    exact ⟨spec, ⟨wanted, ok, unkept⟩, rfl⟩

/-! ### One more wanted watcher -/

theorem eraseDups_concat (l : List String) (n : String) :
    (l ++ [n]).eraseDups = if n ∈ l then l.eraseDups else l.eraseDups ++ [n] := by
  rw [List.eraseDups_append, List.removeAll]
  by_cases h : n ∈ l
  · simp [h]
  · simp [h, List.eraseDups_cons]

theorem toKeep_concat : toKeep watched s (before ++ [spec]) =
    if isKept watched s spec.watchName && !(toKeep watched s before).contains spec.watchName then
      toKeep watched s before ++ [spec.watchName]
    else toKeep watched s before := by
  rw [toKeep, List.map_append, List.filter_append]
  cases kept : isKept watched s spec.watchName with
  | false => simp [kept, toKeep]
  | true =>
    have last : ([spec].map (·.watchName)).filter (isKept watched s) = [spec.watchName] := by simp [kept]
    rw [last, eraseDups_concat, toKeep]
    by_cases h : spec.watchName ∈ (before.map (·.watchName)).filter (isKept watched s)
    · simp [h]
    · simp [h]

theorem toStart_concat : toStart watched s (before ++ [spec]) =
    if spec.make.isOk && !isKept watched s spec.watchName && !(toStart watched s before).contains spec.watchName then
      toStart watched s before ++ [spec.watchName]
    else toStart watched s before := by
  rw [toStart, List.filter_append, List.map_append]
  cases fresh : spec.make.isOk && !isKept watched s spec.watchName with
  | false => simp [fresh, toStart]
  | true =>
    have last : ([spec].filter fun spec => spec.make.isOk && !isKept watched s spec.watchName).map (·.watchName) =
        [spec.watchName] := by simp [fresh]
    rw [last, eraseDups_concat, toStart, Bool.true_and]
    by_cases h : spec.watchName ∈
        (before.filter fun spec => spec.make.isOk && !isKept watched s spec.watchName).map (·.watchName)
    · simp [h]
    · simp [h]

/-! ### One wanted watcher after the other -/

/-- How a pass stands that found the supervisor at `s₀` and has taken up the watchers `before`. -/
structure Gathered (watched : List String) (s₀ : Supervisor) (before : List WatchSpec) (report : ReconcileReport)
    (s : Supervisor) : Prop where
  run : ∃ past, Run s past
  kept : report.kept = toKeep watched s₀ before
  started : report.started = toStart watched s₀ before
  known : ∀ n ∈ report.started, (s.lookup n).isSome
  live : ∀ n, n ∉ report.started → s.isLive n = s₀.isLive n

theorem Gathered.start (run : Run s past) : Gathered watched s [] {} s :=
  ⟨⟨past, run⟩, rfl, rfl, nofun, fun _ _ => rfl⟩

theorem Gathered.seen (g : Gathered watched s₀ before report s)
    (h : spec.watchName ∈ report.started ∨ spec.watchName ∈ report.kept) :
    Gathered watched s₀ (before ++ [spec]) report s := by
  refine ⟨g.run, ?_, ?_, g.known, g.live⟩
  · rw [g.kept, toKeep_concat]
    rcases h with h | h
    · have unkept := (mem_toStart.1 (g.started ▸ h)).1
      simp [unkept]
    · simp [← g.kept, h]
  · rw [g.started, toStart_concat]
    rcases h with h | h
    · simp [← g.started, h]
    · have kept := (mem_toKeep.1 (g.kept ▸ h)).2
      simp [kept]

theorem Gathered.keep (g : Gathered watched s₀ before report s) (new : spec.watchName ∉ report.kept)
    (kept : isKept watched s₀ spec.watchName = true) :
    Gathered watched s₀ (before ++ [spec]) { report with kept := report.kept ++ [spec.watchName] } s := by
  refine ⟨g.run, ?_, ?_, g.known, g.live⟩
  · rw [toKeep_concat, ← g.kept]
    simp [kept, new]
  · rw [g.started, toStart_concat]
    simp [kept]

theorem Gathered.skip {e : TaskError} (g : Gathered watched s₀ before report s) (unmade : spec.make = .error e)
    (unkept : isKept watched s₀ spec.watchName = false) : Gathered watched s₀ (before ++ [spec]) report s := by
  refine ⟨g.run, ?_, ?_, g.known, g.live⟩
  · rw [g.kept, toKeep_concat]
    simp [unkept]
  · rw [g.started, toStart_concat]
    simp [unmade, Except.isOk, Except.toBool]

theorem Gathered.supervise {w : Worker Action} (g : Gathered watched s₀ before report s) (made : spec.make = .ok w)
    (new : spec.watchName ∉ report.started) (unkept : isKept watched s₀ spec.watchName = false)
    (registered : s.supervise (w.named spec.watchName) = .ok s') :
    Gathered watched s₀ (before ++ [spec]) { report with started := report.started ++ [spec.watchName] } s' := by
  obtain ⟨past, run⟩ := g.run
  refine ⟨⟨_, run.move (act_supervise.2 registered)⟩, ?_, ?_, fun n hn => ?_, fun n hn => ?_⟩
  · rw [g.kept, toKeep_concat]
    simp [unkept]
  · rw [toStart_concat, ← g.started]
    simp [unkept, new, made, Except.isOk, Except.toBool]
  · rw [lookup_supervise registered]
    split
    next => rfl
    next other => exact g.known n ((List.mem_append.1 hn).resolve_right (by simpa [Worker.named] using other))
  · rw [List.mem_append, not_or, List.mem_singleton] at hn
    rw [isLive_supervise run registered hn.2, g.live n hn.1]

/-- A wanted watcher that is not kept can be registered, since nobody has its name: whoever lives under a wanted name
is under watch. -/
theorem gather_gathered (g : Gathered watched s₀ before report s)
    (owned : ∀ spec ∈ specs, s₀.isLive spec.watchName = true → spec.watchName ∈ watched) :
    Gathered watched s₀ (before ++ specs) (gather watched specs report s).1 (gather watched specs report s).2 := by
  induction specs generalizing before report s with
  | nil => rwa [List.append_nil]
  | cons spec specs ih =>
    obtain ⟨own, owned⟩ := List.forall_mem_cons.1 owned
    have rest {report : ReconcileReport} {s : Supervisor} (g : Gathered watched s₀ (before ++ [spec]) report s) :
        Gathered watched s₀ (before ++ spec :: specs) (gather watched specs report s).1
          (gather watched specs report s).2 := by
      have := ih g owned
      rwa [List.append_assoc] at this
    simp only [gather]
    split
    next seen => exact rest (g.seen (by simpa using seen))
    next unseen =>
      have new : spec.watchName ∉ report.started ∧ spec.watchName ∉ report.kept := by simpa using unseen
      have live : s.isLive spec.watchName = s₀.isLive spec.watchName := g.live _ new.1
      rw [live]
      split
      next kept => exact rest (g.keep new.2 kept)
      next unkept =>
        have unkept : isKept watched s₀ spec.watchName = false := Bool.eq_false_iff.2 unkept
        have dead : s₀.isLive spec.watchName = false := by
          refine Bool.eq_false_iff.2 fun alive => ?_
          simp [isKept, alive, own alive] at unkept
        split
        next unmade => exact rest (g.skip unmade unkept)
        next w made =>
          split
          next refused =>
            have alive := (supervise_eq_error_iff.1 refused).2
            rw [Worker.named, live, dead] at alive
            cases alive
          next registered => exact rest (g.supervise made new.1 unkept registered)

/-- Where all that is wanted is there, nobody is asked for anything. -/
theorem gather_of_isKept (h : ∀ spec ∈ specs, isKept watched s spec.watchName = true) :
    (gather watched specs report s).2 = s := by
  induction specs generalizing report with
  | nil => rfl
  | cons spec specs ih =>
    obtain ⟨kept, h⟩ := List.forall_mem_cons.1 h
    rw [isKept] at kept
    simp only [gather, kept, if_true]
    split
    next => exact ih h
    next => exact ih h

end Reconciler

end Switchyard
