import Mathlib.Data.List.Nodup
import Switchyard.Proofs.Supervision.History

/-!
The list of failures. Main statement: it has one entry for every task that terminated after a failure of its last
attempt, in the order in which the tasks terminated, and no other.
-/
namespace Switchyard

/-- A watch is over only when its unit is. -/
def SubUnit.Noted (u : SubUnit) : Prop := u.watch = .over → ∃ e, u.progress = .ended e

namespace Task

/-- The error with which the latest attempt has failed. -/
def failure? (t : Task) : Option TaskError :=
  match t.work with
  | .ended e => (t.attemptResult e.outcome).filter (!·.isCanceled)
  | .running _ => none

/-- No unit is left that could do anything. -/
def AtRest (t : Task) : Prop := (∃ e, t.work = .ended e) ∧ ∀ u ∈ t.subUnits, u.watch = .over

/-- How a failure is told. -/
def toldFailure (t : Task) (e : TaskError) : Event := .failed t.name t.attempt e.message

/-- What the failure of the latest attempt has to do with the phase and with the events told. -/
def Accounted (t : Task) (es : List Event) : Prop :=
  match t.phase with
  | .created | .blocked _ _ => t.AtRest ∧ t.failure? = none ∧ lastFailure es = none
  | .attempting | .stopping => lastFailure es = none
  | .draining o => lastFailure es = none ∧ ∃ e, t.work = .ended e ∧ e.outcome = o
  | .delayed _ e => t.AtRest ∧ t.failure? = some e ∧ lastFailure es = some (t.toldFailure e)
  | .done => t.AtRest ∧ lastFailure es = t.failure?.map t.toldFailure

end Task

namespace Supervisor

variable {s s' : Supervisor} {i k : TaskId} {t t' : Task} {es es' : List Event} {past : List Supervisor}
  {error : Option TaskError}

/-! ### Units -/

theorem noted_modify {us : List SubUnit} {j : Nat} {f : SubUnit → SubUnit} (noted : ∀ u ∈ us, u.Noted)
    (kept : ∀ u, us[j]? = some u → u.Noted → (f u).Noted) : ∀ u ∈ us.modify j f, u.Noted := by
  intro u hu
  obtain ⟨k, hk⟩ := List.mem_iff_getElem?.1 hu
  by_cases same : j = k
  · subst same
    rw [List.getElem?_modify_eq] at hk
    obtain ⟨v, hv, rfl⟩ := Option.map_eq_some_iff.1 hk
    exact kept v hv (noted v (List.mem_of_getElem? hv))
  · rw [List.getElem?_modify_ne _ _ same] at hk
    exact noted u (List.mem_of_getElem? hk)

theorem Goes.noted (g : Goes s i t t' es) (noted : ∀ u ∈ t.subUnits, u.Noted) : ∀ u ∈ t'.subUnits, u.Noted := by
  cases g with
  | start => exact nofun
  | attend => exact noted_modify noted fun u _ _ finished => nomatch finished
  | note h watching finished =>
    refine noted_modify noted fun u hu _ _ => ?_
    cases h.symm.trans hu
    exact ⟨_, finished⟩
  | spawn h script =>
    intro u hu
    rcases List.mem_append.1 hu with hu | hu
    · exact noted u hu
    · rw [List.mem_singleton.1 hu]
      exact nofun
  | @work sub w running p =>
    cases sub with
    | none => exact noted
    | some j =>
      refine noted_modify noted fun u hu noted finished => ?_
      obtain ⟨e, ended⟩ := noted finished
      obtain ⟨v, hv, progress⟩ := Option.bind_eq_some_iff.1 running
      cases hu.symm.trans hv
      rw [ended] at progress
      split at progress <;> cases progress
  | _ => exact noted

theorem Run.noted (run : Run s past) (h : s.task? i = some t) : ∀ u ∈ t.subUnits, u.Noted := by
  refine run.registrations (P := fun _ _ _ t => ∀ u ∈ t.subUnits, u.Noted) ?_ h
  intro s s' past i t' _ _ f ih
  cases f with
  | new => exact nofun
  | same h => exact ih _ h
  | goes h g => exact g.noted (ih _ h)
  | ends h d =>
    have noted := ih _ h
    cases d <;> exact noted

theorem atRest_of_drained {e : Ending} (work : t.work = .ended e) (drained : t.isDrained = true) : t.AtRest :=
  ⟨⟨e, work⟩, fun u hu => by simpa using List.all_eq_true.1 drained u hu⟩

theorem busy_of_running (noted : ∀ u ∈ t.subUnits, u.Noted) {sub : Option Nat} {w : Work}
    (running : t.unit? sub = some (.running w)) : ¬ t.AtRest := by
  intro rest
  cases sub with
  | none =>
    obtain ⟨e, work⟩ := rest.1
    rw [Task.unit?, work] at running
    cases running
  | some j =>
    obtain ⟨u, hu, progress⟩ := Option.bind_eq_some_iff.1 running
    have mem := List.mem_of_getElem? hu
    obtain ⟨e, finished⟩ := noted u mem (rest.2 u mem)
    rw [finished] at progress
    split at progress <;> cases progress

theorem busy_of_watch {j : Nat} {u : SubUnit} (h : t.subUnits[j]? = some u) (watch : u.watch ≠ .over) :
    ¬ t.AtRest :=
  fun rest => watch (rest.2 u (List.mem_of_getElem? h))

/-! ### The failure of the latest attempt -/

theorem failure?_of_result {e : Ending} {o : Outcome} (work : t.work = .ended e) (outcome : e.outcome = o) :
    t.failure? = (t.attemptResult o).filter (!·.isCanceled) := by
  rw [Task.failure?, work, ← outcome]

theorem failure?_of_error {e : Ending} {o : Outcome} {failure : TaskError} (work : t.work = .ended e)
    (outcome : e.outcome = o) (result : t.attemptResult o = some failure) (error : failure ≠ .canceled) :
    t.failure? = some failure := by
  rw [failure?_of_result work outcome, result]
  simp [TaskError.isCanceled, error]

/-- What a unit or a watch does leaves the account as it is. -/
theorem accounted_of_busy (a : t.Accounted es) (busy : ¬ t.AtRest) (phase : t'.phase = t.phase)
    (work : ∀ e, t.work = .ended e → t'.work = .ended e) (told : es'.foldl pendingFailure none = none) :
    t'.Accounted (es ++ es') := by
  unfold Task.Accounted at a ⊢
  rw [phase, lastFailure_append]
  split at a
  case h_1 => exact absurd a.1 busy
  case h_2 => exact absurd a.1 busy
  case h_3 => rwa [a]
  case h_4 => rwa [a]
  case h_5 =>
    obtain ⟨none, e, ended, outcome⟩ := a
    exact ⟨by rwa [none], e, work e ended, outcome⟩
  case h_6 => exact absurd a.1 busy
  case h_7 => exact absurd a.1 busy

theorem accounted_goes (a : t.Accounted es) (noted : ∀ u ∈ t.subUnits, u.Noted) (g : Goes s i t t' es') :
    t'.Accounted (es ++ es') := by
  cases g with
  | block h =>
    rw [Task.Accounted, h] at a
    obtain ⟨rest, unfailed, told⟩ := a
    exact ⟨rest, unfailed, by rw [lastFailure_append, told]; rfl⟩
  | pass h =>
    rw [Task.Accounted, h] at a
    rwa [List.append_nil]
  | park h =>
    rw [Task.Accounted, h] at a
    rwa [List.append_nil]
  | start =>
    have told : lastFailure (es ++ t.beginning) = none := by
      rw [lastFailure_append, Task.beginning, foldl_attempt_pendingFailure]
      rfl
    exact told
  | surface h =>
    rw [Task.Accounted, h] at a
    have told : lastFailure (es ++ [.shuttingDown t.name]) = none := by
      rw [lastFailure_append, a]
      rfl
    exact told
  | leave h work =>
    rw [List.append_nil]
    rw [Task.Accounted] at a
    rcases h with ⟨h, _⟩ | h
    · rw [h] at a
      exact ⟨a, _, work, rfl⟩
    · rw [h] at a
      exact ⟨a, _, work, rfl⟩
  | @retry o e h drained result error =>
    rw [Task.Accounted, h] at a
    obtain ⟨_, ending, work, outcome⟩ := a
    have failed := failure?_of_error work outcome result error
    exact ⟨atRest_of_drained work drained, failed, by rw [lastFailure_append]; rfl⟩
  | attend h idle =>
    have busy := busy_of_watch h (by simp [idle])
    exact accounted_of_busy a busy rfl (fun _ work => work) rfl
  | note h watching =>
    have busy := busy_of_watch h (by simp [watching])
    exact accounted_of_busy a busy rfl (fun _ work => work) rfl
  | stop =>
    rw [List.append_nil]
    exact a
  | ready running =>
    have busy := busy_of_running noted running
    exact accounted_of_busy a busy rfl (fun _ work => work) rfl
  | spawn running =>
    have busy := busy_of_running noted running
    exact accounted_of_busy a busy rfl (fun _ work => work) rfl
  | @work sub w running p =>
    have busy := busy_of_running noted running
    cases sub with
    | none =>
      refine accounted_of_busy a busy rfl (fun e work => ?_) rfl
      rw [Task.unit?, work] at running
      cases running
    | some j => exact accounted_of_busy a busy rfl (fun _ work => work) rfl

theorem accounted_ends (a : t.Accounted es) (d : Ends s i t t' es' error) :
    t'.failure? = error ∧ t'.Accounted (es ++ es') := by
  cases d with
  | unstarted h =>
    rw [Task.Accounted, h] at a
    obtain ⟨rest, unfailed, told⟩ := a
    refine ⟨unfailed, rest, ?_⟩
    have same : t.ended.failure? = none := unfailed
    rw [lastFailure_append, told, same]
    rfl
  | @undelayed time e h =>
    rw [Task.Accounted, h] at a
    obtain ⟨rest, failed, told⟩ := a
    refine ⟨failed, rest, ?_⟩
    have same : t.ended.failure? = some e := failed
    rw [lastFailure_append, told, same]
    rfl
  | finish h drained result =>
    rw [Task.Accounted, h] at a
    obtain ⟨told, ending, work, outcome⟩ := a
    have unfailed : t.failure? = none := by
      rw [failure?_of_result work outcome]
      rcases result with result | result
      · rw [result]
        rfl
      · rw [result]
        rfl
    have same : t.drained.ended.failure? = none := unfailed
    refine ⟨unfailed, atRest_of_drained work drained, ?_⟩
    rw [lastFailure_append, told, same]
    rfl
  | @fail o e h drained result canceled =>
    rw [Task.Accounted, h] at a
    obtain ⟨told, ending, work, outcome⟩ := a
    have failed := failure?_of_error work outcome result canceled
    have same : t.drained.ended.failure? = some e := failed
    refine ⟨failed, atRest_of_drained work drained, ?_⟩
    rw [lastFailure_append, same]
    rfl

theorem Run.accounted (run : Run s past) (h : s.task? i = some t) : t.Accounted (s.published i) := by
  refine run.registrations (P := fun s _ i t => t.Accounted (s.published i)) ?_ h
  intro s s' past i t' run _ f ih
  cases f with
  | new none told =>
    rw [told, run.published_of_none none]
    exact ⟨⟨⟨_, rfl⟩, nofun⟩, rfl, rfl⟩
  | same h told =>
    rw [told]
    exact ih _ h
  | goes h g told =>
    rw [told]
    exact accounted_goes (ih _ h) (run.noted h) g
  | ends h d told =>
    rw [told]
    exact (accounted_ends (ih _ h) d).2

/-! ### The order of the ends -/

/-- The registrations whose end has been told of, in that order. -/
def terminations (s : Supervisor) : List TaskId :=
  s.history.reverse.filterMap fun l => if l.published.event.kind = .taskTerminated then l.source else none

/-- What the list of failures should say of a registration that has terminated. -/
def failureOf (s : Supervisor) (i : TaskId) : Option (TaskId × Failure) :=
  (s.task? i).bind fun t => t.failure?.map fun e => (i, ⟨t.name, e⟩)

theorem mem_terminations : i ∈ s.terminations ↔ ∃ e ∈ s.published i, e.kind = .taskTerminated := by
  simp only [terminations, mem_published, List.mem_filterMap, List.mem_reverse, Option.ite_none_right_eq_some]
  constructor
  · rintro ⟨l, hl, kind, source⟩
    exact ⟨_, ⟨l, hl, source, rfl⟩, kind⟩
  · rintro ⟨_, ⟨l, hl, source, rfl⟩, kind⟩
    exact ⟨l, hl, kind, source⟩

theorem terminations_amend : (s.amend i t es).terminations =
    s.terminations ++ (es.filter (·.kind = .taskTerminated)).map fun _ => i := by
  have ends (r : Supervisor) : (r.entries i es).filterMap
      (fun l => if l.published.event.kind = .taskTerminated then l.source else none) =
        (es.filter (·.kind = .taskTerminated)).map fun _ => i := by
    induction es generalizing r with
    | nil => rfl
    | cons e es ih =>
      rw [entries_cons]
      by_cases finished : e.kind = .taskTerminated
      · simp [finished, ih]
      · simp [finished, ih]
  rw [terminations, history_amend, List.reverse_append, List.reverse_reverse, List.filterMap_append, ends,
    terminations]

theorem Goes.not_over (g : Goes s i t t' es) : es.filter (·.kind = .taskTerminated) = [] := by
  cases g with
  | start => simp [Task.beginning, Course.attempt, Event.starting, Event.running, Event.ready]
  | _ => rfl

theorem Ends.over (d : Ends s i t t' es error) :
    es.filter (·.kind = .taskTerminated) = [.terminated t.name] := by
  cases d <;> rfl

/-- A move ends one task, or leaves both lists as they are. -/
theorem Effect.ends_or (e : Effect s s') :
    (s'.terminations = s.terminations ∧ s'.failures = s.failures) ∨
      ∃ (i : TaskId) (t t' : Task) (es : List Event) (error : Option TaskError), s.task? i = some t ∧
        s'.task? i = some t' ∧ Ends s i t t' es error ∧ s'.terminations = s.terminations ++ [i] ∧
        s'.failures = s.failures ++ (error.map fun e => RecordedFailure.mk i s.now ⟨t.name, e⟩).toList := by
  cases e with
  | goes h g =>
    left
    rw [terminations_amend, g.not_over, failures_amend]
    exact ⟨List.append_nil _, rfl⟩
  | @ends i t t' es error h d =>
    have told : (s.amend i t' es).terminations = s.terminations ++ [i] := by
      rw [terminations_amend, d.over]
      rfl
    refine .inr ⟨i, t, t', es, error, h, task?_amend_self (lt_of_task? h), d, told, ?_⟩
    simp only [retire, failures_amend, now_amend, Option.map_map]
    rfl
  | supervise h =>
    left
    rw [supervise_eq h]
    simp [terminations, Event.added]
  | shutdown down =>
    left
    rw [shutdown_eq down]
    simp [terminations, publish]
  | aside => exact .inl ⟨rfl, rfl⟩

/-- The end is told of exactly when it has come. -/
theorem Run.told_terminated (run : Run s past) (h : s.task? i = some t) :
    (∃ e ∈ s.published i, e.kind = .taskTerminated) ↔ t.phase = .done := by
  refine run.registrations
    (P := fun s _ i t => (∃ e ∈ s.published i, e.kind = .taskTerminated) ↔ t.phase = .done) ?_ h
  intro s s' past i t' run _ f ih
  cases f with
  | new none told => simp [told, run.published_of_none none, Event.added]
  | same h told => rw [told, ih _ h]
  | @goes t t' es h g told =>
    have none : ∀ e ∈ es, ¬ e.kind = .taskTerminated := by simpa using g.not_over
    rw [told, g.done_iff, ← ih _ h]
    constructor
    · rintro ⟨e, he, kind⟩
      exact ⟨e, (List.mem_append.1 he).resolve_right fun he => none e he kind, kind⟩
    · rintro ⟨e, he, kind⟩
      exact ⟨e, List.mem_append_left _ he, kind⟩
  | @ends t t' es error h d told =>
    have mem : Event.terminated t.name ∈ es.filter (·.kind = .taskTerminated) := by simp [d.over]
    rw [told, d.done.1]
    exact ⟨fun _ => rfl, fun _ => ⟨_, List.mem_append_right _ (List.mem_filter.1 mem).1, rfl⟩⟩

theorem Run.mem_terminations_iff (run : Run s past) :
    i ∈ s.terminations ↔ ∃ t, s.task? i = some t ∧ t.phase = .done := by
  rw [mem_terminations]
  constructor
  · intro h
    cases ht : s.task? i with
    | none => simp [run.published_of_none ht] at h
    | some t => exact ⟨t, rfl, (run.told_terminated ht).1 h⟩
  · rintro ⟨t, ht, done⟩
    exact (run.told_terminated ht).2 done

/-- Nobody but the loop touches a task at rest, and of its latest failure nothing changes until it starts anew. -/
theorem Goes.of_atRest (g : Goes s i t t' es) (rest : t.AtRest) (noted : ∀ u ∈ t.subUnits, u.Noted) :
    t'.AtRest ∧ t'.failure? = t.failure? ∨ s.Unblocked t.phase ∧ ∃ e ∈ es, e.kind = .taskStarting := by
  cases g with
  | start unblocked =>
    refine .inr ⟨unblocked, .starting t.name (t.attempt + 1), ?_, rfl⟩
    rw [Task.beginning, Course.attempt]
    simp
  | attend h idle => exact absurd rest (busy_of_watch h (by simp [idle]))
  | note h watching => exact absurd rest (busy_of_watch h (by simp [watching]))
  | ready running => exact absurd rest (busy_of_running noted running)
  | spawn running => exact absurd rest (busy_of_running noted running)
  | work running => exact absurd rest (busy_of_running noted running)
  | _ => exact .inl ⟨rest, rfl⟩

theorem Ends.of_atRest (d : Ends s i t t' es error) (rest : t.AtRest) : t'.AtRest ∧ t'.failure? = t.failure? := by
  cases d <;> exact ⟨rest, rfl⟩

/-- What is to be said of a task that has terminated does not change any more. -/
theorem Run.failureOf_kept (run : Run s past) (e : Effect s s') (h : s.task? i = some t) (done : t.phase = .done) :
    s'.failureOf i = s.failureOf i := by
  obtain ⟨t', ht'⟩ := e.task? h
  have failure : t'.failure? = t.failure? := by
    rcases (e.fate ht').of_task? h with rfl | ⟨_, g⟩ | ⟨_, _, d⟩
    · rfl
    · have account := run.accounted h
      rw [Task.Accounted, done] at account
      rcases g.of_atRest account.1 (run.noted h) with ⟨_, same⟩ | ⟨unblocked, _⟩
      · exact same
      · rw [done] at unblocked
        cases unblocked
    · exact absurd done d.not_done
  simp only [failureOf, h, ht', Option.bind_some, failure, Task.name, (e.fate ht').worker h]

theorem Run.failures_eq (run : Run s past) :
    s.failures.map (fun f => (f.source, f.failure)) = s.terminations.filterMap s.failureOf ∧
      s.terminations.Nodup := by
  induction run with
  | start => exact ⟨rfl, List.nodup_nil⟩
  | @move s s' past run _ m ih =>
    have e := act_effect m
    obtain ⟨recorded, distinct⟩ := ih
    -- whoever has ended before is out of reach of the move
    have kept : s.terminations.filterMap s'.failureOf = s.terminations.filterMap s.failureOf := by
      refine List.filterMap_congr fun i hi => ?_
      obtain ⟨t, ht, done⟩ := run.mem_terminations_iff.1 hi
      exact run.failureOf_kept e ht done
    rcases e.ends_or with ⟨finished, failures⟩ | ⟨i, t, t', es, error, ht, ht', d, finished, failures⟩
    · rw [finished, failures, kept]
      exact ⟨recorded, distinct⟩
    · -- the task that ends now has not ended before, and its entry is the one appended
      have fresh : i ∉ s.terminations := by
        intro hi
        obtain ⟨u, hu, done⟩ := run.mem_terminations_iff.1 hi
        cases ht.symm.trans hu
        exact d.not_done done
      have entry : s'.failureOf i = error.map fun e => (i, ⟨t.name, e⟩) := by
        rw [failureOf, ht', Option.bind_some, (accounted_ends (run.accounted ht) d).1, Task.name, d.worker]
        rfl
      rw [finished, failures, List.map_append, List.filterMap_append, recorded, kept]
      refine ⟨?_, ?_⟩
      · rw [List.filterMap_cons, entry]
        cases error <;> rfl
      · rw [List.nodup_append_comm]
        exact List.nodup_cons.2 ⟨fresh, distinct⟩

/-- A failure listed for a registration is the one with which it has terminated. -/
theorem Run.listed_iff (run : Run s past) (h : s.task? i = some t) {f : Failure} :
    (∃ r ∈ s.failures, r.source = i ∧ r.failure = f) ↔
      t.phase = .done ∧ ∃ e, t.failure? = some e ∧ f = ⟨t.name, e⟩ := by
  have listed : (∃ r ∈ s.failures, r.source = i ∧ r.failure = f) ↔
      (i, f) ∈ s.terminations.filterMap s.failureOf := by
    rw [← run.failures_eq.1, List.mem_map]
    simp only [Prod.mk.injEq]
  rw [listed, List.mem_filterMap]
  constructor
  · rintro ⟨k, ended, said⟩
    obtain ⟨u, hu, done⟩ := run.mem_terminations_iff.1 ended
    rw [failureOf, hu, Option.bind_some] at said
    obtain ⟨e, failed, said⟩ := Option.map_eq_some_iff.1 said
    obtain ⟨rfl, rfl⟩ := Prod.mk.inj said
    cases hu.symm.trans h
    exact ⟨done, e, failed, rfl⟩
  · rintro ⟨done, e, failed, rfl⟩
    refine ⟨i, run.mem_terminations_iff.2 ⟨t, h, done⟩, ?_⟩
    rw [failureOf, h, Option.bind_some, failed]
    rfl

/-- The failures are those of the tasks that terminated after a failure told since their last start, in the order of
their ends; each entry carries the name of the task and the error of its last attempt, which is the reason told. -/
theorem failures_of_terminations (run : Run s past) :
    s.failures.map (·.source) = s.terminations.filter (fun i => (lastFailure (s.published i)).isSome) ∧
    s.terminations.Nodup ∧
    (∀ i, i ∈ s.terminations ↔ s.isTerminated i = true) ∧
    (∀ f ∈ s.failures, ∃ t, s.task? f.source = some t ∧ f.failure.task = t.name ∧
      t.failure? = some f.failure.error ∧
      lastFailure (s.published f.source) = some (.failed t.name t.attempt f.failure.error.message)) ∧
    ∀ i t, s.task? i = some t → t.isTerminated = true →
      lastFailure (s.published i) = t.failure?.map fun e => .failed t.name t.attempt e.message := by
  obtain ⟨recorded, distinct⟩ := run.failures_eq
  have told {i : TaskId} {t : Task} (ht : s.task? i = some t) (done : t.phase = .done) :
      lastFailure (s.published i) = t.failure?.map t.toldFailure := by
    have account := run.accounted ht
    rw [Task.Accounted, done] at account
    exact account.2
  have finished {i : TaskId} {t : Task} (ht : s.task? i = some t) : t.isTerminated = true ↔ t.phase = .done := by
    rw [← terminated_iff_done (run.chronicle ht), Task.isTerminated, TaskState.isTerminal, decide_eq_true_iff]
  have entry {i : TaskId} (hi : i ∈ s.terminations) :
      (s.failureOf i).map Prod.fst = if (lastFailure (s.published i)).isSome then some i else none := by
    obtain ⟨t, ht, done⟩ := run.mem_terminations_iff.1 hi
    rw [told ht done, failureOf, ht, Option.bind_some]
    cases t.failure? <;> rfl
  refine ⟨?_, distinct, fun i => ?_, fun f hf => ?_, fun i t ht done => told ht ((finished ht).1 done)⟩
  · have sources := congrArg (List.map Prod.fst) recorded
    rw [List.map_map, List.map_filterMap, List.filterMap_congr fun i => entry] at sources
    rw [← List.filterMap_eq_filter]
    exact sources
  · rw [run.mem_terminations_iff, isTerminated, Option.any_eq_true]
    exact exists_congr fun t => and_congr_right fun ht => (finished ht).symm
  · have mem : (f.source, f.failure) ∈ s.terminations.filterMap s.failureOf := recorded ▸ List.mem_map_of_mem hf
    obtain ⟨i, hi, said⟩ := List.mem_filterMap.1 mem
    obtain ⟨t, ht, done⟩ := run.mem_terminations_iff.1 hi
    rw [failureOf, ht, Option.bind_some] at said
    obtain ⟨e, failure, said⟩ := Option.map_eq_some_iff.1 said
    obtain ⟨rfl, failed⟩ := Prod.mk.inj said
    rw [← failed]
    refine ⟨t, ht, rfl, failure, ?_⟩
    rw [told ht done, failure]
    rfl

/-- Of two tasks the second one ends first, by a panic; the first one has failed, and is asked to stop in the delay
before its second attempt. A third one succeeds. -/
def mixed : List Act :=
  [.supervise { name := "a", task := "a", retries := true }, .supervise { name := "b", task := "b" },
    .supervise { name := "c", task := "c" }, .actor 0 .proceed, .actor 0 .proceed, .actor 1 .proceed,
    .actor 1 .proceed, .actor 2 .proceed, .actor 2 .proceed,
    .work ⟨0, none⟩ (.ended (.returned (some (.fail "e")))), .actor 0 .proceed, .actor 0 .proceed,
    .work ⟨1, none⟩ (.ended (.panicked "p")), .actor 1 .proceed, .actor 1 .proceed,
    .work ⟨2, none⟩ (.ended (.returned none)), .actor 2 .proceed, .actor 2 .proceed, .stop "a", .actor 0 .cancel]

theorem failures_of_terminations_mixed : ∃ s past, Run s past ∧
    s.failureList = [⟨"b", .panicked "p"⟩, ⟨"a", .fail "e"⟩] ∧
    s.failures.map (·.source) = s.terminations.filter (fun i => (lastFailure (s.published i)).isSome) ∧
    s.terminations.Nodup ∧
    (∀ i, i ∈ s.terminations ↔ s.isTerminated i = true) ∧
    (∀ f ∈ s.failures, ∃ t, s.task? f.source = some t ∧ f.failure.task = t.name ∧
      t.failure? = some f.failure.error ∧
      lastFailure (s.published f.source) = some (.failed t.name t.attempt f.failure.error.message)) ∧
    ∀ i t, s.task? i = some t → t.isTerminated = true →
      lastFailure (s.published i) = t.failure?.map fun e => .failed t.name t.attempt e.message := by
  obtain ⟨s, past, run, h⟩ := exists_run
    (P := fun s => s.failureList = [⟨"b", .panicked "p"⟩, ⟨"a", .fail "e"⟩]) mixed (by decide +kernel)
  exact ⟨s, past, run, of_decide_eq_true h, failures_of_terminations run⟩

end Supervisor

end Switchyard
