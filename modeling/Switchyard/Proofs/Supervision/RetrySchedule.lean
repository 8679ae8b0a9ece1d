import Switchyard.Proofs.Supervision.Failures
import Switchyard.Proofs.Supervision.Pacing
import Switchyard.Proofs.Supervision.Promptness

/-!
When a task is tried again. Main statement: what follows a failed attempt, at which time and after which delay, in every
run in which time waits for the supervisor.
-/
namespace Switchyard.Supervisor

variable {s s' : Supervisor} {i : TaskId} {t t' : Task} {es : List Event} {past : List Supervisor} {k due : Nat}
  {reason : String} {later : List Published}

/-- The list of failures says that registration `i` has failed. -/
def Recorded (s : Supervisor) (i : TaskId) (name reason : String) : Prop :=
  ∃ f ∈ s.failures, f.source = i ∧ f.failure.task = name ∧ f.failure.error.message = reason

/-- What stands behind the delay after attempt `k`: nothing while it lasts; the next attempt, exactly when it is over,
if the task was not asked to stop at an earlier instant; or the end, if it was asked to stop by then. -/
def Resumed (s : Supervisor) (past : List Supervisor) (i : TaskId) (t : Task) (k due : Nat) (reason : String) :
    List Published → Prop
  | [] => (∃ e, t.phase = .delayed due e ∧ e.message = reason) ∧ t.attempt = k ∧ s.Waiting past i due
  | p :: rest =>
    p.event = .starting t.name (k + 1) ∧ p.time = due ∧ due ≤ s.now ∧
        (∀ m ∈ past, m.now < due → m.isCancelled i = false) ∨
      p.event = .terminated t.name ∧ rest = [] ∧ p.time ≤ due ∧ s.isCancelled i = true ∧ s.Recorded i t.name reason

/-- What stands behind the failure of attempt `k` of a task that retries: a delay, scheduled at the same time; or the
end, if the task had been asked to stop. -/
def Followed (s : Supervisor) (past : List Supervisor) (i : TaskId) (t : Task) (k time : Nat) (delay : Duration)
    (reason : String) : List Published → Prop
  | [] => False
  | q :: later => q.time = time ∧
      (q.event = .backoff t.name k (shownMillis delay) reason ∧
          s.Resumed past i t k (time + delay.ceilMillis) reason later ∨
        q.event = .terminated t.name ∧ later = [] ∧ (t.worker.retries = true → s.isCancelled i = true) ∧
          s.Recorded i t.name reason)

theorem Effect.recorded (e : Effect s s') {name : String} (h : s.Recorded i name reason) :
    s'.Recorded i name reason := by
  obtain ⟨f, hf, said⟩ := h
  rcases e.ends_or with ⟨_, same⟩ | ⟨_, _, _, _, _, _, _, _, _, appended⟩
  · exact ⟨f, same ▸ hf, said⟩
  · exact ⟨f, appended ▸ List.mem_append_left _ hf, said⟩

theorem Run.recorded (run : Run s past) (ht : s.task? i = some t) (done : t.phase = .done) {e : TaskError}
    (failure : t.failure? = some e) : s.Recorded i t.name e.message := by
  obtain ⟨f, hf, source, failure⟩ := (run.listed_iff ht).2 ⟨done, e, failure, rfl⟩
  exact ⟨f, hf, source, by rw [failure], by rw [failure]⟩

/-- A task that has ended tells nothing more. -/
theorem Goes.silent (g : Goes s i t t' es) (done : t.phase = .done) (state : t.state ≠ .running) : es = [] := by
  cases g with
  | block h => exact nomatch h.symm.trans done
  | start h => rw [done] at h; cases h
  | surface h => exact nomatch h.symm.trans done
  | retry h => exact nomatch h.symm.trans done
  | ready _ running => exact absurd running state
  | _ => rfl

theorem failed_not_mem_beginning {e : Event} (failed : e.kind = .taskFailed) : e ∉ t.beginning := by
  intro h
  simp only [Task.beginning, Course.attempt, List.cons_append, List.nil_append, List.mem_cons] at h
  rcases h with rfl | rfl | h
  · cases failed
  · cases failed
  · split at h
    · cases List.mem_singleton.1 h
      cases failed
    · cases h

theorem failed_not_mem_singleton {e e' : Event} (failed : e.kind = .taskFailed) (other : e'.kind ≠ .taskFailed) :
    e ∉ [e'] := fun h => other (List.mem_singleton.1 h ▸ failed)

/-- A failure that is not the end comes with the delay. -/
theorem Goes.of_told_failed (g : Goes s i t t' es) {e : Event} (h : e ∈ es) (failed : e.kind = .taskFailed) :
    ∃ o error, t.phase = .draining o ∧ s.isCancelled i = false ∧
      t' = t.delayedBy (s.backoff.next t.delayBefore) (s.now + (s.backoff.next t.delayBefore).ceilMillis) error ∧
      es = [.failed t.name t.attempt error.message,
        .backoff t.name t.attempt (shownMillis (s.backoff.next t.delayBefore)) error.message] := by
  cases g with
  | @retry o error draining _ _ _ _ alive => exact ⟨o, error, draining, alive, rfl, rfl⟩
  | start => exact absurd h (failed_not_mem_beginning failed)
  | block => exact absurd h (failed_not_mem_singleton failed nofun)
  | surface => exact absurd h (failed_not_mem_singleton failed nofun)
  | ready => exact absurd h (failed_not_mem_singleton failed nofun)
  | _ => cases h

/-- The loop of a task in a delay waits for the end of the delay. -/
theorem Goes.of_delayed (g : Goes s i t t' es) {e : TaskError} (phase : t.phase = .delayed due e)
    (state : t.state ≠ .running) :
    due ≤ s.now ∧ es = t.beginning ∨ t'.phase = t.phase ∧ t'.attempt = t.attempt ∧ es = [] := by
  cases g with
  | start h =>
    rw [phase] at h
    cases h with
    | due h => exact .inl ⟨h, rfl⟩
  | block h => exact nomatch h.symm.trans phase
  | pass h => exact nomatch h.symm.trans phase
  | park h => exact nomatch h.symm.trans phase
  | surface h => exact nomatch h.symm.trans phase
  | leave h =>
    rw [phase] at h
    exact h.elim (fun h => nomatch h.1) nofun
  | retry h => exact nomatch h.symm.trans phase
  | ready _ running => exact absurd running state
  | @work sub => cases sub <;> exact .inr ⟨rfl, rfl, rfl⟩
  | _ => exact .inr ⟨rfl, rfl, rfl⟩

theorem Ends.of_delayed {error : Option TaskError} (d : Ends s i t t' es error) {e : TaskError}
    (phase : t.phase = .delayed due e) : s.isCancelled i = true ∧ error = some e ∧ es = [.terminated t.name] := by
  cases d with
  | undelayed h stop =>
    cases h.symm.trans phase
    exact ⟨stop, rfl, rfl⟩
  | unstarted h => exact nomatch h.symm.trans phase
  | finish h => exact nomatch h.symm.trans phase
  | fail h => exact nomatch h.symm.trans phase

theorem Ends.of_told_failed {error : Option TaskError} (d : Ends s i t t' es error) {e : Event} (h : e ∈ es)
    (failed : e.kind = .taskFailed) :
    ∃ e', error = some e' ∧ es = [.failed t.name t.attempt e'.message, .terminated t.name] ∧
      (t.worker.retries = false ∨ s.isCancelled i = true) := by
  cases d with
  | fail _ _ _ _ final => exact ⟨_, rfl, rfl, final⟩
  | unstarted => exact absurd h (failed_not_mem_singleton failed nofun)
  | undelayed => exact absurd h (failed_not_mem_singleton failed nofun)
  | finish => exact absurd h (failed_not_mem_singleton failed nofun)

/-- Of two events told, the failure is the first if it is not the second. -/
theorem first_told {news front after : List Published} {f : Published} {e e' : Event}
    (told : news.map (·.event) = [e, e']) (split : news = front ++ f :: after) (failed : f.event.kind = .taskFailed)
    (other : e'.kind ≠ .taskFailed) : front = [] ∧ f.event = e ∧ ∃ q, after = [q] ∧ q.event = e' := by
  subst split
  cases front with
  | nil =>
    obtain ⟨event, rest⟩ := List.cons.inj told
    obtain ⟨q, none, rfl, same, empty⟩ := List.map_eq_cons_iff.1 rest
    rw [List.map_eq_nil_iff.1 empty]
    exact ⟨rfl, event, q, rfl, same⟩
  | cons p front =>
    have rest := (List.cons.inj told).2
    cases front with
    | nil =>
      have event : f.event = e' := (List.cons.inj rest).1
      rw [event] at failed
      exact absurd failed other
    | cons p' front => simp at rest

theorem append_eq_append_cons {l l' front after : List Published} {f : Published}
    (h : l ++ l' = front ++ f :: after) :
    (∃ before, l = front ++ f :: before ∧ after = before ++ l') ∨
      ∃ added, front = l ++ added ∧ l' = added ++ f :: after := by
  rcases List.append_eq_append_iff.1 h with ⟨added, rfl, rest⟩ | ⟨rest, rfl, split⟩
  · exact .inr ⟨added, rfl, rest⟩
  · cases rest with
    | nil => exact .inr ⟨[], by simp, split.symm⟩
    | cons g before =>
      obtain ⟨rfl, rfl⟩ := List.cons.inj split
      exact .inl ⟨before, rfl, rfl⟩

section move
variable {a : Act} {news : List Published} (run : Run s past) (m : s.act a = some s') (timely : Timely s s')
  (ht : s.task? i = some t) (ht' : s'.task? i = some t') (times : ∀ p ∈ news, p.time = s.now)
  (course : t' = t ∧ news = [] ∨ s'.now = s.now ∧ (Goes s i t t' (news.map (·.event)) ∨
    ∃ error, Ends s i t t' (news.map (·.event)) error))

include run ht course in
theorem silent_of_terminated (h : ∃ e ∈ s.published i, e.kind = .taskTerminated) : news = [] := by
  have done := (run.told_terminated ht).1 h
  have state : t.state ≠ .running := by
    rw [(terminated_iff_done (run.chronicle ht)).2 done]
    exact nofun
  rcases course with ⟨_, none⟩ | ⟨_, g | ⟨_, d⟩⟩
  · exact none
  · exact List.map_eq_nil_iff.1 (g.silent done state)
  · exact absurd done d.not_done

include run m timely ht ht' times course in
theorem Resumed.move (r : s.Resumed past i t k due reason later)
    (old : ∀ p ∈ later, p.event ∈ s.published i) : s'.Resumed (s :: past) i t' k due reason (later ++ news) := by
  have e := act_effect m
  have name : t'.name = t.name := congrArg Worker.name ((e.fate ht').worker ht)
  cases later with
  | cons p rest =>
    rcases r with ⟨event, time, passed, unasked⟩ | ⟨event, rfl, time, stop, recorded⟩
    · refine .inl ⟨name ▸ event, time, Nat.le_trans passed e.now_le, fun m hm before => ?_⟩
      rcases List.mem_cons.1 hm with rfl | hm
      · exact absurd (Nat.lt_of_lt_of_le before passed) (Nat.lt_irrefl _)
      · exact unasked m hm before
    · have silent := silent_of_terminated run ht course ⟨_, old p List.mem_cons_self, by rw [event]; rfl⟩
      exact .inr ⟨name ▸ event, silent, time, e.isCancelled stop, name ▸ e.recorded recorded⟩
  | nil =>
    obtain ⟨⟨error, phase, message⟩, attempt, waiting⟩ := r
    have waiting' := waiting.move run e timely ht phase
    have state := run.not_running_of_delayed ht phase
    rcases course with ⟨rfl, rfl⟩ | ⟨now, g | ⟨_, d⟩⟩
    · exact ⟨⟨error, phase, message⟩, attempt, waiting'⟩
    · rcases g.of_delayed phase state with ⟨passed, begins⟩ | ⟨kept, same, silent⟩
      · obtain ⟨p, rest, rfl, event, _⟩ := List.map_eq_cons_iff.1 begins
        have exactly : due = s.now := Nat.le_antisymm passed waiting.1
        refine .inl ⟨?_, (times p List.mem_cons_self).trans exactly.symm, ?_, fun m hm before => ?_⟩
        · rw [event, name, attempt]
        · rw [now]
          exact passed
        · rcases List.mem_cons.1 hm with rfl | hm
          · exact absurd before (Nat.not_lt.2 passed)
          · exact waiting.2 m hm (exactly ▸ before)
      · rw [List.map_eq_nil_iff.1 silent]
        exact ⟨⟨error, kept.trans phase, message⟩, same.trans attempt, waiting'⟩
    · obtain ⟨stop, rfl, last⟩ := d.of_delayed phase
      obtain ⟨p, rest, rfl, event, none⟩ := List.map_eq_cons_iff.1 last
      have failure := (accounted_ends (run.accounted ht) d).1
      have recorded := (run.move m).recorded ht' d.done.1 failure
      refine .inr ⟨event.trans (name ▸ rfl), List.map_eq_nil_iff.1 none, ?_, e.isCancelled stop, message ▸ recorded⟩
      rw [times p List.mem_cons_self]
      exact waiting.1

include run m timely ht ht' times course in
theorem Followed.move {time : Nat} {delay : Duration} {after : List Published}
    (r : s.Followed past i t k time delay reason after) (old : ∀ p ∈ after, p.event ∈ s.published i) :
    s'.Followed (s :: past) i t' k time delay reason (after ++ news) := by
  have e := act_effect m
  have worker := (e.fate ht').worker ht
  have name : t'.name = t.name := congrArg Worker.name worker
  cases after with
  | nil => exact r.elim
  | cons q later =>
    obtain ⟨same, ⟨event, resumed⟩ | ⟨event, rfl, stop, recorded⟩⟩ := r
    · have old := fun p hp => old p (List.mem_cons_of_mem q hp)
      exact ⟨same, .inl ⟨name ▸ event, resumed.move run m timely ht ht' times course old⟩⟩
    · have silent := silent_of_terminated run ht course ⟨_, old q List.mem_cons_self, by rw [event]; rfl⟩
      exact ⟨same, .inr ⟨name ▸ event, silent, fun retries => e.isCancelled (stop (worker ▸ retries)),
        name ▸ e.recorded recorded⟩⟩

include run m ht ht' times course in
/-- A failure told in this move. -/
theorem followed_told {front after : List Published} {f : Published} (split : news = front ++ f :: after)
    (failed : f.event.kind = .taskFailed) :
    front = [] ∧ ∃ k reason, f.event = .failed t'.name k reason ∧
      s'.Followed (s :: past) i t' k f.time
        (s.backoff.nth (k - growingSince t.worker.readiness (s.published i))) reason after := by
  have e := act_effect m
  have worker := (e.fate ht').worker ht
  have name : t'.name = t.name := congrArg Worker.name worker
  have mem : f ∈ news := split ▸ List.mem_append_right _ List.mem_cons_self
  have now := times f mem
  rcases course with ⟨_, rfl⟩ | ⟨same, g | ⟨error, d⟩⟩
  · cases mem
  · obtain ⟨o, error, phase, alive, rfl, events⟩ := g.of_told_failed (List.mem_map_of_mem mem) failed
    obtain ⟨rfl, event, q, rfl, scheduled⟩ := first_told events split failed (by simp [Event.backoff])
    have paced := run.paced ht
    rw [Task.Paced, phase] at paced
    have delay : s.backoff.next t.delayBefore =
        s.backoff.nth (t.attempt - growingSince t.worker.readiness (s.published i)) := by
      rw [paced.2.2, Backoff.next_before]
    have again : q.time = f.time := (times q (by simp [split])).trans now.symm
    have within : s'.now ≤ f.time + (s.backoff.next t.delayBefore).ceilMillis := by
      rw [same, now]
      exact Nat.le_add_right _ _
    refine ⟨rfl, t.attempt, error.message, event, again, .inl ⟨?_, ⟨error, ?_, rfl⟩, rfl, ?_⟩⟩
    · rw [← delay]
      exact scheduled
    · rw [← delay, now]
      rfl
    · rw [← delay]
      exact .begin run alive within
  · obtain ⟨e', rfl, events, final⟩ := d.of_told_failed (List.mem_map_of_mem mem) failed
    obtain ⟨rfl, event, q, rfl, last⟩ := first_told events split failed (by simp [Event.terminated])
    have again : q.time = f.time := (times q (by simp [split])).trans now.symm
    have failure := (accounted_ends (run.accounted ht) d).1
    refine ⟨rfl, t.attempt, e'.message, name ▸ event, again, .inr ⟨name ▸ last, rfl, fun retries => ?_, ?_⟩⟩
    · rw [worker] at retries
      exact e.isCancelled (final.resolve_left fun once => absurd (once.symm.trans retries) Bool.noConfusion)
    · exact (run.move m).recorded ht' d.done.1 failure

end move

theorem Prompt.followed (run : Prompt s past) (ht : s.task? i = some t) {front after : List Published} {f : Published}
    (split : s.told i = front ++ f :: after) (failed : f.event.kind = .taskFailed) :
    ∃ k reason, f.event = .failed t.name k reason ∧
      s.Followed past i t k f.time
        (s.backoff.nth (k - growingSince t.worker.readiness (front.map (·.event)))) reason after := by
  induction run generalizing t front after with
  | start => cases ht
  | @move s s' past prompt a m timely ih =>
    have run := prompt.run
    have e := act_effect m
    rw [e.backoff]
    cases hu : s.task? i with
    | none =>
      have mem : f.event ∈ s'.published i := by
        rw [← map_event_told, split]
        exact List.mem_map_of_mem (List.mem_append_right _ List.mem_cons_self)
      cases e.fate ht with
      | new _ told =>
        rw [told, run.published_of_none hu, List.nil_append, List.mem_singleton] at mem
        rw [mem] at failed
        cases failed
      | same old => cases hu.symm.trans old
      | goes old => cases hu.symm.trans old
      | ends old => cases hu.symm.trans old
    | some u =>
      have worker := (e.fate ht).worker hu
      obtain ⟨news, grown, times, course⟩ := e.course hu ht
      rw [grown] at split
      rcases append_eq_append_cons split with ⟨before, was, rfl⟩ | ⟨added, rfl, now⟩
      · obtain ⟨k, reason, event, followed⟩ := ih hu was
        have old : ∀ p ∈ before, p.event ∈ s.published i := fun p hp => by
          rw [← map_event_told, was]
          exact List.mem_map_of_mem (List.mem_append_right _ (List.mem_cons_of_mem _ hp))
        refine ⟨k, reason, ?_, ?_⟩
        · rw [event, Task.name, Task.name, worker]
        · rw [worker]
          exact followed.move run m timely hu ht times course old
      · obtain ⟨rfl, followed⟩ := followed_told run m hu ht times course now failed
        rw [List.append_nil, map_event_told, worker]
        exact followed

/-- Behind the failure of attempt `k`, in a policy of whole milliseconds. The delay is counted from the last attempt in
which the task said that it was ready, and lasts to the nanosecond. -/
theorem retried_on_schedule (run : Prompt s past) (h : s.task? i = some t) (first : s.backoff.first.IsWhole)
    (max : s.backoff.max.IsWhole) {front after : List Published} {f : Published}
    (split : s.told i = front ++ f :: after) (failed : f.event.kind = .taskFailed) :
    ∃ k reason,
      let delay := s.backoff.nth (k - growingSince t.worker.readiness (front.map (·.event)))
      f.event = .failed t.name k reason ∧ delay.ceilMillis * 1000000 = delay.toNanos ∧
        s.Followed past i t k f.time delay reason after := by
  obtain ⟨k, reason, event, followed⟩ := run.followed h split failed
  exact ⟨k, reason, event, Duration.ceilMillis_of_isWhole (Backoff.isWhole_nth first max _), followed⟩

/-- Attempts that fail at once, the third one after it has said that it is ready. In the delay behind it, time goes on
by half and the task is asked to stop. -/
def thirdReady : List Act :=
  [.supervise { name := "a", task := "a", retries := true, readiness := .explicit }, .actor 0 .proceed,
    .actor 0 .proceed, .work ⟨0, none⟩ (.ended (.returned (some (.fail "e")))), .actor 0 .proceed, .actor 0 .proceed,
    .clock 100, .actor 0 .proceed, .work ⟨0, none⟩ (.ended (.returned (some (.fail "e")))), .actor 0 .proceed,
    .actor 0 .proceed, .clock 300, .actor 0 .proceed, .ready ⟨0, none⟩,
    .work ⟨0, none⟩ (.ended (.returned (some (.fail "e")))), .actor 0 .proceed, .actor 0 .proceed, .clock 350,
    .stop "a", .actor 0 .cancel]

def beforeThird : List Published :=
  [⟨0, 0, .added "a"⟩, ⟨1, 0, .blocked "a"⟩, ⟨2, 0, .starting "a" 1⟩, ⟨3, 0, .running "a"⟩, ⟨4, 0, .failed "a" 1 "e"⟩,
    ⟨5, 0, .backoff "a" 1 100 "e"⟩, ⟨6, 100, .starting "a" 2⟩, ⟨7, 100, .running "a"⟩, ⟨8, 100, .failed "a" 2 "e"⟩,
    ⟨9, 100, .backoff "a" 2 200 "e"⟩, ⟨10, 300, .starting "a" 3⟩, ⟨11, 300, .running "a"⟩, ⟨12, 300, .ready "a"⟩]

theorem retried_on_schedule_thirdReady : ∃ s past t, Prompt s past ∧ s.task? 0 = some t ∧
    s.told 0 = beforeThird ++ ⟨13, 300, .failed "a" 3 "e"⟩ ::
      [⟨14, 300, .backoff "a" 3 100 "e"⟩, ⟨15, 350, .terminated "a"⟩] ∧
    growingSince t.worker.readiness (beforeThird.map (·.event)) = 3 ∧
    ∃ k reason,
      let delay := s.backoff.nth (k - growingSince t.worker.readiness (beforeThird.map (·.event)))
      Event.failed "a" 3 "e" = .failed t.name k reason ∧ delay.ceilMillis * 1000000 = delay.toNanos ∧
        s.Followed past 0 t k 300 delay reason [⟨14, 300, .backoff "a" 3 100 "e"⟩, ⟨15, 350, .terminated "a"⟩] := by
  obtain ⟨s, past, run, h⟩ := exists_prompt
    (P := fun (s, _) => s.backoff = .standard ∧ ((s.task? 0).any (·.worker.readiness = .explicit)) ∧
      s.told 0 = beforeThird ++ ⟨13, 300, .failed "a" 3 "e"⟩ ::
        [⟨14, 300, .backoff "a" 3 100 "e"⟩, ⟨15, 350, .terminated "a"⟩]) .standard thirdReady (by decide +kernel)
  obtain ⟨policy, explicit, split⟩ := of_decide_eq_true h
  obtain ⟨t, ht, explicit⟩ := (Option.any_eq_true _ _).1 explicit
  have first : s.backoff.first.IsWhole := policy ▸ by decide
  have max : s.backoff.max.IsWhole := policy ▸ by decide
  refine ⟨s, past, t, run, ht, split, ?_, retried_on_schedule run ht first max split rfl⟩
  rw [of_decide_eq_true explicit]
  rfl

/-- A delay of more milliseconds than the event has room for. -/
def long : Backoff := ⟨.ofMillis 4294967296, .ofMillis 9000000000, 1⟩

/-- A task that fails at once. -/
def failing : List Act :=
  [.supervise { name := "a", task := "a", retries := true }, .actor 0 .proceed, .actor 0 .proceed,
    .work ⟨0, none⟩ (.ended (.returned (some (.fail "e")))), .actor 0 .proceed, .actor 0 .proceed]

/-- The event shows a long delay cut off; and a request to stop at the very instant at which the delay is over may come
before the next attempt. -/
theorem schedule_exceptions :
    (∃ s past, Prompt s past ∧ s.backoff.first.IsWhole ∧ s.backoff.max.IsWhole ∧
      (s.published 0).getLast? = some (.backoff "a" 1 4294967295 "e") ∧ (s.backoff.nth 0).toMillis = 4294967296) ∧
    ∃ s past, Prompt s past ∧ s.backoff = .standard ∧
      (∃ front, s.told 0 = front ++ [⟨6, 0, .backoff "a" 1 100 "e"⟩, ⟨7, 100, .terminated "a"⟩]) ∧
      ∀ m ∈ s :: past, m.isCancelled 0 = true → m.now = 100 := by
  constructor
  · obtain ⟨s, past, run, h⟩ := exists_prompt
      (P := fun (s, _) => s.backoff = long ∧ (s.published 0).getLast? = some (.backoff "a" 1 4294967295 "e"))
      long failing (by decide +kernel)
    obtain ⟨policy, last⟩ := of_decide_eq_true h
    exact ⟨s, past, run, policy ▸ by decide +kernel, policy ▸ by decide +kernel, last, policy ▸ by decide +kernel⟩
  · obtain ⟨s, past, run, h⟩ := exists_prompt
      (P := fun (s, past) => s.backoff = .standard ∧
        s.told 0 = (s.told 0).take 6 ++ [⟨6, 0, .backoff "a" 1 100 "e"⟩, ⟨7, 100, .terminated "a"⟩] ∧
        ∀ m ∈ s :: past, m.isCancelled 0 = true → m.now = 100)
      .standard (failing ++ [.clock 100, .stop "a", .actor 0 .cancel]) (by decide +kernel)
    obtain ⟨policy, told, stop⟩ := of_decide_eq_true h
    exact ⟨s, past, run, policy, ⟨_, told⟩, stop⟩

end Switchyard.Supervisor
