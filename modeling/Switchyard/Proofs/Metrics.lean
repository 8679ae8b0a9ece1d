import Switchyard.Http.Api
import Switchyard.Proofs.Dictionary
import Switchyard.Proofs.Supervision.Draining
import Switchyard.Proofs.Supervision.LiveCount
import Switchyard.Proofs.Supervision.Mailing
import Switchyard.Proofs.Supervision.RetrySchedule

/-!
What the metrics say. Main statement: when the listener from whose events they are kept has missed none and has
received all, the gauges are what the supervisor knows of its tasks, and the counters are how often attempts have
failed and retries have been scheduled.
-/
namespace Switchyard

/-- Whether an event counts for the task `name` among those of a kind. -/
def Event.tells (kind : EventKind) (name : String) (e : Event) : Bool :=
  e.kind = kind && e.task.getD "unknown" = name

namespace Metrics

variable {m : Metrics} {e : Event} {es : List Event} {n name : String} {kind : EventKind}

/-! ### What metrics make of events -/

theorem ofEvents_append (es es' : List Event) : ofEvents (es ++ es') = es'.foldl record (ofEvents es) :=
  List.foldl_append

theorem live_foldl (es : List Event) (m : Metrics) : (es.foldl record m).live =
    m.live + es.countP (·.kind = .taskAdded) - es.countP (·.kind = .taskTerminated) := by
  induction es generalizing m with
  | nil => simp
  | cons e es ih =>
    have first : (m.record e).live =
        m.live + (if e.kind = .taskAdded then 1 else 0) - (if e.kind = .taskTerminated then 1 else 0) := by
      cases kind : e.kind <;> simp [record, kind]
    rw [List.foldl_cons, ih, first, List.countP_cons, List.countP_cons]
    simp only [decide_eq_true_eq]
    split <;> split <;> omega

theorem find?_increment (d : Dictionary String Nat) (k k' : String) :
    ((increment d k).find? k').getD 0 = (d.find? k').getD 0 + if k = k' then 1 else 0 := by
  rw [increment, Dictionary.find?_insert]
  by_cases same : k' = k
  · subst same
    rw [if_pos rfl, if_pos rfl, Option.getD_some]
  · rw [if_neg same, if_neg (Ne.symm same), Nat.add_zero]

/-- A counter that one kind of events increments counts them. -/
theorem find?_counter (counter : Metrics → Dictionary String Nat) (fresh : counter {} = .empty)
    (step : ∀ m e, counter (record m e) =
      if e.kind = kind then increment (counter m) (e.task.getD "unknown") else counter m) (es : List Event) :
    ((counter (ofEvents es)).find? n).getD 0 = es.countP (Event.tells kind n) := by
  induction es using List.reverseRecOn with
  | nil =>
    rw [ofEvents, List.foldl_nil, fresh]
    rfl
  | append_singleton es e ih =>
    rw [ofEvents_append, List.foldl_cons, List.foldl_nil, step, List.countP_append, List.countP_singleton,
      Event.tells, ← ih]
    by_cases counted : e.kind = kind
    · rw [if_pos counted, find?_increment]
      simp [counted]
    · rw [if_neg counted]
      simp [counted]

theorem find?_failures (es : List Event) :
    ((ofEvents es).failures.find? n).getD 0 = es.countP (Event.tells .taskFailed n) := by
  refine find?_counter failures rfl (fun m e => ?_) es
  cases kind : e.kind <;> simp [record, kind]

theorem find?_retries (es : List Event) :
    ((ofEvents es).retries.find? n).getD 0 = es.countP (Event.tells .backoffScheduled n) := by
  refine find?_counter retries rfl (fun m e => ?_) es
  cases kind : e.kind <;> simp [record, kind]

/-- Whether a task stands among the ready ones after an event of this kind. -/
def mark (ready : Bool) : EventKind → Bool
  | .taskReady => true
  | .taskTerminated | .taskFailed | .taskShuttingDown => false
  | _ => ready

theorem contains_record (m : Metrics) (e : Event) (n : String) : (m.record e).ready.contains n =
    if n = e.task.getD "unknown" then mark (m.ready.contains n) e.kind else m.ready.contains n := by
  cases kind : e.kind <;>
    simp only [record, kind, mark, Dictionary.contains, Dictionary.find?_insert, Dictionary.find?_erase] <;>
    split <;> rfl

theorem contains_foldl (named : ∀ e ∈ es, e.task = some name) (m : Metrics) :
    (es.foldl record m).ready.contains n =
      if n = name then (es.map (·.kind)).foldl mark (m.ready.contains n) else m.ready.contains n := by
  induction es generalizing m with
  | nil => exact (ite_self _).symm
  | cons e es ih =>
    have first : e.task.getD "unknown" = name := by rw [named e List.mem_cons_self, Option.getD_some]
    rw [List.foldl_cons, ih (fun e he => named e (List.mem_cons_of_mem _ he)), contains_record, first]
    split <;> rfl

end Metrics

namespace Task

/-- The attempt at which `t` stands ends with a failure. -/
def fails (t t' : Task) : Bool :=
  match t.phase with
  | .draining o => !t'.isDraining && (t.attemptResult o).any (!·.isCanceled)
  | _ => false

/-- A retry is scheduled. -/
def reschedules (t t' : Task) : Bool := t.state ≠ .retrying && t'.state = .retrying

end Task

namespace Supervisor

variable {s s' : Supervisor} {i : TaskId} {t t' : Task} {es : List Event} {past : List Supervisor} {n : String}
  {error : Option TaskError} {w : Worker Action}

/-! ### Everything told -/

/-- Oldest first. -/
def log (s : Supervisor) : List Event := s.history.reverse.map (·.published.event)

theorem log_amend (s : Supervisor) (i : TaskId) (t : Task) (es : List Event) :
    (s.amend i t es).log = s.log ++ es := by
  rw [log, history_amend, List.reverse_append, List.reverse_reverse, List.map_append, events_entries, log]

theorem log_supervise (h : s.supervise w = .ok s') : s'.log = s.log ++ [.added w.name] := by
  rw [supervise_eq h, log, List.reverse_cons, List.map_append]
  rfl

theorem log_shutdown (down : s.shuttingDown = false) :
    s.shutdown.log = s.log ++ [{ kind := .shutdownRequested }] := by
  rw [shutdown_eq down, log, publish, List.reverse_cons, List.map_append]
  rfl

/-- Whatever is told of a registration carries its name. -/
theorem Goes.named (g : Goes s i t t' es) : ∀ e ∈ es, e.task = some t.name := by
  cases g with
  | start => simp [Task.beginning, Course.attempt, Event.starting, Event.running, Event.ready]
  | _ => simp [Event.blocked, Event.shuttingDown, Event.failed, Event.backoff, Event.ready]

theorem Ends.named (d : Ends s i t t' es error) : ∀ e ∈ es, e.task = some t.name := by
  cases d <;> simp [Event.terminated, Event.failed]

/-! ### The gauge of tasks alive -/

theorem Goes.none_added (g : Goes s i t t' es) : es.countP (·.kind = .taskAdded) = 0 := by
  cases g with
  | start => simp [Task.beginning, Course.attempt, Event.starting, Event.running, Event.ready]
  | _ => rfl

theorem Ends.none_added (d : Ends s i t t' es error) : es.countP (·.kind = .taskAdded) = 0 := by
  cases d <;> rfl

theorem Run.live_ofEvents (run : Run s past) : (Metrics.ofEvents s.log).live = s.alive := by
  induction run with
  | start => rfl
  | @move s s' past run _ m ih =>
    have amended {i : TaskId} {t : Task} {es : List Event} (none : es.countP (·.kind = .taskAdded) = 0) :
        (Metrics.ofEvents (s.amend i t es).log).live = s.alive - es.countP (·.kind = .taskTerminated) := by
      rw [log_amend, Metrics.ofEvents_append, Metrics.live_foldl, ih, none]
      omega
    cases act_effect m with
    | @goes i t t' es h g =>
      have told : es.countP (·.kind = .taskTerminated) = 0 :=
        List.countP_eq_length_filter.trans (congrArg List.length g.not_over)
      rw [amended g.none_added, told, alive_amend_of_same h (g.isTerminated run h)]
      omega
    | @ends i t t' es error h d =>
      obtain ⟨before, after⟩ := d.isTerminated run h
      have fewer : (s.amend i t' es).alive + 1 = s.alive := alive_amend_of_end h before after
      have told : es.countP (·.kind = .taskTerminated) = 1 :=
        List.countP_eq_length_filter.trans (congrArg List.length d.over)
      change (Metrics.ofEvents (s.amend i t' es).log).live = (s.amend i t' es).alive
      rw [amended d.none_added, told]
      omega
    | supervise h =>
      have more : s'.alive = s.alive + 1 := by
        rw [supervise_eq h, alive, List.countP_append]
        rfl
      rw [log_supervise h, Metrics.ofEvents_append, Metrics.live_foldl, ih, more]
      rfl
    | shutdown down =>
      have same : s.shutdown.alive = s.alive := by rw [shutdown_eq down]; rfl
      rw [log_shutdown down, Metrics.ofEvents_append, Metrics.live_foldl, ih, same]
      rfl
    | aside => exact ih

/-! ### The names that are ready -/

theorem state_amend_of_same (h : s.task? i = some t) (same : t'.state = t.state) (n : String) :
    (s.amend i t' es).state n = s.state n := by
  rw [state, state, lookupTask, lookupTask, lookup_amend]
  cases s.lookup n with
  | none => rfl
  | some j =>
    rw [Option.bind_some, Option.bind_some]
    by_cases own : j = i
    · rw [own, task?_amend_self (lt_of_task? h), h, Option.map_some, Option.map_some, same]
    · rw [task?_amend_of_ne own]

theorem state_amend (run : Run s past) (h : s.task? i = some t) (current : s.lookup t.name = some i) (n : String) :
    (s.amend i t' es).state n = if n = t.name then some t'.state else s.state n := by
  rw [state, lookupTask, lookup_amend]
  split
  next same =>
    rw [same, current, Option.bind_some, task?_amend_self (lt_of_task? h), Option.map_some]
  next differ =>
    rw [state, lookupTask]
    cases found : s.lookup n with
    | none => rfl
    | some j =>
      have other : j ≠ i := by
        rintro rfl
        obtain ⟨u, hu, named⟩ := run.name_of_lookup found
        cases hu.symm.trans h
        exact differ named.symm
      rw [Option.bind_some, Option.bind_some, task?_amend_of_ne other]

theorem state_supervise (run : Run s past) (h : s.supervise w = .ok s') (n : String) :
    s'.state n = if n = w.name then some .registered else s.state n := by
  rw [state, lookupTask, lookup_supervise h]
  split
  next => rw [Option.bind_some, task?_supervise h, if_pos rfl, Option.map_some]
  next =>
    rw [state, lookupTask]
    cases found : s.lookup n with
    | none => rfl
    | some j =>
      obtain ⟨t, ht, _⟩ := run.name_of_lookup found
      rw [Option.bind_some, Option.bind_some, task?_supervise h, if_neg (Nat.ne_of_lt (lt_of_task? ht))]

/-- A registration that has terminated tells nothing more and stays terminated. -/
theorem Goes.after_end (run : Run s past) (h : s.task? i = some t) (g : Goes s i t t' es)
    (ended : t.isTerminated = true) : es = [] ∧ t'.state = t.state := by
  have state : t.state = .terminated := of_decide_eq_true ended
  have state' : t'.state = .terminated := of_decide_eq_true ((g.isTerminated run h).trans ended)
  refine ⟨g.silent ((run.isTerminated_iff h).1 ended) ?_, state'.trans state.symm⟩
  rw [state]
  exact nofun

theorem mark_beginning (t : Task) (ready : Bool) : (t.beginning.map (·.kind)).foldl Metrics.mark ready =
    (ready || t.worker.readiness = .onStart) := by
  by_cases onStart : t.worker.readiness = .onStart
  · simp [Task.beginning, Course.attempt, onStart, Event.starting, Event.running, Event.ready, Metrics.mark]
  · simp [Task.beginning, Course.attempt, onStart, Event.starting, Event.running, Metrics.mark]

theorem Unblocked.not_ready {phase : Phase} (h : s.Unblocked phase) : TaskState.ready ∉ phase.states := by
  cases h <;> simp [Phase.states]

/-- Every way out of readiness is told, and so is every way into it. -/
theorem Goes.mark (run : Run s past) (h : s.task? i = some t) (g : Goes s i t t' es) :
    (es.map (·.kind)).foldl Metrics.mark (t.state = .ready) = decide (t'.state = .ready) := by
  have states := state_mem_states (run.chronicle h)
  cases g with
  | block phase =>
    rw [phase] at states
    simp [List.mem_singleton.1 states, Metrics.mark, Event.blocked]
  | start unblocked =>
    have waiting : t.state ≠ .ready := fun ready => unblocked.not_ready (ready ▸ states)
    rw [mark_beginning]
    by_cases onStart : t.worker.readiness = .onStart <;> simp [Task.begun, waiting, onStart]
  | @work sub => cases sub <;> rfl
  | _ => rfl

theorem Ends.mark (d : Ends s i t t' es error) (ready : Bool) :
    (es.map (·.kind)).foldl Metrics.mark ready = decide (t'.state = .ready) := by
  cases d <;> rfl

/-- Only a name that is not ready is registered. -/
theorem not_ready_of_supervise (h : s.supervise w = .ok s') : s.state w.name ≠ some .ready := by
  intro ready
  have free := isLive_of_supervise h
  rw [isLive_eq_any_state, ready] at free
  cases free

/-- What is told of whoever is alive under a name moves the mark of that name with the state. -/
theorem Run.ready_amend (run : Run s past) (h : s.task? i = some t) (live : t.isTerminated = false)
    (named : ∀ e ∈ es, e.task = some t.name)
    (marked : (es.map (·.kind)).foldl Metrics.mark (t.state = .ready) = decide (t'.state = .ready))
    (before : (Metrics.ofEvents s.log).ready.contains n = decide (s.state n = some .ready)) :
    (Metrics.ofEvents (s.amend i t' es).log).ready.contains n = decide ((s.amend i t' es).state n = some .ready) := by
  have current := run.lookup_of_live h live
  rw [log_amend, Metrics.ofEvents_append, Metrics.contains_foldl named, before, state_amend run h current]
  split
  next same =>
    have stands : s.state n = some t.state := state_eq_some_iff.2 ⟨i, t, same ▸ current, h, rfl⟩
    rw [stands]
    simpa using marked
  next => rfl

theorem Run.ready_ofEvents (run : Run s past) (n : String) :
    (Metrics.ofEvents s.log).ready.contains n = decide (s.state n = some .ready) := by
  induction run with
  | start => rfl
  | @move s s' past run _ m ih =>
    cases act_effect m with
    | @goes i t t' es h g =>
      by_cases ended : t.isTerminated = true
      · obtain ⟨rfl, same⟩ := g.after_end run h ended
        rw [log_amend, List.append_nil, ih, state_amend_of_same h same]
      · exact run.ready_amend h (Bool.eq_false_iff.2 ended) g.named (g.mark run h) ih
    | ends h d => exact run.ready_amend h (d.isTerminated run h).1 d.named (d.mark _) ih
    | supervise h =>
      have kept : (Metrics.ofEvents s'.log).ready = (Metrics.ofEvents s.log).ready := by
        rw [log_supervise h, Metrics.ofEvents_append]
        rfl
      rw [kept, ih, state_supervise run h]
      split
      next same => exact decide_eq_false (same ▸ not_ready_of_supervise h)
      next => rfl
    | shutdown down =>
      have kept : (Metrics.ofEvents s.shutdown.log).ready = (Metrics.ofEvents s.log).ready := by
        rw [log_shutdown down, Metrics.ofEvents_append]
        rfl
      rw [kept, ih, shutdown_eq down]
      rfl
    | aside => exact ih

/-! ### Counting what happens to registrations -/

/-- How often this happens to registrations of the name in a move. -/
def tally (happens : Task → Task → Bool) (name : String) (s s' : Supervisor) : Nat :=
  (s.tasks.zip s'.tasks).countP fun (t, t') => t.name = name && happens t t'

/-- How often this has happened on the way through these states, newest first. -/
def tallies (happens : Task → Task → Bool) (name : String) : List Supervisor → Nat
  | s' :: s :: past => tally happens name s s' + tallies happens name (s :: past)
  | _ => 0

theorem countP_zip_append {α : Type} {p : α × α → Bool} (irrefl : ∀ a, p (a, a) = false) (l new : List α) :
    (l.zip (l ++ new)).countP p = 0 := by
  induction l with
  | nil => rfl
  | cons a l ih => rw [List.cons_append, List.zip_cons_cons, List.countP_cons_of_neg (by simp [irrefl]), ih]

theorem countP_zip_set {α : Type} {p : α × α → Bool} (irrefl : ∀ a, p (a, a) = false) {l : List α} {i : Nat} {a b : α}
    (h : l[i]? = some a) : (l.zip (l.set i b)).countP p = (p (a, b)).toNat := by
  induction l generalizing i with
  | nil => cases h
  | cons c l ih =>
    cases i with
    | zero =>
      cases h
      have rest := countP_zip_append irrefl l []
      rw [List.append_nil] at rest
      rw [List.set_cons_zero, List.zip_cons_cons, List.countP_cons, rest]
      cases p (a, b) <;> rfl
    | succ i => rw [List.set_cons_succ, List.zip_cons_cons, List.countP_cons_of_neg (by simp [irrefl]), ih h]

/-- What can only happen to a registration that changes is told of it then, once, by one kind of event. -/
structure Tells (kind : EventKind) (happens : Task → Task → Bool) : Prop where
  irrefl : ∀ t, happens t t = false
  not_added : kind ≠ .taskAdded
  not_shutdown : kind ≠ .shutdownRequested
  goes : ∀ {s : Supervisor} {past : List Supervisor} {i : TaskId} {t t' : Task} {es : List Event}, Run s past →
    s.task? i = some t → Goes s i t t' es → es.countP (·.kind = kind) = (happens t t').toNat
  ends : ∀ {s : Supervisor} {i : TaskId} {t t' : Task} {es : List Event} {error : Option TaskError},
    Ends s i t t' es error → es.countP (·.kind = kind) = (happens t t').toNat

section tells
variable {kind : EventKind} {happens : Task → Task → Bool}

theorem countP_tells {name : String} (named : ∀ e ∈ es, e.task = some name) :
    es.countP (Event.tells kind n) = if name = n then es.countP (·.kind = kind) else 0 := by
  have counts (e : Event) (he : e ∈ es) : Event.tells kind n e = (decide (e.kind = kind) && decide (name = n)) := by
    rw [Event.tells, named e he, Option.getD_some]
  split
  next same => exact List.countP_congr fun e he => by simp [counts e he, same]
  next differ => exact List.countP_eq_zero.2 fun e he => by simp [counts e he, differ]

/-- Nothing happens to those that stay as they are. -/
theorem Tells.tally_append (tells : Tells kind happens) {new : List Task} (h : s'.tasks = s.tasks ++ new) :
    tally happens n s s' = 0 := by
  rw [tally, h]
  exact countP_zip_append (fun t => by simp [tells.irrefl]) _ _

theorem Tells.tally_amend (tells : Tells kind happens) (h : s.task? i = some t)
    (named : ∀ e ∈ es, e.task = some t.name) (told : es.countP (·.kind = kind) = (happens t t').toNat) :
    tally happens n s (s.amend i t' es) = es.countP (Event.tells kind n) := by
  rw [tally, tasks_amend, countP_zip_set (fun t => by simp [tells.irrefl]) h, countP_tells named, told]
  by_cases same : t.name = n
  · simp [same]
  · simp [same]

theorem Tells.log (tells : Tells kind happens) (run : Run s past) :
    s.log.countP (Event.tells kind n) = tallies happens n (s :: past) := by
  induction run with
  | start => rfl
  | @move s s' past run _ m ih =>
    rw [tallies, ← ih]
    cases act_effect m with
    | goes h g =>
      rw [log_amend, List.countP_append, tells.tally_amend h g.named (tells.goes run h g), Nat.add_comm]
    | @ends i t t' es error h d =>
      change (s.amend i t' es).log.countP _ = tally happens n s (s.amend i t' es) + _
      rw [log_amend, List.countP_append, tells.tally_amend h d.named (tells.ends d), Nat.add_comm]
    | @supervise w _ h =>
      have tasks : s'.tasks = s.tasks ++ [{ worker := w }] := by rw [supervise_eq h]
      have other : List.countP (Event.tells kind n) [.added w.name] = 0 := by
        simp [Event.tells, Event.added, tells.not_added.symm]
      rw [log_supervise h, List.countP_append, tells.tally_append tasks, other, Nat.add_comm]
    | shutdown down =>
      have tasks : s.shutdown.tasks = s.tasks ++ [] := by
        rw [shutdown_eq down, List.append_nil]
        rfl
      have other : List.countP (Event.tells kind n) [{ kind := .shutdownRequested }] = 0 := by
        simp [Event.tells, tells.not_shutdown.symm]
      rw [log_shutdown down, List.countP_append, tells.tally_append tasks, other, Nat.add_comm]
    | @aside time _ mailboxes =>
      have tasks : ({ s with now := time, mailboxes } : Supervisor).tasks = s.tasks ++ [] := (List.append_nil _).symm
      rw [tells.tally_append tasks, Nat.zero_add]
      rfl

end tells

theorem countP_failed_closed {o : Outcome} (c : t.Closes o es) :
    es.countP (·.kind = .taskFailed) = (o.any (!·.isCanceled)).toNat := by
  cases c with
  | success => rfl
  | canceled => rfl
  | failure error => simp [Event.failed, Event.terminated, TaskError.isCanceled, error]
  | retry error => simp [Event.failed, Event.backoff, TaskError.isCanceled, error]

/-- A failure is told when an attempt is closed that has come to one, and only then. -/
theorem countP_failed_of_closes
    (closes : t.isDraining = true → t'.isDraining = false →
      ∃ o, t.phase = .draining o ∧ t.Closes (t.attemptResult o) es)
    (told : ∀ e ∈ es, e.kind = .taskFailed → t.isDraining = true ∧ t'.isDraining = false) :
    es.countP (·.kind = .taskFailed) = (t.fails t').toNat := by
  by_cases closed : t.isDraining = true ∧ t'.isDraining = false
  · obtain ⟨o, draining, c⟩ := closes closed.1 closed.2
    rw [countP_failed_closed c, Task.fails, draining]
    simp [closed.2]
  · have silent : es.countP (·.kind = .taskFailed) = 0 :=
      List.countP_eq_zero.2 fun e he failed => closed (told e he (of_decide_eq_true failed))
    have goesOn : t.fails t' = false := by
      cases phase : t.phase with
      | draining o =>
        have still : t'.isDraining = true := by
          rw [Task.isDraining, phase] at closed
          simpa using closed
        simp [Task.fails, phase, still]
      | _ => rw [Task.fails, phase]
    rw [silent, goesOn]
    rfl

theorem tells_fails : Tells .taskFailed Task.fails where
  irrefl t := by
    cases phase : t.phase <;> simp [Task.fails, Task.isDraining, phase]
  not_added := nofun
  not_shutdown := nofun
  goes run h g := by
    refine countP_failed_of_closes g.closes fun e he failed => ?_
    obtain ⟨o, error, draining, _, rfl, _⟩ := g.of_told_failed he failed
    exact ⟨by rw [Task.isDraining, draining], rfl⟩
  ends d := by
    refine countP_failed_of_closes (fun draining _ => d.closes draining) fun e he failed => ?_
    cases d with
    | fail draining => exact ⟨by rw [Task.isDraining, draining], rfl⟩
    | _ => exact absurd he (failed_not_mem_singleton failed (by simp [Event.terminated]))

theorem reschedules_of_state (same : t'.state = t.state) : t.reschedules t' = false := by
  by_cases retrying : t.state = .retrying <;> simp [Task.reschedules, same, retrying]

theorem tells_reschedules : Tells .backoffScheduled Task.reschedules where
  irrefl t := reschedules_of_state rfl
  not_added := nofun
  not_shutdown := nofun
  goes {s past i t t' es} run h g := by
    cases g with
    | retry draining =>
      have before : t.state ≠ .retrying := by
        intro retrying
        have states := state_mem_states (run.chronicle h)
        simp [draining, retrying, Phase.states] at states
      simp [Task.reschedules, Task.delayedBy, before, Event.failed, Event.backoff]
    | start =>
      by_cases onStart : t.worker.readiness = .onStart <;>
        simp [Task.reschedules, Task.begun, Task.beginning, Course.attempt, onStart, Event.starting, Event.running,
          Event.ready]
    | attend => exact congrArg Bool.toNat (reschedules_of_state rfl).symm
    | note => exact congrArg Bool.toNat (reschedules_of_state rfl).symm
    | @work sub => exact congrArg Bool.toNat (reschedules_of_state (by cases sub <;> rfl)).symm
    | _ => simp [Task.reschedules, Event.blocked, Event.shuttingDown, Event.ready, Task.readied]
  ends d := by
    cases d <;> simp [Task.reschedules, Task.ended, Task.drained, Event.terminated, Event.failed]

/-! ### When everything has been received -/

theorem Heard.metrics {system : System} (heard : Heard System.metricsBox system.supervisor past)
    (consumed : ∀ m ∈ system.supervisor.mailboxes[System.metricsBox]?, m.queue = []) :
    system.metrics = .ofEvents system.supervisor.log := by
  obtain ⟨m, there, complete⟩ := heard.all
  rw [Mailbox.all, consumed m there, List.append_nil] at complete
  rw [System.metrics, there]
  change Metrics.ofEvents (m.received.reverse.map (·.event)) = _
  rw [complete, List.map_map]
  rfl

/-- Whoever is ready is alive, each under a name of its own. -/
theorem Run.ready_le_live (run : Run s past) : (Metrics.ofEvents s.log).ready.size ≤ s.alive := by
  have listed : (Metrics.ofEvents s.log).ready.keys ⊆ (s.tasks.filter (!·.isTerminated)).map (·.name) := by
    intro n hn
    have ready := Dictionary.contains_iff_mem_keys.2 hn
    rw [run.ready_ofEvents, decide_eq_true_iff] at ready
    obtain ⟨i, t, found, ht, stands⟩ := state_eq_some_iff.1 ready
    obtain ⟨u, hu, named⟩ := run.name_of_lookup found
    cases hu.symm.trans ht
    refine List.mem_map.2 ⟨t, List.mem_filter.2 ⟨List.mem_of_getElem? ht, ?_⟩, named⟩
    simp [Task.isTerminated, stands, TaskState.isTerminal]
  have fewer := (List.subperm_of_subset (Dictionary.nodup_keys _) listed).length_le
  rwa [Dictionary.keys, List.length_map, List.length_map, ← List.countP_eq_length_filter] at fewer

theorem Run.ncard_ready (run : Run s past) :
    (Metrics.ofEvents s.log).ready.size = {n | s.state n = some .ready}.ncard := by
  refine (List.length_map _).symm.trans (ncard_of_nodup (Dictionary.nodup_keys _) fun n => ?_).symm
  rw [← Dictionary.contains_iff_mem_keys, run.ready_ofEvents, decide_eq_true_iff]

end Supervisor

namespace System

open Supervisor

variable {s : System} {past : List Supervisor}

/-- When the listener has missed nothing and has nothing left to receive, the gauges are the number of registrations
that have not terminated and the number of names whose registration is ready, and the counters are how often attempts
of registrations of a name have failed and how often retries have been scheduled for them. -/
theorem metrics_agree (heard : Heard metricsBox s.supervisor past)
    (consumed : ∀ m ∈ s.supervisor.mailboxes[metricsBox]?, m.queue = []) :
    s.metrics.live = s.supervisor.tasks.countP (!·.isTerminated) ∧
    s.metrics.ready.size = {n | s.supervisor.state n = some .ready}.ncard ∧
    (∀ n, s.metrics.ready.contains n = true ↔ s.supervisor.state n = some .ready) ∧
    (∀ n, (s.metrics.failures.find? n).getD 0 = tallies Task.fails n (s.supervisor :: past)) ∧
    (∀ n, (s.metrics.retries.find? n).getD 0 = tallies Task.reschedules n (s.supervisor :: past)) ∧
    (s.metrics.ready.size : Int) ≤ s.metrics.live := by
  have run := heard.run
  have live := run.live_ofEvents
  rw [heard.metrics consumed]
  refine ⟨live, run.ncard_ready, fun n => ?_, fun n => ?_, fun n => ?_, ?_⟩
  · rw [run.ready_ofEvents, decide_eq_true_iff]
  · rw [Metrics.find?_failures, tells_fails.log run]
  · rw [Metrics.find?_retries, tells_reschedules.log run]
  · rw [live]
    exact_mod_cast run.ready_le_live

/-- One task fails, is tried again, and fails once more when it has been asked to stop; another one takes its name. -/
def reused : List (Act ⊕ Nat) :=
  [.inl (.supervise { name := "a", task := "a", retries := true }), .inl (.actor 0 .proceed),
      .inl (.actor 0 .proceed)] ++ List.replicate 5 (.inr metricsBox) ++
    [.inl (.work ⟨0, none⟩ (.ended (.returned (some (.fail "x"))))), .inl (.actor 0 .proceed),
      .inl (.actor 0 .proceed), .inl (.clock 1000), .inl (.actor 0 .proceed)] ++
    List.replicate 5 (.inr metricsBox) ++
    [.inl (.stop "a"), .inl (.actor 0 .cancel), .inl (.work ⟨0, none⟩ (.ended (.panicked "y"))),
      .inl (.actor 0 .proceed), .inl (.actor 0 .proceed)] ++ List.replicate 3 (.inr metricsBox) ++
    [.inl (.supervise { name := "a", task := "a" }), .inl (.actor 1 .proceed), .inl (.actor 1 .proceed)] ++
    List.replicate 5 (.inr metricsBox) ++ [.inl (.supervise { name := "b", task := "b" }), .inr metricsBox]

theorem metrics_agree_reused : ∃ (s : System) (past : List Supervisor), Heard metricsBox s.supervisor past ∧
    (∀ m ∈ s.supervisor.mailboxes[metricsBox]?, m.queue = []) ∧
    (s.supervisor.alive = 2 ∧ s.supervisor.state "a" = some .ready ∧
      tallies Task.fails "a" (s.supervisor :: past) = 2 ∧
      tallies Task.reschedules "a" (s.supervisor :: past) = 1) ∧
    s.metrics.live = s.supervisor.tasks.countP (!·.isTerminated) ∧
    s.metrics.ready.size = {n | s.supervisor.state n = some .ready}.ncard ∧
    (∀ n, s.metrics.ready.contains n = true ↔ s.supervisor.state n = some .ready) ∧
    (∀ n, (s.metrics.failures.find? n).getD 0 = tallies Task.fails n (s.supervisor :: past)) ∧
    (∀ n, (s.metrics.retries.find? n).getD 0 = tallies Task.reschedules n (s.supervisor :: past)) ∧
    (s.metrics.ready.size : Int) ≤ s.metrics.live := by
  have there : ([.ofCapacity 1, .ofCapacity 5] : List Mailbox)[metricsBox]? = some (.ofCapacity 5) := rfl
  obtain ⟨s, past, heard, h⟩ := exists_heard
    (P := fun (s, past) => (∀ m ∈ s.mailboxes[metricsBox]?, m.queue = []) ∧ s.alive = 2 ∧
      s.state "a" = some .ready ∧ tallies Task.fails "a" (s :: past) = 2 ∧
      tallies Task.reschedules "a" (s :: past) = 1)
    there reused (by decide +kernel)
  obtain ⟨consumed, course⟩ := of_decide_eq_true h
  exact ⟨{ supervisor := s, redirector := default }, past, heard, consumed, course, metrics_agree heard consumed⟩

end System

end Switchyard
