import Switchyard.Supervision.Event

/-!
The events of a task from its registration to its end, as words, and what can be read off them.
-/
namespace Switchyard

namespace Event

def added (name : String) : Event := { kind := .taskAdded, task := some name }

def blocked (name : String) : Event := { kind := .taskBlocked, task := some name }

def starting (name : String) (n : Nat) : Event := { kind := .taskStarting, task := some name, attempt := some n }

def running (name : String) : Event := { kind := .taskRunning, task := some name }

def ready (name : String) : Event := { kind := .taskReady, task := some name }

def shuttingDown (name : String) : Event := { kind := .taskShuttingDown, task := some name }

def failed (name : String) (n : Nat) (reason : String) : Event :=
  { kind := .taskFailed, task := some name, attempt := some n, reason := some reason }

def backoff (name : String) (n delayMs : Nat) (reason : String) : Event :=
  { kind := .backoffScheduled, task := some name, attempt := some n, delayMs := some delayMs, reason := some reason }

def terminated (name : String) : Event := { kind := .taskTerminated, task := some name }

end Event

/-- What is told of an attempt besides that it starts and runs. -/
structure Attempt where
  ready : Bool := false
  stopped : Bool := false
  failure : Option String := none

/-- An attempt that failed and was followed by a delay. -/
structure Retried where
  ready : Bool
  reason : String
  delayMs : Nat

def Retried.attempt (r : Retried) : Attempt := { ready := r.ready, failure := some r.reason }

namespace Course

def opening (name : String) : List Event := [.added name, .blocked name]

def attempt (name : String) (n : Nat) (a : Attempt) : List Event :=
  [.starting name n, .running name] ++ (if a.ready then [.ready name] else []) ++
    (if a.stopped then [.shuttingDown name] else []) ++ (a.failure.map (.failed name n)).toList

/-- Attempts numbered from one, each of which failed and scheduled the next. -/
def retries (name : String) (rs : List Retried) : List Event :=
  (rs.zipIdx 1).flatMap fun (r, n) => attempt name n r.attempt ++ [.backoff name n r.delayMs r.reason]

def last (name : String) (n : Nat) : Option Attempt → List Event
  | none => []
  | some a => attempt name n a

/-- All events of a task: `rs` are the attempts that another was scheduled after, `a` is the one that came last. -/
def whole (name : String) (rs : List Retried) (a : Option Attempt) : List Event :=
  opening name ++ retries name rs ++ last name (rs.length + 1) a ++ [.terminated name]

theorem attempt_ready (name : String) (n : Nat) :
    attempt name n {} ++ [.ready name] = attempt name n { ready := true } := rfl

theorem attempt_stopped (name : String) (n : Nat) (ready : Bool) :
    attempt name n { ready } ++ [.shuttingDown name] = attempt name n { ready, stopped := true } := by
  simp [attempt]

theorem attempt_failed (name : String) (n : Nat) (ready stopped : Bool) (reason : String) :
    attempt name n { ready, stopped } ++ [.failed name n reason] =
      attempt name n { ready, stopped, failure := some reason } := by
  simp [attempt]

theorem retries_snoc (name : String) (rs : List Retried) (r : Retried) :
    retries name (rs ++ [r]) =
      retries name rs ++ attempt name (rs.length + 1) r.attempt ++
        [.backoff name (rs.length + 1) r.delayMs r.reason] := by
  simp [retries, List.zipIdx_append, Nat.add_comm 1]

theorem ready_of_mem_attempt {name : String} {n : Nat} {a : Attempt} {e : Event} (h : e ∈ attempt name n a)
    (kind : e.kind = .taskReady) : e = .ready name := by
  obtain ⟨ready, stopped, failure⟩ := a
  simp only [attempt, List.mem_append, List.mem_cons, List.not_mem_nil, or_false] at h
  rcases h with (((rfl | rfl) | h) | h) | h
  · cases kind
  · cases kind
  · cases ready
    · cases h
    · exact List.mem_singleton.1 h
  · cases stopped
    · cases h
    · cases List.mem_singleton.1 h
      cases kind
  · cases failure
    · cases h
    · cases List.mem_singleton.1 h
      cases kind

theorem ready_of_mem_whole {name : String} {rs : List Retried} {a : Option Attempt} {e : Event}
    (h : e ∈ whole name rs a) (kind : e.kind = .taskReady) : e = .ready name := by
  simp only [whole, List.mem_append] at h
  rcases h with ((h | h) | h) | h
  · simp only [opening, List.mem_cons, List.not_mem_nil, or_false] at h
    rcases h with rfl | rfl <;> cases kind
  · obtain ⟨⟨r, n⟩, _, h⟩ := List.mem_flatMap.1 h
    rcases List.mem_append.1 h with h | h
    · exact ready_of_mem_attempt h kind
    · cases List.mem_singleton.1 h
      cases kind
  · cases a with
    | none => cases h
    | some a => exact ready_of_mem_attempt h kind
  · cases List.mem_singleton.1 h
    cases kind

end Course

/-- The state after one more event. A failure leaves it as it is. -/
def TaskState.after (s : TaskState) (e : Event) : TaskState :=
  match e.kind with
  | .taskAdded => registered
  | .taskBlocked => blocked
  | .taskStarting => starting
  | .taskRunning => running
  | .taskReady => ready
  | .backoffScheduled => retrying
  | .taskShuttingDown => shuttingDown
  | .taskTerminated => terminated
  | .taskFailed | .shutdownRequested => s

/-- The state that the events of a task tell of. -/
def TaskState.replay (es : List Event) : TaskState := es.foldl after registered

namespace Course

variable (name : String)

theorem foldl_attempt_after (s : TaskState) (n : Nat) (a : Attempt) :
    (attempt name n a).foldl TaskState.after s =
      if a.stopped then .shuttingDown else if a.ready then .ready else .running := by
  obtain ⟨ready, stopped, failure⟩ := a
  cases ready <;> cases stopped <;> cases failure <;> rfl

theorem replay_attempt (es : List Event) (n : Nat) (a : Attempt) :
    TaskState.replay (es ++ attempt name n a) =
      if a.stopped then .shuttingDown else if a.ready then .ready else .running := by
  rw [TaskState.replay, List.foldl_append, foldl_attempt_after]

theorem replay_retries_snoc (es : List Event) (rs : List Retried) (r : Retried) :
    TaskState.replay (es ++ retries name (rs ++ [r])) = .retrying := by
  rw [retries_snoc, TaskState.replay, ← List.append_assoc, List.foldl_append]
  rfl

theorem replay_whole (rs : List Retried) (a : Option Attempt) : TaskState.replay (whole name rs a) = .terminated := by
  rw [whole, TaskState.replay, List.foldl_append]
  rfl

end Course

/-- The failure not yet followed by a new start. -/
def pendingFailure (f : Option Event) (e : Event) : Option Event :=
  match e.kind with
  | .taskFailed => some e
  | .taskStarting => none
  | _ => f

/-- The failure told of after the last start. -/
def lastFailure (es : List Event) : Option Event := es.foldl pendingFailure none

/-- Neither a failure nor a new start. -/
def Event.Neutral (e : Event) : Prop := e.kind ≠ .taskStarting ∧ e.kind ≠ .taskFailed

theorem foldl_pendingFailure_eq_some_iff {es : List Event} {f : Option Event} {e : Event} :
    es.foldl pendingFailure f = some e ↔
      (f = some e ∧ ∀ e' ∈ es, e'.Neutral) ∨
      ∃ before after, es = before ++ e :: after ∧ e.kind = .taskFailed ∧ ∀ e' ∈ after, e'.Neutral := by
  induction es generalizing f with
  | nil => simp
  | cons a es ih =>
    -- the failure looked for is the first event, or a later one
    have first_or_later : (∃ before after, a :: es = before ++ e :: after ∧ e.kind = .taskFailed ∧
        ∀ e' ∈ after, e'.Neutral) ↔
        (a = e ∧ a.kind = .taskFailed ∧ ∀ e' ∈ es, e'.Neutral) ∨
        ∃ before after, es = before ++ e :: after ∧ e.kind = .taskFailed ∧ ∀ e' ∈ after, e'.Neutral := by
      constructor
      · rintro ⟨before, after, split, failed, rest⟩
        cases before with
        | nil =>
          obtain ⟨rfl, rfl⟩ := List.cons.inj split
          exact .inl ⟨rfl, failed, rest⟩
        | cons b before => exact .inr ⟨before, after, (List.cons.inj split).2, failed, rest⟩
      · rintro (⟨rfl, failed, rest⟩ | ⟨before, after, rfl, failed, rest⟩)
        · exact ⟨[], es, rfl, failed, rest⟩
        · exact ⟨a :: before, after, rfl, failed, rest⟩
    rw [List.foldl_cons, ih, first_or_later, ← or_assoc]
    refine or_congr_left ?_
    rw [pendingFailure, List.forall_mem_cons]
    split
    next failed => simp [failed, Event.Neutral]
    next starting => simp [starting, Event.Neutral]
    next unfailed unstarted =>
      have other : a.kind ≠ .taskFailed := unfailed
      have neutral : a.Neutral := ⟨unstarted, other⟩
      simp [neutral, other]

/-- The last failure has neither a start nor another failure behind it. -/
theorem lastFailure_eq_some_iff {es : List Event} {e : Event} :
    lastFailure es = some e ↔
      ∃ before after, es = before ++ e :: after ∧ e.kind = .taskFailed ∧ ∀ e' ∈ after, e'.Neutral := by
  rw [lastFailure, foldl_pendingFailure_eq_some_iff]
  simp

theorem lastFailure_append (es es' : List Event) :
    lastFailure (es ++ es') = es'.foldl pendingFailure (lastFailure es) := by
  rw [lastFailure, List.foldl_append, lastFailure]

theorem foldl_attempt_pendingFailure (f : Option Event) (name : String) (n : Nat) (a : Attempt) :
    (Course.attempt name n a).foldl pendingFailure f = a.failure.map (.failed name n) := by
  obtain ⟨ready, stopped, failure⟩ := a
  cases ready <;> cases stopped <;> cases failure <;> rfl

end Switchyard
