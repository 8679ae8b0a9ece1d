import Switchyard.Supervision.Lifecycle

/-!
Runs of a supervisor. A unit that is running may do whatever a unit can do, in any order, so what holds of a run
does not depend on what scripts say.
-/
namespace Switchyard

/-- What each step of an execution keeps, all of it keeps. -/
theorem kept_of_foldlM {σ α : Type} {P : σ → Prop} {f : σ → α → Option σ}
    (step : ∀ {x x' : σ} {a : α}, f x a = some x' → P x → P x') {x x' : σ} {as : List α}
    (h : as.foldlM f x = some x') (start : P x) : P x' := by
  induction as generalizing x with
  | nil =>
    cases h
    exact start
  | cons a as ih =>
    obtain ⟨y, first, h⟩ := Option.bind_eq_some_iff.1 h
    exact ih h (step first start)

namespace Supervisor

/-- What may happen next: a step of the supervisor itself, a call from outside, something that a running unit does,
or something outside the supervisor. -/
inductive Act where
  | actor (task : TaskId) (turn : Turn)
  | watch (task : TaskId) (sub : Nat)
  | supervise (worker : Worker Action)
  | stop (name : String)
  | shutdown
  | ready (who : UnitId)
  | spawn (who : UnitId) (script : Script)
  | work (who : UnitId) (progress : Progress)
  | clock (time : Nat)
  | mail (mailboxes : List Mailbox)

def Act.isMail : Act → Bool
  | .mail _ => true
  | _ => false

def isRunning (s : Supervisor) (u : UnitId) : Bool :=
  match s.progress? u with
  | some (.running _) => true
  | _ => false

/-- `none` if that cannot happen. -/
def act (s : Supervisor) : Act → Option Supervisor
  | .actor i turn => s.actorStep i turn
  | .watch i j => s.watchStep i j
  | .supervise w => (s.supervise w).toOption
  | .stop name => some (s.stop name).2
  | .shutdown => some s.shutdown
  | .ready u => if s.isRunning u then some (s.markReady u.task) else none
  | .spawn u script => if s.isRunning u then some (s.addSubUnit u.task script) else none
  | .work u p => if s.isRunning u then some (s.setProgress u p) else none
  | .clock time => if s.now ≤ time then some { s with now := time } else none
  | .mail mailboxes => some { s with mailboxes }

theorem act_supervise {s s' : Supervisor} {w : Worker Action} :
    s.act (.supervise w) = some s' ↔ s.supervise w = .ok s' := by
  rw [act]
  cases s.supervise w with
  | ok r => simp [Except.toOption]
  | error e => simp [Except.toOption]

/-- `Run s past`: a run has come to `s` through the states `past`, newest first. -/
inductive Run : Supervisor → List Supervisor → Prop
  | start (backoff : Backoff) (now : Nat) (mailboxes : List Mailbox) : Run { backoff, now, mailboxes } []
  | move {s s' : Supervisor} {past : List Supervisor} (h : Run s past) {a : Act} (m : s.act a = some s') :
      Run s' (s :: past)

/-- One thing after the other. -/
def acts (s : Supervisor) (as : List Act) : Option Supervisor := as.foldlM act s

theorem Run.acts {s s' : Supervisor} {past : List Supervisor} (run : Run s past) {as : List Act}
    (h : s.acts as = some s') : ∃ past', Run s' past' := by
  refine kept_of_foldlM (P := fun s => ∃ past, Run s past) (fun m before => ?_) h ⟨past, run⟩
  obtain ⟨past, run⟩ := before
  exact ⟨_, run.move m⟩

/-- A run of a fresh supervisor, found by running it. -/
theorem exists_run {P : Supervisor → Bool} (as : List Act) (h : (({} : Supervisor).acts as).any P = true) :
    ∃ s past, Run s past ∧ P s = true := by
  obtain ⟨s, hs, p⟩ := (Option.any_eq_true _ _).1 h
  obtain ⟨past, run⟩ := (Run.start .standard 0 []).acts hs
  exact ⟨s, past, run, p⟩

/-- The events told of a registration, oldest first. -/
def published (s : Supervisor) (i : TaskId) : List Event :=
  (s.history.reverse.filter (·.source = some i)).map (·.published.event)

end Supervisor

end Switchyard
