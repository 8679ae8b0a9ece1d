import Mathlib.Logic.Relation
import Switchyard.Proofs.Supervision.Requirements
import Switchyard.System

/-!
What a system does is something that its supervisor may do. Main statement: the supervisor of a system that comes
about by steps, by time going on and by calls from outside has come about by a run.
-/
namespace Switchyard

namespace Supervisor

variable {s s' : Supervisor} {i : TaskId} {t t' : Task} {es : List Event} {past : List Supervisor} {u : UnitId}

/-- One supervisor becomes another by things that may happen. -/
def Follows : Supervisor → Supervisor → Prop := Relation.ReflTransGen fun s s' => ∃ a, s.act a = some s'

/-- What anybody may ask for at any time. -/
def Act.isRequest : Act → Bool
  | .supervise _ | .stop _ | .shutdown => true
  | _ => false

def Requests : Supervisor → Supervisor → Prop :=
  Relation.ReflTransGen fun s s' => ∃ a, a.isRequest = true ∧ s.act a = some s'

/-- One supervisor becomes another, and no mailbox is touched but by telling of something. -/
def Advances : Supervisor → Supervisor → Prop :=
  Relation.ReflTransGen fun s s' => ∃ a, a.isMail = false ∧ s.act a = some s'

theorem Advances.follows (h : Advances s s') : Follows s s' := by
  induction h with
  | refl => exact .refl
  | tail _ m ih =>
    obtain ⟨a, _, m⟩ := m
    exact ih.tail ⟨a, m⟩

theorem Act.not_mail_of_isRequest {a : Act} (request : a.isRequest = true) : a.isMail = false := by
  cases a with
  | mail => cases request
  | _ => rfl

theorem Requests.advances (h : Requests s s') : Advances s s' := by
  induction h with
  | refl => exact .refl
  | tail _ m ih =>
    obtain ⟨a, request, m⟩ := m
    exact ih.tail ⟨a, Act.not_mail_of_isRequest request, m⟩

theorem Requests.follows (h : Requests s s') : Follows s s' := h.advances.follows

theorem Run.follows (run : Run s past) (h : Follows s s') : ∃ past', Run s' past' := by
  induction h with
  | refl => exact ⟨past, run⟩
  | tail _ m ih =>
    obtain ⟨a, m⟩ := m
    obtain ⟨past, run⟩ := ih
    exact ⟨_, run.move m⟩

/-! ### Running units go on running when somebody asks for something -/

theorem isRunning_iff :
    s.isRunning u = true ↔ ∃ t w, s.task? u.task = some t ∧ t.unit? u.sub = some (.running w) := by
  refine ⟨task?_of_isRunning, fun h => ?_⟩
  obtain ⟨t, w, ht, running⟩ := h
  rw [← progress?_eq ht] at running
  simp [isRunning, running]

theorem progress?_setProgress (running : s.isRunning u = true) (p : Progress) :
    (s.setProgress u p).progress? u = some p := by
  obtain ⟨t, w, ht, running⟩ := isRunning_iff.1 running
  rw [setProgress, modifyTask_eq ht, progress?_eq (task?_amend_self (lt_of_task? ht))]
  cases sub : u.sub with
  | none => rfl
  | some j =>
    rw [sub] at running
    obtain ⟨v, hv, progress⟩ := Option.bind_eq_some_iff.1 running
    obtain ⟨watched, _⟩ := Option.ite_none_left_eq_some.1 progress
    simp [Task.unit?, hv, watched]

theorem isRunning_amend (h : s.task? i = some t)
    (kept : ∀ sub w, t.unit? sub = some (.running w) → t'.unit? sub = some (.running w))
    (running : s.isRunning u = true) : (s.amend i t' es).isRunning u = true := by
  rw [isRunning_iff] at running ⊢
  obtain ⟨v, w, hv, running⟩ := running
  by_cases same : u.task = i
  · rw [same, h] at hv
    cases hv
    exact ⟨t', w, by rw [same, task?_amend_self (lt_of_task? h)], kept _ _ running⟩
  · exact ⟨v, w, by rw [task?_amend_of_ne same, hv], running⟩

theorem isRunning_markReady (running : s.isRunning u = true) : (s.markReady i).isRunning u = true := by
  rcases markReady_cases s i with same | ⟨t, h, _, amended⟩
  · rwa [same]
  · rw [amended]
    exact isRunning_amend h (fun sub _ unit => by cases sub <;> exact unit) running

theorem isRunning_addSubUnit (script : Script) (running : s.isRunning u = true) :
    (s.addSubUnit i script).isRunning u = true := by
  cases h : s.task? i with
  | none => rwa [addSubUnit, modifyTask_of_none h]
  | some t =>
    rw [addSubUnit, modifyTask_eq h]
    refine isRunning_amend h (fun sub w unit => ?_) running
    cases sub with
    | none => exact unit
    | some j =>
      obtain ⟨v, hv, progress⟩ := Option.bind_eq_some_iff.1 unit
      have old : j < t.subUnits.length := (List.getElem?_eq_some_iff.1 hv).1
      rw [Task.unit?, List.getElem?_append_left old, hv]
      exact progress

theorem isRunning_stop (name : String) (running : s.isRunning u = true) : (s.stop name).2.isRunning u = true := by
  rcases stop_cases s name with same | ⟨i, t, h, amended⟩
  · rwa [same]
  · rw [amended]
    exact isRunning_amend h (fun sub _ unit => by cases sub <;> exact unit) running

theorem isRunning_supervise {w : Worker Action} (h : s.supervise w = .ok s') (running : s.isRunning u = true) :
    s'.isRunning u = true := by
  rw [isRunning_iff] at running ⊢
  obtain ⟨t, w, ht, running⟩ := running
  exact ⟨t, w, by rw [task?_supervise h, if_neg (Nat.ne_of_lt (lt_of_task? ht)), ht], running⟩

theorem isRunning_shutdown (running : s.isRunning u = true) : s.shutdown.isRunning u = true := by
  unfold Supervisor.shutdown
  split
  · exact running
  · exact running

theorem Requests.isRunning (h : Requests s s') (running : s.isRunning u = true) : s'.isRunning u = true := by
  induction h with
  | refl => exact running
  | tail _ m ih =>
    obtain ⟨a, request, m⟩ := m
    cases a with
    | supervise w => exact isRunning_supervise (act_supervise.1 m) ih
    | stop name =>
      cases m
      exact isRunning_stop name ih
    | shutdown =>
      cases m
      exact isRunning_shutdown ih
    | _ => cases request

end Supervisor

namespace Reconciler

open Supervisor

theorem gather_requests (watched : List String) (specs : List WatchSpec) (report : ReconcileReport) (s : Supervisor) :
    Requests s (gather watched specs report s).2 := by
  induction specs generalizing report s with
  | nil => exact .refl
  | cons spec specs ih =>
    simp only [gather]
    split
    next => exact ih _ _
    next =>
      split
      next => exact ih _ _
      next =>
        split
        next => exact ih _ _
        next w _ =>
          split
          next => exact ih _ _
          next registered => exact .head ⟨.supervise _, rfl, act_supervise.2 registered⟩ (ih _ _)

theorem begin_requests (r : Reconciler) (s : Supervisor) (specs : List WatchSpec) : Requests s (r.begin s specs).2 := by
  have stops (names : List String) (s : Supervisor) : Requests s (names.foldl (fun s n => (s.stop n).2) s) := by
    induction names generalizing s with
    | nil => exact .refl
    | cons n names ih => exact .head ⟨.stop n, rfl, rfl⟩ (ih _)
  exact (gather_requests r.watched specs {} s).trans (stops _ _)

end Reconciler

namespace System

open Supervisor

variable {s s' : System} {u : UnitId}

theorem receive_requests {feed : Nat} {r : Reaction} (h : s.receive feed = some (s', r)) :
    Requests s.supervisor s'.supervisor := by
  obtain ⟨f, _, h⟩ := Option.bind_eq_some_iff.1 h
  split at h
  next =>
    cases h
    exact f.reconciler.begin_requests s.supervisor _
  next =>
    obtain ⟨_, h⟩ := Option.ite_none_left_eq_some.1 h
    cases h
    exact .refl

/-- All that an action does to the supervisor. -/
theorem perform_supervisor {a : Action} {r : Reaction} (h : s.perform u a = some (s', r)) :
    Requests s.supervisor s'.supervisor ∨ s'.supervisor = s.supervisor.markReady u.task ∨
      ∃ script, s'.supervisor = s.supervisor.addSubUnit u.task script := by
  cases a with
  | ready =>
    cases h
    exact .inr (.inl rfl)
  | spawn script =>
    cases h
    exact .inr (.inr ⟨script, rfl⟩)
  | shutdown =>
    cases h
    exact .inl (.single ⟨.shutdown, rfl, rfl⟩)
  | stop name =>
    cases h
    exact .inl (.single ⟨.stop name, rfl, rfl⟩)
  | supervise w =>
    left
    rw [perform] at h
    split at h
    next sup registered =>
      cases h
      exact .single ⟨.supervise w, rfl, act_supervise.2 registered⟩
    next =>
      cases h
      exact .refl
  | receive feed => exact .inl (receive_requests h)
  | settling feed =>
    left
    obtain ⟨f, _, h⟩ := Option.bind_eq_some_iff.1 h
    obtain ⟨r, _, h⟩ := Option.bind_eq_some_iff.1 h
    cases h
    exact .refl
  | forever => cases h
  | applying es =>
    left
    cases es <;> cases h <;> exact .refl
  | _ =>
    -- the rest goes to the store, the redirector, its lock or the notes
    left
    simp only [perform] at h
    repeat' split at h
    all_goals cases h
    all_goals exact .refl

/-- What a turn of a unit comes to. -/
inductive UnitStepped (s : System) (u : UnitId) : UnitTurn → System → Prop
  | proceed {w : Work} {s₁ : System} {r : Reaction} (here : s.supervisor.progress? u = some (.running w))
      (performed : s.perform u w.next = some (s₁, r)) :
      UnitStepped s u .proceed (s₁.onSupervisor (·.setProgress u (w.resume r)))
  | cancel {w : Work} {r : Reaction} (here : s.supervisor.progress? u = some (.running w))
      (asked : onCancel w.next = some r) (cancelled : s.supervisor.attemptCancelled u.task = true) :
      UnitStepped s u .cancel (s.onSupervisor (·.setProgress u (w.resume r)))
  | abandon {depth : Nat} {w w' : Work} (here : s.supervisor.progress? u = some (.running w))
      (left : w.abandon depth = some w') (cancelled : s.supervisor.attemptCancelled u.task = true) :
      UnitStepped s u (.abandon depth) ((s.release u).onSupervisor (·.setProgress u (.running w')))

theorem unitStep_cases {turn : UnitTurn} (h : s.unitStep u turn = some s') : UnitStepped s u turn s' := by
  obtain ⟨p, here, h⟩ := Option.bind_eq_some_iff.1 h
  cases p with
  | ended e => cases h
  | running w =>
    cases turn with
    | proceed =>
      obtain ⟨⟨s₁, r⟩, performed, h⟩ := Option.bind_eq_some_iff.1 h
      cases h
      exact .proceed here performed
    | cancel =>
      obtain ⟨r, asked, h⟩ := Option.bind_eq_some_iff.1 h
      obtain ⟨cancelled, h⟩ := Option.ite_none_right_eq_some.1 h
      cases h
      exact .cancel here asked cancelled
    | abandon depth =>
      obtain ⟨w', left, h⟩ := Option.bind_eq_some_iff.1 h
      obtain ⟨cancelled, h⟩ := Option.ite_none_right_eq_some.1 h
      cases h
      exact .abandon here left cancelled

theorem UnitStepped.isRunning {turn : UnitTurn} (h : UnitStepped s u turn s') : s.supervisor.isRunning u = true := by
  cases h <;> simp [Supervisor.isRunning, *]

/-- What a step comes to. -/
inductive Stepped (s : System) : Label → System → Prop
  | actor {i : TaskId} {turn : Turn} {sup : Supervisor} (turns : s.supervisor.actorStep i turn = some sup) :
      Stepped s (.actor i turn) { s with supervisor := sup }
  | unit {u : UnitId} {turn : UnitTurn} {s' : System} (turns : s.unitStep u turn = some s') :
      Stepped s (.unit u turn) s'
  | watch {i : TaskId} {j : Nat} {sup : Supervisor} (turns : s.supervisor.watchStep i j = some sup) :
      Stepped s (.watch i j) { s with supervisor := sup }
  | deliver {box : Nat} {m m' : Mailbox} (there : s.supervisor.mailboxes[box]? = some m) (taken : m.deliver = some m') :
      Stepped s (.deliver box) (s.onSupervisor fun sup => { sup with mailboxes := sup.mailboxes.set box m' })
  | reconciler {r : Reconciler} (advanced : s.reconciler.advance s.supervisor = some r) :
      Stepped s .reconciler { s with reconciler := r }

theorem step_cases {l : Label} (h : s.step l = some s') : Stepped s l s' := by
  cases l with
  | actor i turn =>
    obtain ⟨sup, turns, rfl⟩ := Option.map_eq_some_iff.1 h
    exact .actor turns
  | unit u turn => exact .unit h
  | watch i j =>
    obtain ⟨sup, turns, rfl⟩ := Option.map_eq_some_iff.1 h
    exact .watch turns
  | deliver box =>
    obtain ⟨m, there, h⟩ := Option.bind_eq_some_iff.1 h
    obtain ⟨m', taken, h⟩ := Option.bind_eq_some_iff.1 h
    cases h
    exact .deliver there taken
  | reconciler =>
    obtain ⟨r, advanced, rfl⟩ := Option.map_eq_some_iff.1 h
    exact .reconciler advanced

theorem unitStep_advances {turn : UnitTurn} (h : s.unitStep u turn = some s') :
    Advances s.supervisor s'.supervisor := by
  have works {sup : Supervisor} (running : sup.isRunning u = true) (p : Progress) :
      sup.act (.work u p) = some (sup.setProgress u p) := if_pos running
  have turned := unitStep_cases h
  have running := turned.isRunning
  cases turned with
  | @proceed w r reaction here performed =>
    -- what the action asks for comes first, then the unit goes on
    rcases perform_supervisor performed with requests | ready | ⟨script, spawn⟩
    · exact requests.advances.tail ⟨_, rfl, works (requests.isRunning running) _⟩
    · have running' : r.supervisor.isRunning u = true := by
        rw [ready]
        exact isRunning_markReady running
      have marks : s.supervisor.act (.ready u) = some r.supervisor := by rw [act, if_pos running, ready]
      exact .tail (.single ⟨_, rfl, marks⟩) ⟨_, rfl, works running' _⟩
    · have running' : r.supervisor.isRunning u = true := by
        rw [spawn]
        exact isRunning_addSubUnit script running
      have spawns : s.supervisor.act (.spawn u script) = some r.supervisor := by rw [act, if_pos running, spawn]
      exact .tail (.single ⟨_, rfl, spawns⟩) ⟨_, rfl, works running' _⟩
  | cancel => exact .single ⟨_, rfl, works running _⟩
  | abandon => exact .single ⟨_, rfl, works running _⟩

theorem unitStep_follows {turn : UnitTurn} (h : s.unitStep u turn = some s') :
    Follows s.supervisor s'.supervisor := (unitStep_advances h).follows

theorem step_follows {l : Label} (h : s.step l = some s') : Follows s.supervisor s'.supervisor := by
  cases step_cases h with
  | actor turns => exact .single ⟨.actor _ _, turns⟩
  | unit turns => exact unitStep_follows turns
  | watch turns => exact .single ⟨.watch _ _, turns⟩
  | deliver => exact .single ⟨.mail _, rfl⟩
  | reconciler => exact .refl

/-- The systems that come about. A caller from outside may ask the supervisor for anything, and change the rest at
will. -/
inductive Reached : System → Prop
  | start {s : System} {backoff : Backoff} {now : Nat} {mailboxes : List Mailbox}
      (h : s.supervisor = { backoff, now, mailboxes }) : Reached s
  | step {s s' : System} {l : Label} (h : Reached s) (m : s.step l = some s') : Reached s'
  | clock {s : System} {time : Nat} (h : Reached s) (later : s.supervisor.now ≤ time) : Reached (s.setClock time)
  | call {s s' : System} (h : Reached s) (m : Requests s.supervisor s'.supervisor) : Reached s'

theorem Reached.run (h : Reached s) : ∃ past, Run s.supervisor past := by
  induction h with
  | start fresh =>
    rw [fresh]
    exact ⟨[], .start ..⟩
  | step _ m ih =>
    obtain ⟨past, run⟩ := ih
    exact run.follows (step_follows m)
  | clock _ later ih =>
    obtain ⟨past, run⟩ := ih
    exact run.follows (.single ⟨.clock _, if_pos later⟩)
  | call _ m ih =>
    obtain ⟨past, run⟩ := ih
    exact run.follows m.follows

/-- Workers registered one after the other, and then steps. -/
def launch (workers : List (Worker Action)) (labels : List Label) : Option System := do
  let supervisor ← workers.foldlM (fun s w => (s.supervise w).toOption) ({} : Supervisor)
  labels.foldlM step { (default : System) with supervisor }

theorem Reached.steps (reached : s.Reached) {labels : List Label} (h : labels.foldlM System.step s = some s') :
    s'.Reached :=
  kept_of_foldlM (P := Reached) (fun m before => before.step m) h reached

theorem reached_of_launch {workers : List (Worker Action)} {labels : List Label} (h : launch workers labels = some s) :
    s.Reached := by
  obtain ⟨supervisor, registered, h⟩ := Option.bind_eq_some_iff.1 h
  have asked : Requests {} supervisor :=
    kept_of_foldlM (P := Requests {}) (fun m before => before.tail ⟨.supervise _, rfl, m⟩) registered .refl
  have fresh : ({} : Supervisor) = { backoff := .standard, now := 0, mailboxes := [] } := rfl
  have begun : Reached { (default : System) with supervisor := {} } := .start fresh
  have registered : Reached { (default : System) with supervisor } := begun.call asked
  exact registered.steps h

/-- A system that comes about, found by running it. -/
theorem exists_reached {P : System → Bool} (workers : List (Worker Action)) (labels : List Label)
    (h : (launch workers labels).any P = true) : ∃ s, s.Reached ∧ P s = true := by
  obtain ⟨s, hs, p⟩ := (Option.any_eq_true _ _).1 h
  exact ⟨s, reached_of_launch hs, p⟩

/-- When nothing can happen, no loop can go on. -/
theorem Settled.quiet (h : s.Settled) : s.supervisor.Quiet :=
  fun i turn => Option.map_eq_none_iff.1 (h (.actor i turn))

end System

end Switchyard
