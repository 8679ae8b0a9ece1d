import Switchyard.Proofs.Session
import Switchyard.Proofs.Supervision.Promptness

/-!
Systems that keep to the rule by which the clock is moved. Main statement: in their runs time waits for the supervisor.
-/
namespace Switchyard

namespace Supervisor

variable {s s' : Supervisor} {i : TaskId} {t : Task} {past : List Supervisor}

theorem Follows.now_le (h : Follows s s') : s.now ≤ s'.now := by
  induction h with
  | refl => exact Nat.le_refl _
  | tail _ m ih =>
    obtain ⟨a, m⟩ := m
    exact Nat.le_trans ih (act_effect m).now_le

/-- What happens in one instant leaves nothing waiting. -/
theorem Prompt.follows (run : Prompt s past) (h : Follows s s') (still : s'.now = s.now) :
    ∃ past', Prompt s' past' := by
  induction h with
  | refl => exact ⟨past, run⟩
  | @tail m s' before step ih =>
    obtain ⟨a, step⟩ := step
    -- the clock moves only forward, so it has not moved on the way
    have same : m.now = s.now := Nat.le_antisymm (still ▸ (act_effect step).now_le) (Follows.now_le before)
    obtain ⟨past', run'⟩ := ih same
    have timely : Timely m s' := fun later => absurd (still.trans same.symm) (Nat.ne_of_gt later)
    exact ⟨_, run'.move step timely⟩

theorem mem_wakeTimes_of_due {due : Nat} (h : due ∈ due? t) : due ∈ t.wakeTimes := by
  obtain ⟨e, phase⟩ := phase_of_due h
  simp [Task.wakeTimes, phase]

/-- While no loop can go on, every delay still lasts. -/
theorem Quiet.now_lt (quiet : s.Quiet) (h : s.task? i = some t) {due : Nat} (hd : due ∈ due? t) : s.now < due := by
  obtain ⟨e, phase⟩ := phase_of_due hd
  refine Nat.lt_of_not_le fun passed => ?_
  have goesOn : s.actorStep i .proceed = some (s.startAttempt i) := by
    simp [actorStep, h, phase, passed]
  exact Option.some_ne_none _ (goesOn.symm.trans (quiet i .proceed))

end Supervisor

namespace System

open Supervisor

/-- The systems that come about while the clock is moved only when nothing can happen, and not past the end of a sleep
or a delay. -/
inductive OnTime : System → Prop
  | start {s : System} {backoff : Backoff} {now : Nat} {mailboxes : List Mailbox}
      (h : s.supervisor = { backoff, now, mailboxes }) : OnTime s
  | step {s s' : System} {l : Label} (h : OnTime s) (m : s.step l = some s') : OnTime s'
  | clock {s : System} {time : Nat} (h : OnTime s) (settled : s.Settled) (later : s.supervisor.now ≤ time)
      (within : ∀ wake ∈ s.wakeTimes, s.supervisor.now < wake → time ≤ wake) : OnTime (s.setClock time)
  | call {s s' : System} (h : OnTime s) (m : Requests s.supervisor s'.supervisor) : OnTime s'

theorem OnTime.prompt {s : System} (h : OnTime s) : ∃ past, Prompt s.supervisor past := by
  induction h with
  | start fresh =>
    rw [fresh]
    exact ⟨[], .start ..⟩
  | step _ m ih =>
    obtain ⟨past, run⟩ := ih
    exact run.follows (step_follows m) (now_step m)
  | call _ m ih =>
    obtain ⟨past, run⟩ := ih
    exact run.follows m.follows m.now
  | @clock s time _ settled later within ih =>
    obtain ⟨past, run⟩ := ih
    have moved : s.supervisor.act (.clock time) = some { s.supervisor with now := time } := if_pos later
    have timely : Timely s.supervisor { s.supervisor with now := time } := fun _ => by
      refine ⟨settled.quiet, fun t mem due hd => ?_⟩
      obtain ⟨i, ht⟩ := List.getElem?_of_mem mem
      have waits : due ∈ s.wakeTimes := List.mem_flatMap.2 ⟨t, mem, mem_wakeTimes_of_due hd⟩
      exact within due waits (settled.quiet.now_lt ht hd)
    exact ⟨_, run.move moved timely⟩

end System

end Switchyard
