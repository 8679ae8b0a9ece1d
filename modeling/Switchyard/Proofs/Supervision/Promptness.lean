import Switchyard.Proofs.Supervision.Requirements

/-!
Runs in which time waits for the supervisor. Main statement: while a delay lasts, its end has not been passed, and the
task was not asked to stop at an earlier instant.
-/
namespace Switchyard.Supervisor

variable {s s' : Supervisor} {i : TaskId} {t t' : Task} {es : List Event} {past : List Supervisor} {m : Supervisor}

/-! ### Events with their times -/

/-- What has been told of a registration, oldest first. -/
def told (s : Supervisor) (i : TaskId) : List Published :=
  (s.history.reverse.filter (·.source = some i)).map (·.published)

theorem map_event_told (s : Supervisor) (i : TaskId) : (s.told i).map (·.event) = s.published i := by
  simp [told, published]

theorem Effect.told (e : Effect s s') (k : TaskId) :
    ∃ news, s'.told k = s.told k ++ news ∧ ∀ p ∈ news, p.time = s.now := by
  obtain ⟨new, grown, _, fresh⟩ := e.history
  refine ⟨(new.reverse.filter (·.source = some k)).map (·.published), by simp [Supervisor.told, grown], fun p hp => ?_⟩
  obtain ⟨l, hl, rfl⟩ := List.mem_map.1 hp
  exact (fresh l (List.mem_reverse.1 (List.mem_filter.1 hl).1)).2.2

/-- The clock moves alone. -/
theorem Effect.clock (e : Effect s s') :
    s'.now = s.now ∨ s.now ≤ s'.now ∧ s'.tasks = s.tasks ∧ s'.history = s.history := by
  cases e with
  | goes => exact .inl (now_amend ..)
  | ends => exact .inl (now_amend ..)
  | supervise h => exact .inl (by rw [supervise_eq h])
  | shutdown down => exact .inl (by rw [shutdown_eq down]; rfl)
  | aside later => exact .inr ⟨later, rfl, rfl⟩

theorem Effect.now_le (e : Effect s s') : s.now ≤ s'.now := by
  rcases e.clock with same | ⟨later, _⟩
  · exact Nat.le_of_eq same.symm
  · exact later

/-- A registration in a move, with what is told of it then. -/
theorem Effect.course (e : Effect s s') (h : s.task? i = some t) (h' : s'.task? i = some t') :
    ∃ news, s'.told i = s.told i ++ news ∧ (∀ p ∈ news, p.time = s.now) ∧
      (t' = t ∧ news = [] ∨ s'.now = s.now ∧ (Goes s i t t' (news.map (·.event)) ∨
        ∃ error, Ends s i t t' (news.map (·.event)) error)) := by
  rcases e.clock with now | ⟨_, tasks, history⟩
  · obtain ⟨news, grown, times⟩ := e.told i
    refine ⟨news, grown, times, ?_⟩
    have told : s'.published i = s.published i ++ news.map (·.event) := by
      rw [← map_event_told, grown, List.map_append, map_event_told]
    cases e.fate h' with
    | new none => exact absurd (h.symm.trans none) nofun
    | same old same =>
      cases h.symm.trans old
      exact .inl ⟨rfl, List.map_eq_nil_iff.1 (List.append_right_eq_self.1 (told.symm.trans same))⟩
    | goes old g same =>
      cases h.symm.trans old
      rw [← List.append_cancel_left (same.symm.trans told)]
      exact .inr ⟨now, .inl g⟩
    | ends old d same =>
      cases h.symm.trans old
      rw [← List.append_cancel_left (same.symm.trans told)]
      exact .inr ⟨now, .inr ⟨_, d⟩⟩
  · refine ⟨[], by rw [Supervisor.told, Supervisor.told, history, List.append_nil], nofun, .inl ⟨?_, rfl⟩⟩
    rw [Supervisor.task?, tasks] at h'
    exact Option.some.inj (h'.symm.trans h)

/-! ### Time -/

theorem Run.isCancelled_of_mem (run : Run s past) (hm : m ∈ past) (h : m.isCancelled i = true) :
    s.isCancelled i = true :=
  run.since (P := fun s => s.isCancelled i = true) (fun _ _ e => e.isCancelled) hm h

/-- When the delay of a task is over. -/
def due? (t : Task) : Option Nat :=
  match t.phase with
  | .delayed time _ => some time
  | _ => none

theorem phase_of_due {due : Nat} (h : due ∈ due? t) : ∃ e, t.phase = .delayed due e := by
  cases phase : t.phase with
  | delayed time e =>
    rw [due?, phase] at h
    cases h
    exact ⟨e, rfl⟩
  | _ =>
    rw [due?, phase] at h
    cases h

/-- Time goes on only when no loop can, and not past the end of a delay. -/
def Timely (s s' : Supervisor) : Prop :=
  s.now < s'.now → s.Quiet ∧ ∀ t ∈ s.tasks, ∀ time ∈ due? t, s'.now ≤ time

instance : Decidable (Timely s s') := inferInstanceAs (Decidable (_ → _))

/-- A run in which every loop goes on as soon as it can. -/
inductive Prompt : Supervisor → List Supervisor → Prop
  | start (backoff : Backoff) (now : Nat) (mailboxes : List Mailbox) : Prompt { backoff, now, mailboxes } []
  | move {s s' : Supervisor} {past : List Supervisor} (h : Prompt s past) {a : Act} (m : s.act a = some s')
      (timely : Timely s s') : Prompt s' (s :: past)

theorem Prompt.run (run : Prompt s past) : Run s past := by
  induction run with
  | start backoff now mailboxes => exact .start backoff now mailboxes
  | move _ m _ ih => exact ih.move m

/-- A run that is prompt, found by running it. -/
def promptly (s : Supervisor × List Supervisor) (a : Act) : Option (Supervisor × List Supervisor) :=
  ((s.1.act a).filter fun s' => Timely s.1 s').map (·, s.1 :: s.2)

theorem Prompt.acts (run : Prompt s past) {as : List Act} {past' : List Supervisor}
    (h : as.foldlM promptly (s, past) = some (s', past')) : Prompt s' past' := by
  refine kept_of_foldlM (P := fun x => Prompt x.1 x.2) (fun step run => ?_) h run
  obtain ⟨r, hr, moved⟩ := Option.map_eq_some_iff.1 step
  cases moved
  obtain ⟨m, timely⟩ := Option.filter_eq_some_iff.1 hr
  exact run.move m (of_decide_eq_true timely)

theorem exists_prompt {P : Supervisor × List Supervisor → Bool} (backoff : Backoff) (as : List Act)
    (h : (as.foldlM promptly ({ backoff }, [])).any P = true) : ∃ s past, Prompt s past ∧ P (s, past) = true := by
  obtain ⟨⟨s, past⟩, hs, p⟩ := (Option.any_eq_true _ _).1 h
  exact ⟨s, past, (Prompt.start backoff 0 []).acts hs, p⟩

/-- What is known of the time while a task waits for the end of a delay. -/
def Waiting (s : Supervisor) (past : List Supervisor) (i : TaskId) (due : Nat) : Prop :=
  s.now ≤ due ∧ ∀ m ∈ past, m.now < s.now → m.isCancelled i = false

theorem Waiting.begin (run : Run s past) (alive : s.isCancelled i = false) {due : Nat} (within : s'.now ≤ due) :
    Waiting s' (s :: past) i due := by
  refine ⟨within, fun m hm _ => Bool.eq_false_iff.2 fun stop => ?_⟩
  rcases List.mem_cons.1 hm with rfl | hm
  · exact absurd (stop.symm.trans alive) Bool.noConfusion
  · exact absurd ((run.isCancelled_of_mem hm stop).symm.trans alive) Bool.noConfusion

theorem Waiting.move {due : Nat} (w : Waiting s past i due) (run : Run s past) (e : Effect s s')
    (timely : Timely s s') (ht : s.task? i = some t) {error : TaskError} (phase : t.phase = .delayed due error) :
    Waiting s' (s :: past) i due := by
  rcases Nat.eq_or_lt_of_le e.now_le with same | later
  · refine ⟨same ▸ w.1, fun m hm before => ?_⟩
    rw [← same] at before
    rcases List.mem_cons.1 hm with rfl | hm
    · exact absurd before (Nat.lt_irrefl _)
    · exact w.2 m hm before
  · obtain ⟨quiet, bound⟩ := timely later
    have waits : due ∈ due? t := by
      rw [due?, phase]
      rfl
    exact .begin run (quiet.alive ht (.inr ⟨due, error, phase⟩)) (bound t (List.mem_of_getElem? ht) due waits)

end Switchyard.Supervisor
