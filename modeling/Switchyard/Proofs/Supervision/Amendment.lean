import Switchyard.Proofs.Supervision.Run

/-!
Amending a supervisor: one registration is replaced and some events are told of it. Every view of the result is an
equation.
-/
namespace Switchyard.Supervisor

variable {s : Supervisor} {i k : TaskId} {t : Task} {es : List Event}

/-- Replaces registration `i` and publishes `es` for it. -/
def amend (s : Supervisor) (i : TaskId) (t : Task) (es : List Event) : Supervisor :=
  es.foldl (·.publish (some i)) { s with tasks := s.tasks.set i t }

/-- What the end of a task changes besides its registration. -/
def retire (s : Supervisor) (i : TaskId) (failure : Option Failure) : Supervisor :=
  { s with
    failures := s.failures ++ (failure.map (RecordedFailure.mk i s.now)).toList
    live := s.live - 1 }

/-- The entries of the history that `es` make. -/
def entries (s : Supervisor) (i : TaskId) (es : List Event) : List Logged :=
  (es.zipIdx s.nextSeq).map fun (e, n) => ⟨some i, ⟨n, s.now, e⟩⟩

theorem entries_cons (s : Supervisor) (i : TaskId) (e : Event) (es : List Event) :
    s.entries i (e :: es) =
      ⟨some i, ⟨s.nextSeq, s.now, e⟩⟩ :: ({ s with nextSeq := s.nextSeq + 1 } : Supervisor).entries i es := by
  simp only [entries, List.zipIdx_cons, List.map_cons]

/-! ### The parts of an amended supervisor -/

theorem amend_snoc (s : Supervisor) (i : TaskId) (t : Task) (es : List Event) (e : Event) :
    s.amend i t (es ++ [e]) = (s.amend i t es).publish (some i) e := by
  simp [amend]

theorem amend_eq (s : Supervisor) (i : TaskId) (t : Task) (es : List Event) :
    s.amend i t es =
      { s with
        tasks := s.tasks.set i t
        nextSeq := s.nextSeq + es.length
        history := (s.entries i es).reverse ++ s.history
        mailboxes := (s.amend i t es).mailboxes } := by
  suffices h : ∀ r : Supervisor, es.foldl (·.publish (some i)) r =
      { r with
        nextSeq := r.nextSeq + es.length
        history := (r.entries i es).reverse ++ r.history
        mailboxes := (es.foldl (·.publish (some i)) r).mailboxes } from h _
  induction es with
  | nil => intro r; rfl
  | cons e es ih =>
    intro r
    rw [List.foldl_cons, ih, entries_cons, List.reverse_cons, List.length_cons, List.append_assoc]
    simp only [publish, entries, List.cons_append, List.nil_append, Nat.add_assoc, Nat.add_comm 1]

section views
variable (s i t es)

theorem tasks_amend : (s.amend i t es).tasks = s.tasks.set i t := by rw [amend_eq]

theorem nextSeq_amend : (s.amend i t es).nextSeq = s.nextSeq + es.length := by rw [amend_eq]

theorem history_amend : (s.amend i t es).history = (s.entries i es).reverse ++ s.history := by rw [amend_eq]

@[simp] theorem backoff_amend : (s.amend i t es).backoff = s.backoff := by rw [amend_eq]

@[simp] theorem now_amend : (s.amend i t es).now = s.now := by rw [amend_eq]

@[simp] theorem registry_amend : (s.amend i t es).registry = s.registry := by rw [amend_eq]

@[simp] theorem registered_amend : (s.amend i t es).registered = s.registered := by rw [amend_eq]

@[simp] theorem live_amend : (s.amend i t es).live = s.live := by rw [amend_eq]

@[simp] theorem shuttingDown_amend : (s.amend i t es).shuttingDown = s.shuttingDown := by rw [amend_eq]

@[simp] theorem failures_amend : (s.amend i t es).failures = s.failures := by rw [amend_eq]

@[simp] theorem lookup_amend (name : String) : (s.amend i t es).lookup name = s.lookup name := by
  simp [lookup]

end views

theorem task?_amend_self (h : i < s.tasks.length) : (s.amend i t es).task? i = some t := by
  simp [task?, tasks_amend, h]

theorem task?_amend_of_ne (h : k ≠ i) : (s.amend i t es).task? k = s.task? k := by
  simp [task?, tasks_amend, Ne.symm h]

theorem lt_of_task? (h : s.task? i = some t) : i < s.tasks.length :=
  (List.getElem?_eq_some_iff.1 h).1

theorem isCancelled_of_task? (h : s.task? i = some t) : s.isCancelled i = (s.shuttingDown || t.stopRequested) := by
  simp [isCancelled, h]

theorem everReady_of_task? (h : s.task? i = some t) : s.everReady i = t.everReady := by
  simp [everReady, h]

/-! ### Operations on an amended supervisor amend it further -/

theorem amend_nil (h : s.task? i = some t) : s.amend i t [] = s := by
  obtain ⟨hi, rfl⟩ := List.getElem?_eq_some_iff.1 h
  simp only [amend, List.foldl_nil, List.set_getElem_self]

theorem modifyTask_amend (h : i < s.tasks.length) (f : Task → Task) :
    (s.amend i t es).modifyTask i f = s.amend i (f t) es := by
  have commutes : ∀ r : Supervisor,
      (es.foldl (·.publish (some i)) r).modifyTask i f = es.foldl (·.publish (some i)) (r.modifyTask i f) := by
    induction es with
    | nil => intro r; rfl
    | cons e es ih => intro r; exact ih _
  have replaced : (s.tasks.set i t).modify i f = s.tasks.set i (f t) := by
    apply List.ext_getElem?
    intro j
    by_cases hj : i = j
    · subst hj; simp [h]
    · simp [hj]
  rw [amend, commutes, modifyTask, replaced, amend]

theorem modifyTask_eq (h : s.task? i = some t) (f : Task → Task) : s.modifyTask i f = s.amend i (f t) [] := by
  rw [← modifyTask_amend (lt_of_task? h) f, amend_nil h]

theorem modifyTask_of_none (h : s.task? i = none) (f : Task → Task) : s.modifyTask i f = s := by
  rw [modifyTask, List.modify_eq_self (List.getElem?_eq_none_iff.1 h)]

theorem publishFor_amend (h : i < s.tasks.length) (e : Event) :
    (s.amend i t es).publishFor i e = s.amend i t (es ++ [{ e with task := some t.name }]) := by
  rw [publishFor, task?_amend_self h, amend_snoc, Option.map_some]

theorem transition_amend (h : i < s.tasks.length) (state : TaskState) (e : Event) :
    (s.amend i t es).transition i state e =
      s.amend i { t with state } (es ++ [{ e with task := some t.name }]) := by
  rw [transition, modifyTask_amend h, publishFor_amend h]
  rfl

theorem transition_eq (h : s.task? i = some t) (state : TaskState) (e : Event) :
    s.transition i state e = s.amend i { t with state } [{ e with task := some t.name }] := by
  have amended : (s.amend i t []).transition i state e = _ := transition_amend (lt_of_task? h) state e
  rwa [amend_nil h] at amended

theorem setPhase_amend (h : i < s.tasks.length) (phase : Phase) :
    (s.amend i t es).setPhase i phase = s.amend i { t with phase } es :=
  modifyTask_amend h _

private theorem terminate_retire (h : s.task? i = some t) (error : Option TaskError) :
    s.terminate i error =
      ((s.transition i .terminated { kind := .taskTerminated }).setPhase i .done).retire i
        (error.map (⟨t.name, ·⟩)) := by
  have recorded : (error.bind fun e => (s.task? i).map fun t => RecordedFailure.mk i s.now ⟨t.name, e⟩) =
      (error.map (⟨t.name, ·⟩)).map (RecordedFailure.mk i s.now) := by
    cases error <;> simp [h]
  simp only [terminate, recorded]
  rfl

theorem terminate_amend (h : i < s.tasks.length) (error : Option TaskError) :
    (s.amend i t es).terminate i error =
      (s.amend i { t with state := .terminated, phase := .done }
        (es ++ [{ kind := .taskTerminated, task := some t.name }])).retire i (error.map (⟨t.name, ·⟩)) := by
  rw [terminate_retire (task?_amend_self h), transition_amend h, setPhase_amend h]

theorem terminate_eq (h : s.task? i = some t) (error : Option TaskError) :
    s.terminate i error =
      (s.amend i { t with state := .terminated, phase := .done }
        [{ kind := .taskTerminated, task := some t.name }]).retire i (error.map (⟨t.name, ·⟩)) := by
  have amended : (s.amend i t []).terminate i error = _ := terminate_amend (lt_of_task? h) error
  rwa [amend_nil h] at amended

theorem markReady_amend (h : i < s.tasks.length) :
    (s.amend i t es).markReady i =
      if t.state = .running then
        s.amend i { t with state := .ready, readyInAttempt := true, everReady := true }
          (es ++ [{ kind := .taskReady, task := some t.name }])
      else s.amend i t es := by
  rw [markReady, task?_amend_self h, transition_amend h, modifyTask_amend h]
  simp

theorem markReady_cases (s : Supervisor) (i : TaskId) :
    s.markReady i = s ∨ ∃ t, s.task? i = some t ∧ t.state = .running ∧
      s.markReady i = s.amend i { t with state := .ready, readyInAttempt := true, everReady := true }
        [{ kind := .taskReady, task := some t.name }] := by
  cases h : s.task? i with
  | none =>
    left
    rw [markReady, h, Option.any_none, if_neg Bool.false_ne_true]
  | some t =>
    have amended : (s.amend i t []).markReady i = _ := markReady_amend (lt_of_task? h)
    rw [amend_nil h] at amended
    by_cases running : t.state = .running
    · exact .inr ⟨t, rfl, running, by rw [amended, if_pos running]; rfl⟩
    · exact .inl (by rw [amended, if_neg running])

/-! ### The parts of a supervisor that has asked all tasks to stop -/

theorem tasks_shutdown : s.shutdown.tasks = s.tasks := by
  unfold Supervisor.shutdown
  split <;> rfl

theorem registry_shutdown : s.shutdown.registry = s.registry := by
  unfold Supervisor.shutdown
  split <;> rfl

theorem backoff_shutdown : s.shutdown.backoff = s.backoff := by
  unfold Supervisor.shutdown
  split <;> rfl

theorem now_shutdown : s.shutdown.now = s.now := by
  unfold Supervisor.shutdown
  split <;> rfl

theorem shuttingDown_shutdown : s.shutdown.shuttingDown = true := by
  unfold Supervisor.shutdown
  split
  next down => exact down
  next => rfl

theorem task?_shutdown : s.shutdown.task? k = s.task? k := by
  rw [task?, tasks_shutdown, task?]

theorem stop_cases (s : Supervisor) (name : String) :
    (s.stop name).2 = s ∨ ∃ i t, s.task? i = some t ∧
      (s.stop name).2 = s.amend i { t with stopRequested := true } [] := by
  unfold Supervisor.stop
  split
  next i found =>
    split
    next => exact .inl rfl
    next =>
      cases h : s.task? i with
      | none => exact .inl (modifyTask_of_none h _)
      | some t => exact .inr ⟨i, t, h, modifyTask_eq h _⟩
  next => exact .inl rfl

end Switchyard.Supervisor
