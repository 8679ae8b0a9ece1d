import Switchyard.Proofs.Supervision.Grammar

/-!
What the history, the registry and the marks of readiness have to do with each other in every run.
-/
namespace Switchyard.Supervisor

variable {s s' : Supervisor} {i j k : TaskId} {t t' : Task} {es : List Event} {past : List Supervisor} {l : Logged}

/-! ### The history only grows, and its numbers with it -/

theorem seq_of_mem_entries (h : l ∈ s.entries i es) :
    s.nextSeq ≤ l.published.seq ∧ l.published.seq < s.nextSeq + es.length := by
  obtain ⟨⟨e, n⟩, hn, rfl⟩ := List.mem_map.1 h
  have range := List.mem_zipIdx hn
  exact ⟨range.1, range.2.1⟩

theorem time_of_mem_entries (h : l ∈ s.entries i es) : l.published.time = s.now := by
  obtain ⟨_, _, rfl⟩ := List.mem_map.1 h
  rfl

/-- A move tells what it tells at the time it finds. -/
theorem Effect.history (e : Effect s s') : ∃ new, s'.history = new ++ s.history ∧ s.nextSeq ≤ s'.nextSeq ∧
    ∀ l ∈ new, s.nextSeq ≤ l.published.seq ∧ l.published.seq < s'.nextSeq ∧ l.published.time = s.now := by
  have amended (i : TaskId) (t : Task) (es : List Event) : ∃ new, (s.amend i t es).history = new ++ s.history ∧
      s.nextSeq ≤ (s.amend i t es).nextSeq ∧ ∀ l ∈ new, s.nextSeq ≤ l.published.seq ∧
        l.published.seq < (s.amend i t es).nextSeq ∧ l.published.time = s.now := by
    refine ⟨(s.entries i es).reverse, history_amend s i t es, ?_, fun l hl => ?_⟩
    · rw [nextSeq_amend]
      exact Nat.le_add_right _ _
    · have entry := List.mem_reverse.1 hl
      obtain ⟨later, before⟩ := seq_of_mem_entries entry
      rw [nextSeq_amend]
      exact ⟨later, before, time_of_mem_entries entry⟩
  cases e with
  | goes => exact amended _ _ _
  | ends => exact amended _ _ _
  | @supervise w _ h =>
    rw [supervise_eq h]
    exact ⟨[_], rfl, Nat.le_succ _, by simp⟩
  | shutdown down =>
    rw [shutdown_eq down]
    exact ⟨[_], rfl, Nat.le_succ _, by simp [publish]⟩
  | aside => exact ⟨[], rfl, Nat.le_refl _, by simp⟩

theorem Run.seq_lt (run : Run s past) (h : l ∈ s.history) : l.published.seq < s.nextSeq := by
  induction run with
  | start => cases h
  | move run m ih =>
    obtain ⟨new, grown, later, fresh⟩ := (act_effect m).history
    rw [grown] at h
    rcases List.mem_append.1 h with h | h
    · exact (fresh l h).2.1
    · exact Nat.lt_of_lt_of_le (ih h) later

theorem mem_published {e : Event} :
    e ∈ s.published k ↔ ∃ l ∈ s.history, l.source = some k ∧ l.published.event = e := by
  simp [published, and_assoc]

/-- Entries new in a move are among what the move tells of their registration. -/
theorem mem_told {new : List Logged} (grown : s'.history = new ++ s.history)
    (told : s'.published k = s.published k ++ es) (h : l ∈ new) (source : l.source = some k) :
    l.published.event ∈ es := by
  have split : s'.published k =
      s.published k ++ (new.reverse.filter (·.source = some k)).map (·.published.event) := by
    simp [published, grown]
  rw [List.append_cancel_left (told.symm.trans split)]
  exact List.mem_map.2 ⟨l, List.mem_filter.2 ⟨List.mem_reverse.2 h, decide_eq_true source⟩, rfl⟩

/-! ### The registry -/

theorem lookup_supervise {w : Worker Action} (h : s.supervise w = .ok s') (r : String) :
    s'.lookup r = if r = w.name then some s.tasks.length else s.lookup r := by
  rw [supervise_eq h, lookup, lookup]
  split
  next same => rw [same, Dictionary.find?_insert_self]
  next other => rw [Dictionary.find?_insert_of_ne _ _ other]

/-- Only a registration changes the registry, and it is counted. -/
theorem Effect.registry (e : Effect s s') :
    (s'.registered = s.registered ∧ s'.tasks.length = s.tasks.length ∧ ∀ r, s'.lookup r = s.lookup r) ∨
      (s'.registered = s.registered + 1 ∧ ∃ w, s.supervise w = .ok s') := by
  have amended (i : TaskId) (t : Task) (es : List Event) : (s.amend i t es).tasks.length = s.tasks.length := by
    rw [tasks_amend, List.length_set]
  cases e with
  | goes => exact .inl ⟨registered_amend .., amended _ _ _, fun _ => lookup_amend ..⟩
  | ends => exact .inl ⟨registered_amend .., amended _ _ _, fun _ => lookup_amend ..⟩
  | @supervise w _ h => exact .inr ⟨by rw [supervise_eq h], w, h⟩
  | shutdown down =>
    rw [shutdown_eq down]
    exact .inl ⟨rfl, rfl, fun _ => rfl⟩
  | aside => exact .inl ⟨rfl, rfl, fun _ => rfl⟩

theorem Fate.worker (f : Fate s s' k t') (h : s.task? k = some t) : t'.worker = t.worker := by
  rcases f.of_task? h with rfl | ⟨_, g⟩ | ⟨_, _, e⟩
  · rfl
  · exact g.worker
  · exact e.worker

/-- A registration keeps its worker, and so its name and what it requires. -/
theorem Effect.worker (e : Effect s s') (h : s.task? k = some t) :
    ∃ t', s'.task? k = some t' ∧ t'.worker = t.worker := by
  obtain ⟨t', ht'⟩ := e.task? h
  exact ⟨t', ht', (e.fate ht').worker h⟩

theorem Run.worker (run : Run s past) {m : Supervisor} (hm : m ∈ past) (h : m.task? k = some t) :
    ∃ t', s.task? k = some t' ∧ t'.worker = t.worker := by
  obtain ⟨t', ht'⟩ := run.task?_of_mem hm h
  refine ⟨t', ht', ?_⟩
  exact run.keeps (P := fun u => u.worker = t.worker) (fun _ e h h' w => ((e.fate h').worker h).trans w) hm h rfl ht'

/-- The registry leads to registrations of the name looked up. -/
theorem Run.name_of_lookup (run : Run s past) {r : String} (h : s.lookup r = some j) :
    ∃ t, s.task? j = some t ∧ t.name = r := by
  induction run generalizing j with
  | start => cases h
  | move run m ih =>
    have e := act_effect m
    rcases e.registry with ⟨_, _, same⟩ | ⟨_, w, registered⟩
    · obtain ⟨t, ht, name⟩ := ih ((same r).symm.trans h)
      obtain ⟨t', ht', worker⟩ := e.worker ht
      exact ⟨t', ht', by rw [Task.name, worker]; exact name⟩
    · rw [lookup_supervise registered] at h
      split at h
      next named =>
        cases h
        exact ⟨{ worker := w }, by rw [task?_supervise registered, if_pos rfl], named.symm⟩
      next =>
        obtain ⟨t, ht, name⟩ := ih h
        obtain ⟨t', ht', worker⟩ := e.worker ht
        exact ⟨t', ht', by rw [Task.name, worker]; exact name⟩

/-- The registry leads to the latest registration of a name. -/
theorem Run.latest_of_lookup (run : Run s past) {r : String} (h : s.lookup r = some j) (hk : s.task? k = some t)
    (name : t.name = r) : k ≤ j := by
  induction run generalizing j t with
  | start => cases h
  | @move s s' past run _ m ih =>
    have e := act_effect m
    rcases e.registry with ⟨_, length, same⟩ | ⟨_, w, registered⟩
    · have old : k < s.tasks.length := length ▸ lt_of_task? hk
      have worker := (e.fate hk).worker (List.getElem?_eq_getElem old)
      exact ih ((same r).symm.trans h) (List.getElem?_eq_getElem old) (by rw [← name, Task.name, Task.name, worker])
    · rw [lookup_supervise registered] at h
      rw [task?_supervise registered] at hk
      split at h
      next =>
        cases h
        split at hk
        next last => exact Nat.le_of_eq last
        next => exact Nat.le_of_lt (lt_of_task? hk)
      next other =>
        split at hk
        next =>
          cases hk
          exact absurd name.symm other
        next => exact ih h hk name

theorem Run.of_mem (run : Run s past) {m : Supervisor} (hm : m ∈ past) : ∃ past', Run m past' := by
  induction run with
  | start => cases hm
  | @move _ _ past run _ _ ih =>
    rcases List.mem_cons.1 hm with rfl | hm
    · exact ⟨past, run⟩
    · exact ih hm

/-- What the registry led to after `i` had been registered was not replaced before. -/
theorem Run.latest_of_mem (run : Run s past) {m : Supervisor} (hm : m ∈ past) {r : String}
    (found : m.lookup r = some j) (hk : s.task? k = some t) (name : t.name = r) (before : k ≤ i)
    (registered : (m.task? i).isSome) : k ≤ j := by
  obtain ⟨u, hu⟩ := Option.isSome_iff_exists.1 registered
  have old : k < m.tasks.length := Nat.lt_of_le_of_lt before (lt_of_task? hu)
  have hk' : m.task? k = some m.tasks[k] := List.getElem?_eq_getElem old
  obtain ⟨t', ht', worker⟩ := run.worker hm hk'
  cases hk.symm.trans ht'
  obtain ⟨past', run'⟩ := run.of_mem hm
  exact run'.latest_of_lookup found hk' (by rw [← name, Task.name, Task.name, worker])

/-! ### Readiness -/

theorem ready_mem_beginning : Event.ready t.name ∈ t.beginning ↔ t.worker.readiness = .onStart := by
  by_cases h : t.worker.readiness = .onStart <;>
    simp [Task.beginning, Course.attempt, h, Event.ready, Event.starting, Event.running]

theorem Goes.everReady (g : Goes s i t t' es) :
    t'.everReady = true ↔ t.everReady = true ∨ Event.ready t.name ∈ es := by
  cases g with
  | start => simp [ready_mem_beginning, Task.begun]
  | ready => simp [Task.readied]
  | @work sub => cases sub <;> simp [Task.withUnit]
  | _ => simp [Event.ready, Event.blocked, Event.shuttingDown, Event.failed, Event.backoff, Task.delayedBy,
      Task.drained, Task.withWatch]

theorem Ends.everReady {error : Option TaskError} (e : Ends s i t t' es error) :
    t'.everReady = true ↔ t.everReady = true ∨ Event.ready t.name ∈ es := by
  cases e <;> simp [Task.ended, Task.drained, Event.ready, Event.terminated, Event.failed]

/-- The mark of readiness is set exactly by the event that tells of it. -/
theorem Run.everReady_iff (run : Run s past) (h : s.task? k = some t) :
    t.everReady = true ↔ Event.ready t.name ∈ s.published k := by
  refine run.registrations (P := fun s _ k t => t.everReady = true ↔ Event.ready t.name ∈ s.published k) ?_ h
  intro s s' past k t' run e f ih
  cases f with
  | new none told => simp [told, run.published_of_none none, Event.ready, Event.added]
  | same h told => rw [told, ih _ h]
  | goes h g told => rw [told, List.mem_append, Task.name, g.worker, g.everReady, ih _ h]; rfl
  | ends h e told => rw [told, List.mem_append, Task.name, e.worker, e.everReady, ih _ h]; rfl

end Switchyard.Supervisor
