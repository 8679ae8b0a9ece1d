import Switchyard.Proofs.Supervision.Effect

/-!
What becomes of a single registration in a move, and how what holds of every registration is proved over runs.
-/
namespace Switchyard.Supervisor

variable {s s' : Supervisor} {i k : TaskId} {t t' : Task} {es : List Event} {past : List Supervisor}

/-! ### Registering -/

theorem supervise_eq {w : Worker Action} (h : s.supervise w = .ok s') :
    s' = { s with
      tasks := s.tasks ++ [{ worker := w }]
      registry := s.registry.insert w.name s.tasks.length
      live := s.live + 1
      registered := s.registered + 1
      nextSeq := s.nextSeq + 1
      history := ⟨some s.tasks.length, ⟨s.nextSeq, s.now, .added w.name⟩⟩ :: s.history
      mailboxes := s'.mailboxes } := by
  unfold Supervisor.supervise at h
  split at h
  next => cases h
  next =>
    cases h
    simp [publishFor, publish, task?, Event.added, Task.name]

theorem shutdown_eq (down : s.shuttingDown = false) :
    s.shutdown = { s.publish none { kind := .shutdownRequested } with shuttingDown := true } := by
  rw [Supervisor.shutdown, if_neg (by simp [down])]

theorem task?_supervise {w : Worker Action} (h : s.supervise w = .ok s') :
    s'.task? k = if k = s.tasks.length then some { worker := w } else s.task? k := by
  rw [supervise_eq h, task?, task?]
  rcases Nat.lt_trichotomy k s.tasks.length with before | rfl | beyond
  · rw [if_neg (Nat.ne_of_lt before), List.getElem?_append_left before]
  · rw [if_pos rfl, List.getElem?_concat_length]
  · rw [if_neg (Nat.ne_of_gt beyond), List.getElem?_eq_none (by simpa using Nat.succ_le_of_lt beyond),
      List.getElem?_eq_none (Nat.le_of_lt beyond)]

/-! ### Events -/

theorem events_entries (s : Supervisor) (i : TaskId) (es : List Event) :
    (s.entries i es).map (·.published.event) = es := by
  simp [entries, Function.comp_def]

theorem source_of_mem_entries {l : Logged} (h : l ∈ s.entries i es) : l.source = some i := by
  obtain ⟨_, _, rfl⟩ := List.mem_map.1 h
  rfl

theorem published_amend_self : (s.amend i t es).published i = s.published i ++ es := by
  have all : (s.entries i es).filter (·.source = some i) = s.entries i es :=
    List.filter_eq_self.2 fun l hl => by simp [source_of_mem_entries hl]
  simp only [published, history_amend, List.reverse_append, List.reverse_reverse, List.filter_append, all,
    List.map_append, events_entries]

theorem published_amend_of_ne (h : k ≠ i) : (s.amend i t es).published k = s.published k := by
  have none : (s.entries i es).filter (·.source = some k) = [] :=
    List.filter_eq_nil_iff.2 fun l hl => by simp [source_of_mem_entries hl, Ne.symm h]
  simp only [published, history_amend, List.reverse_append, List.reverse_reverse, List.filter_append, none,
    List.append_nil]

theorem published_supervise {w : Worker Action} (h : s.supervise w = .ok s') :
    s'.published k = s.published k ++ if k = s.tasks.length then [.added w.name] else [] := by
  rw [supervise_eq h, published, published]
  by_cases hk : k = s.tasks.length
  · simp [hk]
  · simp [hk, Ne.symm hk]

theorem published_shutdown : s.shutdown.published k = s.published k := by
  unfold Supervisor.shutdown
  split
  · rfl
  · simp [published, publish]

/-! ### One registration in a move -/

/-- What has become of registration `k`, which now stands at the task given. -/
inductive Fate (s s' : Supervisor) (k : TaskId) : Task → Prop
  | new {w : Worker Action} (h : s.task? k = none) (told : s'.published k = s.published k ++ [.added w.name]) :
      Fate s s' k { worker := w }
  | same {t : Task} (h : s.task? k = some t) (told : s'.published k = s.published k) : Fate s s' k t
  | goes {t t' : Task} {es : List Event} (h : s.task? k = some t) (g : Goes s k t t' es)
      (told : s'.published k = s.published k ++ es) : Fate s s' k t'
  | ends {t t' : Task} {es : List Event} {error : Option TaskError} (h : s.task? k = some t)
      (e : Ends s k t t' es error) (told : s'.published k = s.published k ++ es) : Fate s s' k t'

theorem Effect.fate (e : Effect s s') (h : s'.task? k = some t') : Fate s s' k t' := by
  cases e with
  | @goes i t u es ht g =>
    by_cases hk : k = i
    · subst hk
      rw [task?_amend_self (lt_of_task? ht), Option.some.injEq] at h
      exact h ▸ .goes ht g published_amend_self
    · rw [task?_amend_of_ne hk] at h
      exact .same h (published_amend_of_ne hk)
  | @ends i t u es error ht e =>
    by_cases hk : k = i
    · subst hk
      have h : u = t' := Option.some.inj ((task?_amend_self (lt_of_task? ht)).symm.trans h)
      exact h ▸ .ends ht e published_amend_self
    · have h : s.task? k = some t' := (task?_amend_of_ne hk).symm.trans h
      exact .same h (published_amend_of_ne hk)
  | @supervise w _ hw =>
    have told := published_supervise (k := k) hw
    rw [task?_supervise hw] at h
    split at h
    next hk =>
      rw [if_pos hk] at told
      cases h
      exact .new (List.getElem?_eq_none (Nat.le_of_eq hk.symm)) told
    next hk =>
      rw [if_neg hk, List.append_nil] at told
      exact .same h told
  | shutdown down =>
    have h : s.task? k = some t' := task?_shutdown.symm.trans h
    exact .same h published_shutdown
  | aside => exact .same h rfl

theorem Effect.shuttingDown (e : Effect s s') (h : s.shuttingDown = true) : s'.shuttingDown = true := by
  cases e with
  | goes => rwa [shuttingDown_amend]
  | ends => exact (shuttingDown_amend ..).trans h
  | supervise hw => rwa [supervise_eq hw]
  | shutdown down => exact absurd (h.symm.trans down) Bool.noConfusion
  | aside => exact h

/-- A registration that was there before stays as it is, goes on or ends. -/
theorem Fate.of_task? (f : Fate s s' k t') (h : s.task? k = some t) :
    t' = t ∨ (∃ es, Goes s k t t' es) ∨ ∃ es error, Ends s k t t' es error := by
  cases f with
  | new none => exact absurd (h.symm.trans none) nofun
  | same old => exact .inl (Option.some.inj (old.symm.trans h))
  | goes old g =>
    cases h.symm.trans old
    exact .inr (.inl ⟨_, g⟩)
  | ends old d =>
    cases h.symm.trans old
    exact .inr (.inr ⟨_, _, d⟩)

theorem Fate.stopRequested (f : Fate s s' k t') (ht : s.task? k = some t) (h : t.stopRequested = true) :
    t'.stopRequested = true := by
  rcases f.of_task? ht with rfl | ⟨_, g⟩ | ⟨_, _, e⟩
  · exact h
  · exact g.stopRequested h
  · exact e.stopRequested h

/-- No registration is ever removed. -/
theorem Effect.task? (e : Effect s s') (ht : s.task? k = some t) : ∃ t', s'.task? k = some t' := by
  have amended {i : TaskId} (u : Task) (es : List Event) : ∃ t', (s.amend i u es).task? k = some t' := by
    by_cases hk : k = i
    · subst hk
      exact ⟨u, task?_amend_self (lt_of_task? ht)⟩
    · exact ⟨t, (task?_amend_of_ne hk).trans ht⟩
  cases e with
  | goes => exact amended _ _
  | ends => exact amended _ _
  | supervise hw =>
    refine ⟨t, ?_⟩
    rw [task?_supervise hw, if_neg (Nat.ne_of_lt (lt_of_task? ht)), ht]
  | shutdown => exact ⟨t, task?_shutdown.trans ht⟩
  | aside => exact ⟨t, ht⟩

/-- Cancellation is final. -/
theorem Effect.isCancelled (e : Effect s s') (h : s.isCancelled k = true) : s'.isCancelled k = true := by
  rw [Supervisor.isCancelled, Bool.or_eq_true] at h ⊢
  rcases h with h | h
  · exact .inl (e.shuttingDown h)
  · obtain ⟨t, ht, stop⟩ := (Option.any_eq_true _ _).1 h
    obtain ⟨t', ht'⟩ := e.task? ht
    exact .inr (by rw [ht', Option.any_some]; exact (e.fate ht').stopRequested ht stop)

/-! ### Runs -/

theorem Run.published_of_none (run : Run s past) (h : s.task? k = none) : s.published k = [] := by
  induction run with
  | start => rfl
  | @move s s' past _ _ m ih =>
    cases act_effect m with
    | @goes i t t' es ht =>
      have hk : k ≠ i := by
        rintro rfl
        exact absurd (h.symm.trans (task?_amend_self (lt_of_task? ht))) nofun
      rw [published_amend_of_ne hk, ih ((task?_amend_of_ne hk).symm.trans h)]
    | @ends i t t' es error ht =>
      have hk : k ≠ i := by
        rintro rfl
        exact absurd (h.symm.trans (task?_amend_self (lt_of_task? ht))) nofun
      exact (published_amend_of_ne hk).trans (ih ((task?_amend_of_ne hk).symm.trans h))
    | supervise hw =>
      rw [task?_supervise hw] at h
      split at h
      next => cases h
      next hk => rw [published_supervise hw, if_neg hk, List.append_nil, ih h]
    | shutdown down =>
      rw [published_shutdown]
      exact ih (task?_shutdown.symm.trans h)
    | aside => exact ih h

/-- What a move makes of one registration holds of all registrations in all runs. -/
theorem Run.registrations {P : Supervisor → List Supervisor → TaskId → Task → Prop}
    (move : ∀ {s s' : Supervisor} {past : List Supervisor} {k : TaskId} {t' : Task}, Run s past → Effect s s' →
      Fate s s' k t' → (∀ t, s.task? k = some t → P s past k t) → P s' (s :: past) k t')
    (run : Run s past) (h : s.task? k = some t) : P s past k t := by
  induction run generalizing t with
  | start => cases h
  | move run m ih =>
    have e := act_effect m
    exact move run e (e.fate h) fun t ht => ih ht

/-- What no move takes away holds ever after. -/
theorem Run.since {P : Supervisor → Prop} {m : Supervisor}
    (move : ∀ {s s' : Supervisor} {past : List Supervisor}, Run s past → Run s' (s :: past) → Effect s s' → P s → P s')
    (run : Run s past) (hm : m ∈ past) (h : P m) : P s := by
  induction run with
  | start => cases hm
  | move run step ih =>
    rcases List.mem_cons.1 hm with rfl | hm
    · exact move run (run.move step) (act_effect step) h
    · exact move run (run.move step) (act_effect step) (ih hm)

theorem Run.task?_of_mem (run : Run s past) {m : Supervisor} (hm : m ∈ past) (h : m.task? k = some t) :
    ∃ t', s.task? k = some t' :=
  run.since (P := fun s => ∃ t, s.task? k = some t) (fun _ _ e ⟨_, ht⟩ => e.task? ht) hm ⟨t, h⟩

theorem Run.task?_of_none (run : Run s past) (h : s.task? k = none) {m : Supervisor} (hm : m ∈ past) :
    m.task? k = none := by
  cases earlier : m.task? k with
  | none => rfl
  | some t =>
    obtain ⟨t', ht'⟩ := run.task?_of_mem hm earlier
    exact nomatch h.symm.trans ht'

/-- What a move keeps of every registration is kept by runs. -/
theorem Run.keeps {P : Task → Prop}
    (move : ∀ {s s' : Supervisor} {past : List Supervisor} {k : TaskId} {t t' : Task}, Run s past → Effect s s' →
      s.task? k = some t → s'.task? k = some t' → P t → P t')
    (run : Run s past) {m : Supervisor} (hm : m ∈ past) (h : m.task? k = some t) (p : P t)
    (h' : s.task? k = some t') : P t' := by
  obtain ⟨u, hu, p⟩ := run.since (P := fun s => ∃ t, s.task? k = some t ∧ P t) (fun run _ e ⟨t, ht, p⟩ => by
    obtain ⟨t', ht'⟩ := e.task? ht
    exact ⟨t', ht', move run e ht ht' p⟩) hm ⟨t, h, p⟩
  cases hu.symm.trans h'
  exact p

end Switchyard.Supervisor
