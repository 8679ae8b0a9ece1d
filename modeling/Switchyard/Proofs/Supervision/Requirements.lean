import Switchyard.Proofs.Supervision.History

/-!
Tasks wait for what they require. Main statements: no attempt starts before every requirement has told that it is
ready, and no task waits on when nothing keeps it.
-/
namespace Switchyard.Supervisor

variable {s s' : Supervisor} {i j k : TaskId} {t t' : Task} {es : List Event} {past past' : List Supervisor}
  {r : String} {n n' : Nat} {history history' : List Logged}

/-! ### Order of readiness and start -/

/-- At a moment not after event `n`, with `i` already registered, `j` was the registry's entry for `r`. -/
def Stood (past : List Supervisor) (i j : TaskId) (r : String) (n : Nat) : Prop :=
  ∃ m ∈ past, m.nextSeq ≤ n ∧ (m.task? i).isSome ∧ m.lookup r = some j

/-- A registration that stood for `r` has told, before event `n`, that it is ready. -/
def Released (history : List Logged) (past : List Supervisor) (i : TaskId) (r : String) (n : Nat) : Prop :=
  ∃ j, Stood past i j r n ∧
    ∃ l ∈ history, l.source = some j ∧ l.published.event = .ready r ∧ l.published.seq < n

theorem Stood.mono (h : Stood past i j r n) (later : past ⊆ past') (le : n ≤ n') : Stood past' i j r n' := by
  obtain ⟨m, hm, before, rest⟩ := h
  exact ⟨m, later hm, Nat.le_trans before le, rest⟩

theorem Released.mono (h : Released history past i r n) (grown : history ⊆ history') (later : past ⊆ past')
    (le : n ≤ n') : Released history' past' i r n' := by
  obtain ⟨j, stood, l, hl, source, event, before⟩ := h
  exact ⟨j, stood.mono later le, l, grown hl, source, event, Nat.lt_of_lt_of_le before le⟩

/-- Everything a task requires is still pending or has been released; what it is parked on stands for the first
pending requirement. -/
def Awaiting (s : Supervisor) (past : List Supervisor) (i : TaskId) (t : Task) : Prop :=
  match t.phase with
  | .created | .done => True
  | .blocked pending parked =>
    (∀ r ∈ t.worker.requires, r ∈ pending ∨ Released s.history past i r s.nextSeq) ∧
      ∀ p j, parked = some p → p.on = some j → ∀ r ∈ pending.head?,
        Stood past i j r s.nextSeq ∧ ∃ u, s.task? j = some u ∧ u.name = r
  | .attempting | .stopping | .draining _ | .delayed _ _ =>
    ∀ r ∈ t.worker.requires, Released s.history past i r s.nextSeq

/-- Only the worker and the phase matter. -/
theorem Awaiting.congr (a : Awaiting s past i t) (worker : t'.worker = t.worker) (phase : t'.phase = t.phase) :
    Awaiting s past i t' := by
  simpa only [Awaiting, worker, phase] using a

theorem Awaiting.later (a : Awaiting s past i t) (e : Effect s s') : Awaiting s' (s :: past) i t := by
  obtain ⟨new, grown, seq, _⟩ := e.history
  have mono {r : String} (h : Released s.history past i r s.nextSeq) :
      Released s'.history (s :: past) i r s'.nextSeq :=
    h.mono (grown ▸ List.subset_append_right _ _) (List.subset_cons_self _ _) seq
  unfold Awaiting at a ⊢
  split at a
  case h_1 => trivial
  case h_2 => trivial
  case h_3 =>
    refine ⟨fun r hr => (a.1 r hr).imp_right mono, fun p j hp hj r hr => ?_⟩
    obtain ⟨stood, u, hu, name⟩ := a.2 p j hp hj r hr
    obtain ⟨u', hu', worker⟩ := e.worker hu
    exact ⟨stood.mono (List.subset_cons_self _ _) seq, u', hu', by rw [Task.name, worker]; exact name⟩
  all_goals exact fun r hr => mono (a r hr)

/-- A requirement that is met has been released. -/
theorem Met.released (run : Run s past) (ht : s.task? i = some t) {rest : List String} {parked : Option Parked}
    (a : Awaiting s past i t) (blocked : t.phase = .blocked (r :: rest) parked) (met : s.Met r parked) :
    Released s.history (s :: past) i r s.nextSeq := by
  obtain ⟨j, ready, way⟩ := met
  have stood : Stood (s :: past) i j r s.nextSeq ∧ ∃ u, s.task? j = some u ∧ u.name = r := by
    rcases way with found | ⟨p, hp, on⟩
    · exact ⟨⟨s, List.mem_cons_self, Nat.le_refl _, by rw [ht]; rfl, found⟩, run.name_of_lookup found⟩
    · rw [Awaiting, blocked] at a
      obtain ⟨stood, named⟩ := a.2 p j hp on r rfl
      exact ⟨stood.mono (List.subset_cons_self _ _) (Nat.le_refl _), named⟩
  obtain ⟨stood, u, hu, rfl⟩ := stood
  rw [everReady_of_task? hu, run.everReady_iff hu, mem_published] at ready
  obtain ⟨l, hl, source, event⟩ := ready
  exact ⟨j, stood, l, hl, source, event, run.seq_lt hl⟩

theorem Awaiting.unblocked (run : Run s past) (ht : s.task? i = some t) (a : Awaiting s past i t)
    (h : s.Unblocked t.phase) : ∀ r ∈ t.worker.requires, Released s.history (s :: past) i r s.nextSeq := by
  have later {r : String} (h : Released s.history past i r s.nextSeq) :
      Released s.history (s :: past) i r s.nextSeq :=
    h.mono (List.Subset.refl _) (List.subset_cons_self _ _) (Nat.le_refl _)
  intro r hr
  generalize phase : t.phase = p at h
  cases h with
  | free =>
    rw [Awaiting, phase] at a
    exact later ((a.1 r hr).resolve_left List.not_mem_nil)
  | met met =>
    have released := met.released run ht a phase
    rw [Awaiting, phase] at a
    rcases a.1 r hr with first | h
    · rwa [List.mem_singleton.1 first]
    · exact later h
  | due =>
    rw [Awaiting, phase] at a
    exact later (a r hr)

theorem Awaiting.goes (run : Run s past) (ht : s.task? i = some t) (a : Awaiting s past i t)
    (g : Goes s i t t' es) (e : Effect s s') : Awaiting s' (s :: past) i t' := by
  obtain ⟨new, grown, seq, _⟩ := e.history
  have mono {r : String} (h : Released s.history (s :: past) i r s.nextSeq) :
      Released s'.history (s :: past) i r s'.nextSeq :=
    h.mono (grown ▸ List.subset_append_right _ _) (List.Subset.refl _) seq
  cases g with
  | block h => exact ⟨fun r hr => .inl hr, nofun⟩
  | @pass r rest parked h met =>
    have released := met.released run ht a h
    have a := a.later e
    rw [Awaiting, h] at a
    -- the first pending requirement is the one released now
    refine ⟨fun q hq => ?_, nofun⟩
    rcases a.1 q hq with hq | hq
    · rcases List.mem_cons.1 hq with rfl | hq
      · exact .inr (mono released)
      · exact .inl hq
    · exact .inr hq
  | park h =>
    have a := a.later e
    rw [Awaiting, h] at a
    refine ⟨a.1, ?_⟩
    rintro p j hp on r hr
    cases hp
    cases hr
    obtain ⟨u, hu, name⟩ := run.name_of_lookup on
    obtain ⟨u', hu', worker⟩ := e.worker hu
    refine ⟨⟨s, List.mem_cons_self, seq, by rw [ht]; rfl, on⟩, u', hu', ?_⟩
    rw [Task.name, worker]
    exact name
  | start h => exact fun r hr => mono (a.unblocked run ht h r hr)
  | surface h =>
    have a := a.later e
    rwa [Awaiting, h] at a
  | leave h =>
    have a := a.later e
    rw [Awaiting] at a
    rcases h with ⟨h, _⟩ | h
    · rwa [h] at a
    · rwa [h] at a
  | retry h =>
    have a := a.later e
    rwa [Awaiting, h] at a
  | ready => exact (a.later e).congr rfl rfl
  | attend => exact (a.later e).congr rfl rfl
  | note => exact (a.later e).congr rfl rfl
  | stop => exact (a.later e).congr rfl rfl
  | spawn => exact (a.later e).congr rfl rfl
  | @work sub => cases sub <;> exact (a.later e).congr rfl rfl

theorem Run.awaiting (run : Run s past) (h : s.task? i = some t) : Awaiting s past i t := by
  refine run.registrations (P := Awaiting) ?_ h
  intro s s' past i t' run e f ih
  cases f with
  | new => trivial
  | same h => exact (ih _ h).later e
  | goes h g => exact (ih _ h).goes run h g e
  | ends _ e => cases e <;> trivial

theorem Goes.unblocked (g : Goes s i t t' es) {e : Event} (he : e ∈ es)
    (kind : e.kind = .taskStarting ∨ e.kind = .taskRunning) : s.Unblocked t.phase := by
  have other {e' : Event} (he : e ∈ [e']) (h : e'.kind ≠ .taskStarting ∧ e'.kind ≠ .taskRunning) : False := by
    rw [List.mem_singleton.1 he] at kind
    exact kind.elim h.1 h.2
  cases g with
  | start h => exact h
  | block => exact (other he (by simp [Event.blocked])).elim
  | surface => exact (other he (by simp [Event.shuttingDown])).elim
  | ready => exact (other he (by simp [Event.ready])).elim
  | retry =>
    rcases List.mem_cons.1 he with rfl | he
    · exact absurd kind (by simp [Event.failed])
    · exact (other he (by simp [Event.backoff])).elim
  | _ => exact absurd he List.not_mem_nil

theorem Ends.not_start {error : Option TaskError} (d : Ends s i t t' es error) {e : Event} (he : e ∈ es) :
    e.kind ≠ .taskStarting ∧ e.kind ≠ .taskRunning := by
  cases d with
  | fail =>
    rcases List.mem_cons.1 he with rfl | he
    · exact ⟨nofun, nofun⟩
    · exact List.mem_singleton.1 he ▸ ⟨nofun, nofun⟩
  | _ => exact List.mem_singleton.1 he ▸ ⟨nofun, nofun⟩

theorem Run.released (run : Run s past) (h : s.task? i = some t) :
    ∀ l ∈ s.history, l.source = some i →
      l.published.event.kind = .taskStarting ∨ l.published.event.kind = .taskRunning →
      ∀ r ∈ t.worker.requires, Released s.history past i r l.published.seq := by
  refine run.registrations (P := fun s past i t => ∀ l ∈ s.history, l.source = some i →
    l.published.event.kind = .taskStarting ∨ l.published.event.kind = .taskRunning →
      ∀ r ∈ t.worker.requires, Released s.history past i r l.published.seq) ?_ h
  intro s s' past i t' run e f ih l hl source kind r hr
  obtain ⟨new, grown, _, fresh⟩ := e.history
  have mono {n : Nat} (h : Released s.history (s :: past) i r n) (le : n ≤ l.published.seq) :
      Released s'.history (s :: past) i r l.published.seq :=
    h.mono (grown ▸ List.subset_append_right _ _) (List.Subset.refl _) le
  have old {t : Task} (ht : s.task? i = some t) (hl : l ∈ s.history) (hr : r ∈ t.worker.requires) :
      Released s'.history (s :: past) i r l.published.seq :=
    mono ((ih t ht l hl source kind r hr).mono (List.Subset.refl _) (List.subset_cons_self _ _) (Nat.le_refl _))
      (Nat.le_refl _)
  rw [grown] at hl
  cases f with
  | new none told =>
    rcases List.mem_append.1 hl with hl | hl
    · rw [List.mem_singleton.1 (mem_told grown told hl source)] at kind
      exact absurd kind (by simp [Event.added])
    · have mem : l.published.event ∈ s.published i := mem_published.2 ⟨l, hl, source, rfl⟩
      rw [run.published_of_none none] at mem
      cases mem
  | same ht told =>
    rcases List.mem_append.1 hl with hl | hl
    · exact absurd (mem_told grown (told.trans (List.append_nil _).symm) hl source) List.not_mem_nil
    · exact old ht hl hr
  | goes ht g told =>
    rw [g.worker] at hr
    rcases List.mem_append.1 hl with hl | hl
    · have unblocked := g.unblocked (mem_told grown told hl source) kind
      exact mono ((run.awaiting ht).unblocked run ht unblocked r hr) (fresh l hl).1
    · exact old ht hl hr
  | ends ht d told =>
    rw [d.worker] at hr
    rcases List.mem_append.1 hl with hl | hl
    · obtain ⟨starting, running⟩ := d.not_start (mem_told grown told hl source)
      exact (kind.elim starting running).elim
    · exact old ht hl hr

/-- An attempt starts only after, for every name required, a registration of that name has told that it is ready,
one that the registry led to when the task was already registered. So none that had been replaced by then counts. -/
theorem starting_after_ready (run : Run s past) (h : s.task? i = some t) {l : Logged} (hl : l ∈ s.history)
    (source : l.source = some i)
    (kind : l.published.event.kind = .taskStarting ∨ l.published.event.kind = .taskRunning)
    (hr : r ∈ t.worker.requires) :
    ∃ j, (∃ m ∈ past, m.nextSeq ≤ l.published.seq ∧ (m.task? i).isSome ∧ m.lookup r = some j) ∧
      (∃ l' ∈ s.history, l'.source = some j ∧ l'.published.event = .ready r ∧
        l'.published.seq < l.published.seq) ∧
      ∀ k u, s.task? k = some u → u.name = r → k ≤ i → k ≤ j := by
  obtain ⟨j, stood, told⟩ := run.released h l hl source kind r hr
  refine ⟨j, stood, told, fun k u hu name before => ?_⟩
  obtain ⟨m, hm, _, registered, found⟩ := stood
  exact run.latest_of_mem hm found hu name before registered

/-- A task that is registered, and waits, before the one that it requires. -/
def inOrder : List Act :=
  [.supervise { name := "a", task := "a", requires := ["b"] }, .actor 0 .proceed, .actor 0 .proceed,
    .supervise { name := "b", task := "b" }, .actor 0 .recheck, .actor 1 .proceed, .actor 1 .proceed, .actor 0 .proceed]

theorem starting_after_ready_inOrder : ∃ s past t l, Run s past ∧ s.task? 0 = some t ∧ l ∈ s.history ∧
    l.source = some 0 ∧ (l.published.event.kind = .taskStarting ∨ l.published.event.kind = .taskRunning) ∧
    "b" ∈ t.worker.requires ∧
    ∃ j, (∃ m ∈ past, m.nextSeq ≤ l.published.seq ∧ (m.task? 0).isSome ∧ m.lookup "b" = some j) ∧
      (∃ l' ∈ s.history, l'.source = some j ∧ l'.published.event = .ready "b" ∧
        l'.published.seq < l.published.seq) ∧
      ∀ k u, s.task? k = some u → u.name = "b" → k ≤ 0 → k ≤ j := by
  obtain ⟨s, past, run, h⟩ := exists_run (P := fun s => (s.task? 0).any ("b" ∈ ·.worker.requires) &&
    s.history.any fun l => l.source = some 0 && l.published.event.kind = .taskStarting) inOrder (by decide +kernel)
  obtain ⟨requires, starts⟩ := Bool.and_eq_true_iff.1 h
  obtain ⟨t, ht, hr⟩ := (Option.any_eq_true _ _).1 requires
  obtain ⟨l, hl, starts⟩ := List.any_eq_true.1 starts
  obtain ⟨source, kind⟩ := Bool.and_eq_true_iff.1 starts
  have hr := of_decide_eq_true hr
  have source := of_decide_eq_true source
  have kind := Or.inl (b := l.published.event.kind = .taskRunning) (of_decide_eq_true kind)
  exact ⟨s, past, t, l, run, ht, hl, source, kind, hr, starting_after_ready run ht hl source kind hr⟩

/-! ### No wait is left behind -/

/-- No loop that drives a task can go on. -/
def Quiet (s : Supervisor) : Prop := ∀ i turn, s.actorStep i turn = none

theorem quiet_iff : s.Quiet ↔ ∀ i < s.tasks.length, ∀ turn ∈ [Turn.proceed, .recheck, .cancel],
    (s.actorStep i turn).isNone := by
  constructor
  · intro q i _ turn _
    rw [q i turn, Option.isNone_none]
  · intro q i turn
    by_cases hi : i < s.tasks.length
    · exact Option.isNone_iff_eq_none.1 (q i hi turn (by cases turn <;> simp))
    · simp [actorStep, task?, Nat.le_of_not_lt hi]

instance : Decidable s.Quiet := decidable_of_iff' _ quiet_iff

/-- While nobody has registered since a task parked, the registry still leads where the task looks. -/
def Watching (s : Supervisor) (t : Task) : Prop :=
  ∀ pending parked, t.phase = .blocked pending parked → pending <:+ t.worker.requires ∧
    ∀ p, parked = some p → ∃ r rest, pending = r :: rest ∧ p.seen ≤ s.registered ∧
      (p.seen = s.registered → s.lookup r = p.on)

theorem Watching.congr (w : Watching s t) (worker : t'.worker = t.worker) (phase : t'.phase = t.phase) :
    Watching s t' := by
  simpa only [Watching, worker, phase] using w

theorem Watching.later (w : Watching s t) (e : Effect s s') : Watching s' t := by
  intro pending parked phase
  obtain ⟨suffix, held⟩ := w pending parked phase
  refine ⟨suffix, fun p hp => ?_⟩
  obtain ⟨r, rest, first, seen, same⟩ := held p hp
  rcases e.registry with ⟨count, _, found⟩ | ⟨count, _⟩
  · exact ⟨r, rest, first, count ▸ seen, fun now => (found r).trans (same (now.trans count))⟩
  · exact ⟨r, rest, first, by omega, fun now => by omega⟩

theorem Watching.goes (w : Watching s t) (g : Goes s i t t' es) : Watching s t' := by
  cases g with
  | block h =>
    intro pending parked phase
    cases phase
    exact ⟨List.suffix_refl _, nofun⟩
  | pass h =>
    intro pending parked phase
    cases phase
    exact ⟨(List.suffix_cons _ _).trans (w _ _ h).1, nofun⟩
  | @park r rest _ h =>
    intro pending parked phase
    cases phase
    refine ⟨(w _ _ h).1, fun p hp => ?_⟩
    cases hp
    exact ⟨r, rest, rfl, Nat.le_refl _, fun _ => rfl⟩
  | start => exact nofun
  | surface => exact nofun
  | leave => exact nofun
  | retry => exact nofun
  | attend => exact w.congr rfl rfl
  | note => exact w.congr rfl rfl
  | stop => exact w.congr rfl rfl
  | ready => exact w.congr rfl rfl
  | spawn => exact w.congr rfl rfl
  | @work sub => cases sub <;> exact w.congr rfl rfl

theorem Run.watching (run : Run s past) (h : s.task? i = some t) : Watching s t := by
  refine run.registrations (P := fun s _ _ t => Watching s t) ?_ h
  intro s s' past i t' run e f ih
  cases f with
  | new => exact nofun
  | same h => exact (ih _ h).later e
  | goes h g => exact ((ih _ h).goes g).later e
  | ends _ d => cases d <;> exact nofun

theorem Quiet.alive (q : s.Quiet) (h : s.task? i = some t)
    (waits : (∃ pending parked, t.phase = .blocked pending parked) ∨ ∃ time e, t.phase = .delayed time e) :
    s.isCancelled i = false := by
  have closed := q i .cancel
  rcases waits with ⟨pending, parked, phase⟩ | ⟨time, e, phase⟩
  · cases parked <;> simpa [actorStep, h, phase] using closed
  · simpa [actorStep, h, phase] using closed

/-- What a task is parked on keeps it, and is still what the registry leads to. -/
theorem Quiet.kept (q : s.Quiet) (h : s.task? i = some t) (w : Watching s t) {pending : List String}
    {parked : Option Parked} (phase : t.phase = .blocked pending parked) :
    ∃ r ∈ t.worker.requires, ∀ j, s.lookup r = some j → s.everReady j = false := by
  obtain ⟨suffix, held⟩ := w _ _ phase
  cases parked with
  | none =>
    have closed := q i .proceed
    simp [actorStep, h, phase] at closed
  | some p =>
    -- that it does not recheck says that nobody has registered since it parked
    obtain ⟨r, rest, rfl, _, same⟩ := held p rfl
    have recheck : s.registered = p.seen := by simpa [actorStep, h, phase] using q i .recheck
    have proceed : p.on.any s.everReady = false := by simpa [actorStep, h, phase] using q i .proceed
    refine ⟨r, suffix.subset List.mem_cons_self, fun j found => ?_⟩
    have on : p.on = some j := (same recheck.symm).symm.trans found
    rwa [on, Option.any_some] at proceed

theorem Run.everReady_of_told (run : Run s past) (found : s.lookup r = some j) {e : Event} (he : e ∈ s.published j)
    (kind : e.kind = .taskReady) : s.everReady j = true := by
  obtain ⟨u, hu, name⟩ := run.name_of_lookup found
  obtain ⟨rs, a, _, word⟩ := prefix_of_chronicle (run.chronicle hu)
  rw [everReady_of_task? hu, run.everReady_iff hu, ← Course.ready_of_mem_whole (word.subset he) kind]
  exact he

/-- When no loop can go on, a blocked task is not asked to stop and some requirement keeps it: nobody has registered
under that name, or the latest who did has never told that it is ready. -/
theorem blocked_of_quiet (run : Run s past) (q : s.Quiet) (h : s.task? i = some t) :
    (t.state = .blocked → s.isCancelled i = false ∧
      ∃ r ∈ t.worker.requires, ∀ j, s.lookup r = some j → ∀ e ∈ s.published j, e.kind ≠ .taskReady) ∧
    ((∀ r ∈ t.worker.requires, ∃ j, s.lookup r = some j ∧ ∃ e ∈ s.published j, e.kind = .taskReady) →
      t.state ≠ .blocked) ∧
    (s.isCancelled i = true → t.state ≠ .blocked ∧ t.state ≠ .retrying) := by
  have told := run.chronicle h
  have keeps (blocked : t.state = .blocked) :
      ∃ r ∈ t.worker.requires, ∀ j, s.lookup r = some j → ∀ e ∈ s.published j, e.kind ≠ .taskReady := by
    obtain ⟨pending, parked, phase⟩ := phase_of_blocked told blocked
    obtain ⟨r, hr, unready⟩ := q.kept h (run.watching h) phase
    refine ⟨r, hr, fun j found e he kind => ?_⟩
    exact absurd ((unready j found).symm.trans (run.everReady_of_told found he kind)) nofun
  have alive (blocked : t.state = .blocked) : s.isCancelled i = false :=
    q.alive h (.inl (phase_of_blocked told blocked))
  refine ⟨fun blocked => ⟨alive blocked, keeps blocked⟩, fun ready blocked => ?_, fun stop => ⟨fun blocked => ?_, ?_⟩⟩
  · obtain ⟨r, hr, unready⟩ := keeps blocked
    obtain ⟨j, found, e, he, kind⟩ := ready r hr
    exact unready j found e he kind
  · exact absurd (stop.symm.trans (alive blocked)) nofun
  · intro retrying
    have alive := q.alive h (.inr (phase_of_retrying told retrying))
    exact absurd (stop.symm.trans alive) nofun

/-- A task that requires one which runs and never says that it is ready. -/
def unready : List Act :=
  [.supervise { name := "a", task := "a", requires := ["b"] }, .actor 0 .proceed, .actor 0 .proceed,
    .supervise { name := "b", task := "b", readiness := .explicit }, .actor 0 .recheck, .actor 1 .proceed,
    .actor 1 .proceed]

theorem blocked_of_quiet_unready : ∃ s past t, Run s past ∧ s.Quiet ∧ s.task? 0 = some t ∧ t.state = .blocked ∧
    (t.state = .blocked → s.isCancelled 0 = false ∧
      ∃ r ∈ t.worker.requires, ∀ j, s.lookup r = some j → ∀ e ∈ s.published j, e.kind ≠ .taskReady) ∧
    ((∀ r ∈ t.worker.requires, ∃ j, s.lookup r = some j ∧ ∃ e ∈ s.published j, e.kind = .taskReady) →
      t.state ≠ .blocked) ∧
    (s.isCancelled 0 = true → t.state ≠ .blocked ∧ t.state ≠ .retrying) := by
  obtain ⟨s, past, run, h⟩ := exists_run (P := fun s => s.Quiet && (s.task? 0).any (·.state = .blocked)) unready
    (by decide +kernel)
  obtain ⟨quiet, waits⟩ := Bool.and_eq_true_iff.1 h
  obtain ⟨t, ht, blocked⟩ := (Option.any_eq_true _ _).1 waits
  have quiet := of_decide_eq_true quiet
  have blocked := of_decide_eq_true blocked
  exact ⟨s, past, t, run, quiet, ht, blocked, blocked_of_quiet run quiet ht⟩

end Switchyard.Supervisor
