import Switchyard.Proofs.Isolation.Turns
import Switchyard.Proofs.Supervision.Names

/-!
Supervisors that look alike to some tasks. Main statements: the same turn of the same task keeps two of them alike, and
so does any turn of another task in one of them; what a task finds around itself is the same in both.
-/
namespace Switchyard.Supervisor

variable {s s' r r' : Supervisor} {i j : TaskId} {t u : Task} {c c' : Change} {es : List Event} {past past' : List Supervisor}
  {name : String} {calm : String → Prop}

/-! ### What is to be seen of a name -/

/-- The registrations under a name, oldest first, without the marks of what they have looked at. -/
def tasksOf (s : Supervisor) (name : String) : List Task := (s.tasks.filter (·.name = name)).map Task.unparked

/-- The events told of the tasks under a name, oldest first, with their times. -/
def eventsOf (s : Supervisor) (name : String) : List (Nat × Event) :=
  (s.history.reverse.filter (·.published.event.task = some name)).map fun l => (l.published.time, l.published.event)

/-- The errors recorded for the tasks under a name, with their times. -/
def failuresOf (s : Supervisor) (name : String) : List (Nat × TaskError) :=
  (s.failures.filter (·.failure.task = name)).map fun f => (f.time, f.failure.error)

structure Sight where
  tasks : List Task
  events : List (Nat × Event)
  failures : List (Nat × TaskError)

def sight (s : Supervisor) (name : String) : Sight := ⟨s.tasksOf name, s.eventsOf name, s.failuresOf name⟩

/-- How many registrations under the name were made before `i`. -/
def rank (s : Supervisor) (name : String) (i : TaskId) : Nat := ((s.tasks.take i).filter (·.name = name)).length

/-- What is to be seen once the registration of this rank has changed. -/
def Sight.after (v : Sight) (now k : Nat) (c : Change) : Sight where
  tasks := v.tasks.set k c.task.unparked
  events := v.events ++ c.told.map (now, ·)
  failures := v.failures ++ c.ending.join.toList.map (now, ·)

/-- What is made of a registration and of those before and after it. -/
theorem tasksOf_eq {s : Supervisor} {before after : List Task} (h : s.tasks = before ++ t :: after) (name : String) :
    s.tasksOf name = (before.filter (·.name = name)).map Task.unparked ++
      ((if t.name = name then [t.unparked] else []) ++ (after.filter (·.name = name)).map Task.unparked) := by
  rw [tasksOf, h, List.filter_append, List.map_append, List.filter_cons]
  split
  next same => rw [if_pos (of_decide_eq_true same)]; rfl
  next other => rw [if_neg (by simpa using other)]; rfl

theorem tasks_of_task? (h : s.task? i = some t) : s.tasks = s.tasks.take i ++ t :: s.tasks.drop (i + 1) := by
  obtain ⟨hi, rfl⟩ := List.getElem?_eq_some_iff.1 h
  rw [← List.drop_eq_getElem_cons hi, List.take_append_drop]

theorem tasksOf_rank (h : s.task? i = some t) (named : t.name = name) :
    (s.tasksOf name)[s.rank name i]? = some t.unparked := by
  have length : (((s.tasks.take i).filter (·.name = name)).map Task.unparked).length = s.rank name i :=
    List.length_map ..
  rw [tasksOf_eq (tasks_of_task? h), if_pos named, List.getElem?_append_right (Nat.le_of_eq length), length, Nat.sub_self]
  rfl

theorem set_rank (h : s.task? i = some t) (named : t.name = name) :
    (s.tasksOf name).set (s.rank name i) t.unparked = s.tasksOf name := by
  obtain ⟨inside, found⟩ := List.getElem?_eq_some_iff.1 (tasksOf_rank h named)
  rw [← found, List.set_getElem_self]

/-- What a filter lets through stood somewhere in the list, after as many that it lets through. -/
theorem exists_getElem?_of_filter {p : Task → Bool} {ts : List Task} {k : Nat} (h : (ts.filter p)[k]? = some t) :
    ∃ i, ts[i]? = some t ∧ ((ts.take i).filter p).length = k := by
  induction ts generalizing k with
  | nil => cases h
  | cons u ts ih =>
    by_cases through : p u = true
    · rw [List.filter_cons_of_pos through] at h
      cases k with
      | zero => exact ⟨0, h, rfl⟩
      | succ k =>
        obtain ⟨i, found, count⟩ := ih h
        refine ⟨i + 1, found, ?_⟩
        rw [List.take_succ_cons, List.filter_cons_of_pos through, List.length_cons, count]
    · rw [List.filter_cons_of_neg through] at h
      obtain ⟨i, found, count⟩ := ih h
      refine ⟨i + 1, found, ?_⟩
      rw [List.take_succ_cons, List.filter_cons_of_neg through, count]

theorem exists_of_tasksOf {k : Nat} (h : (s.tasksOf name)[k]? = some u) :
    ∃ i t, s.task? i = some t ∧ t.unparked = u ∧ s.rank name i = k := by
  rw [tasksOf, List.getElem?_map] at h
  obtain ⟨t, found, unparked⟩ := Option.map_eq_some_iff.1 h
  obtain ⟨i, ht, count⟩ := exists_getElem?_of_filter found
  exact ⟨i, t, ht, unparked, count⟩

theorem tasksOf_amend (h : s.task? i = some t) (named : u.name = t.name) (name : String) :
    (s.amend i u es).tasksOf name =
      if t.name = name then (s.tasksOf name).set (s.rank name i) u.unparked else s.tasksOf name := by
  have replaced : (s.amend i u es).tasks = s.tasks.take i ++ u :: s.tasks.drop (i + 1) := by
    rw [tasks_amend, List.set_eq_take_append_cons_drop, if_pos (lt_of_task? h)]
  have length : (((s.tasks.take i).filter (·.name = name)).map Task.unparked).length = s.rank name i :=
    List.length_map ..
  rw [tasksOf_eq replaced, tasksOf_eq (tasks_of_task? h), named]
  split
  · rw [List.set_append_right _ _ (Nat.le_of_eq length), length, Nat.sub_self, List.cons_append, List.cons_append,
      List.set_cons_zero]
  · rfl

theorem eventsOf_of_told {s s' : Supervisor} {new : List Logged} (h : s'.history = new.reverse ++ s.history)
    (name : String) : s'.eventsOf name = s.eventsOf name ++
      (new.filter (·.published.event.task = some name)).map fun l => (l.published.time, l.published.event) := by
  rw [eventsOf, h, List.reverse_append, List.reverse_reverse, List.filter_append, List.map_append, ← eventsOf]

theorem eventsOf_amend (told : ∀ e ∈ es, e.task = some t.name) (name : String) :
    (s.amend i u es).eventsOf name = s.eventsOf name ++ if t.name = name then es.map (s.now, ·) else [] := by
  have entry {l : Logged} (mem : l ∈ s.entries i es) : l.published.event.task = some t.name := by
    have event : l.published.event ∈ (s.entries i es).map (·.published.event) := List.mem_map_of_mem mem
    rw [events_entries] at event
    exact told _ event
  have made : (s.entries i es).map (fun l => (l.published.time, l.published.event)) = es.map (s.now, ·) := by
    have split : (s.entries i es).map (fun l => (l.published.time, l.published.event)) =
        (s.entries i es).map fun l => (s.now, l.published.event) :=
      List.map_congr_left fun l mem => by rw [time_of_mem_entries mem]
    have timed : (s.entries i es).map (fun l => (s.now, l.published.event)) =
        ((s.entries i es).map (·.published.event)).map (s.now, ·) := (List.map_map ..).symm
    rw [split, timed, events_entries]
  rw [eventsOf_of_told (history_amend s i u es)]
  split
  next same =>
    have all : (s.entries i es).filter (·.published.event.task = some name) = s.entries i es :=
      List.filter_eq_self.2 fun l mem => decide_eq_true ((entry mem).trans (congrArg some same))
    rw [all, made]
  next other =>
    have none : (s.entries i es).filter (·.published.event.task = some name) = [] :=
      List.filter_eq_nil_iff.2 fun l mem found =>
        other (Option.some.inj ((entry mem).symm.trans (of_decide_eq_true found)))
    rw [none, List.map_nil]

theorem failuresOf_retire (task : String) (error : Option TaskError) (name : String) :
    (s.retire i (error.map (⟨task, ·⟩))).failuresOf name =
      s.failuresOf name ++ if task = name then error.toList.map (s.now, ·) else [] := by
  rw [failuresOf, retire, List.filter_append, List.map_append, ← failuresOf]
  cases error with
  | none => simp
  | some e =>
    by_cases same : task = name
    · simp [same]
    · simp [same]

/-- A change of a task is seen under its name, and nowhere else. -/
theorem sight_apply (h : s.task? i = some t) (proper : c.Proper t) (name : String) :
    (s.apply i c).sight name =
      if t.name = name then (s.sight name).after s.now (s.rank name i) c else s.sight name := by
  have named : c.task.name = t.name := congrArg Worker.name proper.worker
  have tasks : (s.apply i c).tasksOf name = (s.amend i c.task c.told).tasksOf name := by
    unfold apply
    split <;> rfl
  have events : (s.apply i c).eventsOf name = (s.amend i c.task c.told).eventsOf name := by
    unfold apply
    split <;> rfl
  have recorded : (s.amend i c.task c.told).failuresOf name = s.failuresOf name := by
    rw [failuresOf, failures_amend, failuresOf]
  have failures : (s.apply i c).failuresOf name =
      s.failuresOf name ++ if t.name = name then c.ending.join.toList.map (s.now, ·) else [] := by
    unfold apply
    split
    next ending => rw [recorded, ending]; simp
    next error ending =>
      rw [failuresOf_retire, recorded, named, now_amend, ending, Option.join_some]
  rw [sight, tasks, events, failures, tasksOf_amend h named, eventsOf_amend proper.told]
  split
  · rfl
  · rw [List.append_nil, List.append_nil, sight]

/-! ### Looking alike -/

/-- To tasks under the calm names the one is as good as the other. -/
structure Alike (calm : String → Prop) (s s' : Supervisor) : Prop where
  now : s'.now = s.now
  backoff : s'.backoff = s.backoff
  shuttingDown : s'.shuttingDown = s.shuttingDown
  sight : ∀ name, calm name → s'.sight name = s.sight name

theorem Alike.refl (calm : String → Prop) (s : Supervisor) : Alike calm s s := ⟨rfl, rfl, rfl, fun _ _ => rfl⟩

theorem Alike.symm (a : Alike calm s s') : Alike calm s' s :=
  ⟨a.now.symm, a.backoff.symm, a.shuttingDown.symm, fun name h => (a.sight name h).symm⟩

theorem Alike.trans (a : Alike calm s s') (b : Alike calm s' r) : Alike calm s r :=
  ⟨b.now.trans a.now, b.backoff.trans a.backoff, b.shuttingDown.trans a.shuttingDown,
    fun name h => (b.sight name h).trans (a.sight name h)⟩

section views
variable (s i c)

@[simp] theorem now_apply : (s.apply i c).now = s.now := by
  unfold apply
  split <;> exact now_amend ..

@[simp] theorem backoff_apply : (s.apply i c).backoff = s.backoff := by
  unfold apply
  split <;> exact backoff_amend ..

@[simp] theorem shuttingDown_apply : (s.apply i c).shuttingDown = s.shuttingDown := by
  unfold apply
  split <;> exact shuttingDown_amend ..

end views

/-- What happens to a task that is not calm does not show. -/
theorem alike_apply (h : s.task? i = some t) (proper : c.Proper t) (loud : ¬ calm t.name) :
    Alike calm s (s.apply i c) := by
  refine ⟨now_apply s i c, backoff_apply s i c, shuttingDown_apply s i c, fun name still => ?_⟩
  have other : t.name ≠ name := fun same => loud (same ▸ still)
  rw [sight_apply h proper, if_neg other]

theorem alike_aside (mailboxes : List Mailbox) : Alike calm s { s with mailboxes } :=
  ⟨rfl, rfl, rfl, fun _ _ => rfl⟩

/-- The same change of the same task. -/
theorem Alike.apply (a : Alike calm s s') {t' : Task} (h : s.task? i = some t) (h' : s'.task? j = some t')
    (proper : c.Proper t) (proper' : c'.Proper t') (named : t'.name = t.name) (rank : s'.rank t.name j = s.rank t.name i)
    (same : c'.unparked = c.unparked) : Alike calm (s.apply i c) (s'.apply j c') := by
  have after (v : Sight) (now k : Nat) : v.after now k c' = v.after now k c := by
    obtain ⟨task, told, ending⟩ := Change.mk.inj same
    rw [Sight.after, Sight.after, task, told, ending]
  refine ⟨?_, ?_, ?_, fun name still => ?_⟩
  · rw [now_apply, now_apply, a.now]
  · rw [backoff_apply, backoff_apply, a.backoff]
  · rw [shuttingDown_apply, shuttingDown_apply, a.shuttingDown]
  · rw [sight_apply h proper, sight_apply h' proper', named, a.sight name still, a.now, after]
    split
    next same => rw [← same, rank]
    next => rfl

/-- To look at a requirement again does not show. -/
theorem alike_of_looks (h : s.task? i = some t) (looks : s.Looks i t s') : Alike calm s s' := by
  obtain ⟨pending, parked, parked', phase, rfl, _⟩ := looks
  refine ⟨now_amend .., backoff_amend .., shuttingDown_amend .., fun name _ => ?_⟩
  have unparked : ({ t with phase := .blocked pending parked' } : Task).unparked = t.unparked := by
    rw [Task.unparked, Task.unparked, phase, Phase.unparked, Phase.unparked]
  have events : (s.amend i { t with phase := .blocked pending parked' } []).eventsOf name = s.eventsOf name := by
    rw [eventsOf, history_amend]
    rfl
  have failures : (s.amend i { t with phase := .blocked pending parked' } []).failuresOf name = s.failuresOf name := by
    rw [failuresOf, failures_amend, failuresOf]
  have tasks : (s.amend i { t with phase := .blocked pending parked' } []).tasksOf name = s.tasksOf name := by
    have named : ({ t with phase := .blocked pending parked' } : Task).name = t.name := rfl
    rw [tasksOf_amend h named, unparked]
    split
    next same => exact set_rank h same
    next => rfl
  rw [sight, tasks, events, failures, sight]

/-- A task that is seen stands for a registration of the same rank. -/
theorem Alike.exists_peer (a : Alike calm s s') (h : s.task? i = some t) (still : calm t.name) :
    ∃ j t', s'.task? j = some t' ∧ t'.unparked = t.unparked ∧ s'.rank t.name j = s.rank t.name i := by
  have seen : (s'.tasksOf t.name)[s.rank t.name i]? = some t.unparked := by
    have same : s'.tasksOf t.name = s.tasksOf t.name := congrArg Sight.tasks (a.sight t.name still)
    rw [same, tasksOf_rank h rfl]
  exact exists_of_tasksOf seen

/-! ### The registry leads to the last one that is seen -/

theorem Run.lookup_isSome_of_task? (run : Run s past) (h : s.task? i = some t) : (s.lookup t.name).isSome := by
  induction run generalizing t with
  | start => cases h
  | move run m ih =>
    have e := act_effect m
    rcases e.registry with ⟨_, length, same⟩ | ⟨_, w, registered⟩
    · have old : i < _ := length ▸ lt_of_task? h
      have worker := (e.fate h).worker (List.getElem?_eq_getElem old)
      rw [same, Task.name, worker]
      exact ih (List.getElem?_eq_getElem old)
    · rw [lookup_supervise registered]
      rw [task?_supervise registered] at h
      split
      next => rfl
      next other =>
        split at h
        next =>
          cases h
          exact absurd rfl other
        next => exact ih h

theorem Run.tasksOf_of_lookup (run : Run s past) (found : s.lookup name = some i) (h : s.task? i = some t) :
    s.tasksOf name = ((s.tasks.take i).filter (·.name = name)).map Task.unparked ++ [t.unparked] := by
  obtain ⟨u, hu, named⟩ := run.name_of_lookup found
  cases h.symm.trans hu
  have last : (s.tasks.drop (i + 1)).filter (·.name = name) = [] := by
    refine List.filter_eq_nil_iff.2 fun v mem same => ?_
    obtain ⟨k, hk⟩ := List.getElem?_of_mem mem
    rw [List.getElem?_drop] at hk
    have before : i + 1 + k ≤ i := run.latest_of_lookup found hk (of_decide_eq_true same)
    exact Nat.not_succ_le_self i (Nat.le_trans (Nat.le_add_right (i + 1) k) before)
  rw [tasksOf_eq (tasks_of_task? h), if_pos named, last]
  rfl

theorem Run.getLast?_tasksOf (run : Run s past) (name : String) :
    (s.tasksOf name).getLast? = (s.lookupTask name).map Task.unparked := by
  cases found : s.lookup name with
  | none =>
    have none : s.tasks.filter (·.name = name) = [] := by
      refine List.filter_eq_nil_iff.2 fun t mem same => ?_
      obtain ⟨i, ht⟩ := List.getElem?_of_mem mem
      have known := run.lookup_isSome_of_task? ht
      rw [of_decide_eq_true same, found] at known
      cases known
    rw [tasksOf, none, lookupTask, found]
    rfl
  | some i =>
    obtain ⟨t, ht, _⟩ := run.name_of_lookup found
    rw [run.tasksOf_of_lookup found ht, List.getLast?_concat, lookupTask, found, Option.bind_some, ht, Option.map_some]

theorem Run.length_tasksOf (run : Run s past) (found : s.lookup name = some i) (h : s.task? i = some t) :
    (s.tasksOf name).length = s.rank name i + 1 := by
  rw [run.tasksOf_of_lookup found h, List.length_append, List.length_map, rank, List.length_singleton]

/-- Whoever the registry leads to is the same in both. -/
theorem Alike.lookupTask (a : Alike calm s s') (run : Run s past) (run' : Run s' past') (still : calm name) :
    (s'.lookupTask name).map Task.unparked = (s.lookupTask name).map Task.unparked := by
  have same : s'.tasksOf name = s.tasksOf name := congrArg Sight.tasks (a.sight name still)
  rw [← run.getLast?_tasksOf, ← run'.getLast?_tasksOf, same]

theorem surroundings_unparked (s : Supervisor) (t : Task) : s.surroundings t.unparked = s.surroundings t := by
  have met : (s.surroundings t.unparked).met = (s.surroundings t).met := by
    unfold surroundings Task.unparked Phase.unparked
    cases phase : t.phase with
    | blocked pending parked => cases pending <;> rfl
    | _ => rfl
  have rest : s.surroundings t.unparked = { s.surroundings t with met := (s.surroundings t.unparked).met } := rfl
  rw [rest, met]

/-- What a task finds around itself is the same in both. -/
theorem Alike.surroundings (a : Alike calm s s') (run : Run s past) (run' : Run s' past') {t' : Task}
    (same : t'.unparked = t.unparked) (watching : Watching s t) (still : ∀ r ∈ t.worker.requires, calm r) :
    s'.surroundings t' = s.surroundings t := by
  have ready (r : String) (h : calm r) : (s'.lookupTask r).any (·.everReady) = (s.lookupTask r).any (·.everReady) := by
    have any (o : Option Task) : o.any (·.everReady) = (o.map Task.unparked).any (·.everReady) := by cases o <;> rfl
    rw [any, any (s.lookupTask r), a.lookupTask run run' h]
  have met : (s'.surroundings t).met = (s.surroundings t).met := by
    unfold Supervisor.surroundings
    cases phase : t.phase with
    | blocked pending parked =>
      cases pending with
      | nil => rfl
      | cons r rest =>
        have needed : r ∈ t.worker.requires := (watching _ _ phase).1.subset List.mem_cons_self
        exact ready r (still r needed)
    | _ => rfl
  have parts : s'.surroundings t = ⟨s'.now, s'.backoff, s'.shuttingDown || t.stopRequested, (s'.surroundings t).met⟩ :=
    rfl
  rw [← surroundings_unparked, same, surroundings_unparked, parts, a.now, a.backoff, a.shuttingDown, met]
  rfl

/-! ### Requests -/

/-- What somebody outside may ask for. -/
inductive Request where
  | supervise (worker : Worker Action)
  | stop (name : String)
  | shutdown

/-- A worker that is refused changes nothing. -/
def ask (s : Supervisor) : Request → Supervisor
  | .supervise w => (s.supervise w).toOption.getD s
  | .stop name => (s.stop name).2
  | .shutdown => s.shutdown

theorem ask_supervise (s : Supervisor) (w : Worker Action) :
    (s.isLive w.name = true ∧ s.ask (.supervise w) = s) ∨
      (s.isLive w.name = false ∧ s.supervise w = .ok (s.ask (.supervise w))) := by
  have asked : s.ask (.supervise w) = (s.supervise w).toOption.getD s := rfl
  rw [asked]
  cases h : s.supervise w with
  | ok r => exact .inr ⟨isLive_of_supervise h, rfl⟩
  | error e => exact .inl ⟨(supervise_eq_error_iff.1 h).2, rfl⟩

theorem sight_supervise {w : Worker Action} (h : s.supervise w = .ok r) (name : String) :
    r.sight name = if w.name = name then
      { tasks := s.tasksOf name ++ [{ worker := w }], events := s.eventsOf name ++ [(s.now, .added w.name)]
        failures := s.failuresOf name }
      else s.sight name := by
  have tasks : r.tasks = s.tasks ++ { worker := w } :: [] := by rw [supervise_eq h]
  have history : r.history = [⟨some s.tasks.length, ⟨s.nextSeq, s.now, .added w.name⟩⟩].reverse ++ s.history := by
    rw [supervise_eq h]
    rfl
  have failures : r.failuresOf name = s.failuresOf name := by
    rw [failuresOf, supervise_eq h, failuresOf]
  have old : (s.tasks.filter (·.name = name)).map Task.unparked = s.tasksOf name := rfl
  rw [sight, tasksOf_eq tasks, eventsOf_of_told history, failures, old]
  by_cases same : w.name = name
  · have named : ({ worker := w } : Task).name = name := same
    have told : (Event.added w.name).task = some name := congrArg some same
    rw [if_pos named, if_pos same]
    simp only [told, decide_true, List.filter_cons_of_pos, List.filter_nil, List.map_cons, List.map_nil,
      List.append_nil]
    rfl
  · have named : ¬ ({ worker := w } : Task).name = name := same
    have told : ¬ (Event.added w.name).task = some name := fun told => same (Option.some.inj told)
    rw [if_neg named, if_neg same]
    simp only [told, decide_false, Bool.false_eq_true, not_false_eq_true, List.filter_cons_of_neg, List.filter_nil,
      List.map_nil, List.append_nil]
    rfl

theorem alike_supervise (a : Alike calm s s') {w : Worker Action} (h : s.supervise w = .ok r)
    (h' : s'.supervise w = .ok r') : Alike calm r r' := by
  have now : r'.now = r.now := by rw [now_supervise h, now_supervise h', a.now]
  have backoff : r'.backoff = r.backoff := by rw [supervise_eq h, supervise_eq h', a.backoff]
  have shuttingDown : r'.shuttingDown = r.shuttingDown := by rw [supervise_eq h, supervise_eq h', a.shuttingDown]
  refine ⟨now, backoff, shuttingDown, fun name still => ?_⟩
  obtain ⟨tasks, events, failures⟩ := Sight.mk.inj (a.sight name still)
  rw [sight_supervise h, sight_supervise h', a.sight name still, a.now, tasks, events, failures]

theorem alike_loud_supervise {w : Worker Action} (h : s.supervise w = .ok r) (loud : ¬ calm w.name) :
    Alike calm s r := by
  have backoff : r.backoff = s.backoff := by rw [supervise_eq h]
  have shuttingDown : r.shuttingDown = s.shuttingDown := by rw [supervise_eq h]
  refine ⟨now_supervise h, backoff, shuttingDown, fun name still => ?_⟩
  have other : w.name ≠ name := fun same => loud (same ▸ still)
  rw [sight_supervise h, if_neg other]

theorem Alike.isLive (a : Alike calm s s') (run : Run s past) (run' : Run s' past') (still : calm name) :
    s'.isLive name = s.isLive name := by
  have any (o : Option Task) : o.any (!·.isTerminated) = (o.map Task.unparked).any (!·.isTerminated) := by
    cases o <;> rfl
  rw [Supervisor.isLive, Supervisor.isLive, any, any (s.lookupTask name), a.lookupTask run run' still]

theorem stop_apply (found : s.lookup name = some i) (h : s.task? i = some t) :
    (s.stop name).2 = if t.isTerminated then s else s.apply i { task := { t with stopRequested := true } } := by
  have terminated : s.isTerminated i = t.isTerminated := by rw [isTerminated, h, Option.any_some]
  simp only [Supervisor.stop, found, terminated]
  split
  · rfl
  · exact modifyTask_eq h _

theorem stop_proper (t : Task) : ({ task := { t with stopRequested := true } } : Change).Proper t :=
  ⟨rfl, nofun, fun _ _ => id, fun own => ⟨own.worker, own.work, own.subUnits⟩⟩

theorem stop_of_none (found : s.lookup name = none) : (s.stop name).2 = s := by
  simp only [Supervisor.stop, found]

theorem alike_loud_stop (run : Run s past) (loud : ¬ calm name) : Alike calm s (s.stop name).2 := by
  cases found : s.lookup name with
  | none =>
    rw [stop_of_none found]
    exact .refl calm s
  | some i =>
    obtain ⟨t, h, rfl⟩ := run.name_of_lookup found
    rw [stop_apply found h]
    split
    · exact .refl calm s
    · exact alike_apply h (stop_proper t) loud

theorem Alike.stop (a : Alike calm s s') (run : Run s past) (run' : Run s' past') (still : calm name) :
    Alike calm (s.stop name).2 (s'.stop name).2 := by
  have same := a.lookupTask run run' still
  cases found : s.lookup name with
  | none =>
    cases found' : s'.lookup name with
    | none => rwa [stop_of_none found, stop_of_none found']
    | some j =>
      obtain ⟨t', h', _⟩ := run'.name_of_lookup found'
      rw [Supervisor.lookupTask, Supervisor.lookupTask, found, found', Option.bind_some, h'] at same
      cases same
  | some i =>
    obtain ⟨t, h, named⟩ := run.name_of_lookup found
    cases found' : s'.lookup name with
    | none =>
      rw [Supervisor.lookupTask, Supervisor.lookupTask, found, found', Option.bind_some, h] at same
      cases same
    | some j =>
      obtain ⟨t', h', named'⟩ := run'.name_of_lookup found'
      rw [Supervisor.lookupTask, Supervisor.lookupTask, found, found', Option.bind_some, Option.bind_some, h, h'] at same
      have same : t'.unparked = t.unparked := Option.some.inj same
      have terminated : t'.unparked.isTerminated = t.unparked.isTerminated := by rw [same]
      have terminated : t'.isTerminated = t.isTerminated := terminated
      have rank : s'.rank name j = s.rank name i := by
        have length := run.length_tasksOf found h
        have length' := run'.length_tasksOf found' h'
        have seen : s'.tasksOf name = s.tasksOf name := congrArg Sight.tasks (a.sight name still)
        rw [seen] at length'
        omega
      rw [stop_apply found h, stop_apply found' h', terminated]
      split
      · exact a
      · have changed := congrArg (fun u : Task => ({ task := { u with stopRequested := true } } : Change)) same
        exact a.apply h h' (stop_proper t) (stop_proper t') (named'.trans named.symm) (named ▸ rank) changed

/-- The request to all is told of nobody. -/
theorem sight_shutdown (s : Supervisor) (name : String) : s.shutdown.sight name = s.sight name := by
  cases down : s.shuttingDown with
  | true => rw [Supervisor.shutdown, if_pos down]
  | false =>
    have history : s.shutdown.history =
        [⟨none, ⟨s.nextSeq, s.now, { kind := .shutdownRequested }⟩⟩].reverse ++ s.history := by
      rw [shutdown_eq down]
      rfl
    have events : s.shutdown.eventsOf name = s.eventsOf name := by
      rw [eventsOf_of_told history]
      exact List.append_nil _
    have tasks : s.shutdown.tasksOf name = s.tasksOf name := by
      rw [shutdown_eq down]
      rfl
    have failures : s.shutdown.failuresOf name = s.failuresOf name := by
      rw [shutdown_eq down]
      rfl
    rw [sight, tasks, events, failures, sight]

theorem Alike.shutdown (a : Alike calm s s') : Alike calm s.shutdown s'.shutdown := by
  refine ⟨?_, ?_, ?_, fun name still => ?_⟩
  · rw [now_shutdown, now_shutdown, a.now]
  · rw [backoff_shutdown, backoff_shutdown, a.backoff]
  · rw [shuttingDown_shutdown, shuttingDown_shutdown]
  · rw [sight_shutdown, sight_shutdown, a.sight name still]

theorem Alike.clock (a : Alike calm s s') (time : Nat) : Alike calm { s with now := time } { s' with now := time } :=
  ⟨rfl, a.backoff, a.shuttingDown, a.sight⟩

end Switchyard.Supervisor
