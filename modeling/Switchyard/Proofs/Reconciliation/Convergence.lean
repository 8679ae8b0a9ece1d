import Switchyard.Proofs.Reconciliation.Tending

/-!
What calls to a reconciler lead to. Main statement: a completed call leaves exactly those watchers under watch that were
wanted and are kept or could be made, and all others have ended.
-/
namespace Switchyard

namespace Supervisor

variable {s s' m : Supervisor} {past : List Supervisor} {n : String}

theorem lookup_congr (same : s'.registry.entries = s.registry.entries) : s'.lookup n = s.lookup n := by
  rw [lookup, lookup, Dictionary.find?, same, Dictionary.find?]

/-- A name leads to the same registration as before, or to a later one. -/
theorem Follows.lookup_or (h : Follows s s') : s.tasks.length ≤ s'.tasks.length ∧
    (s'.lookup n = s.lookup n ∨ ∃ j, s'.lookup n = some j ∧ s.tasks.length ≤ j) := by
  induction h with
  | refl => exact ⟨Nat.le_refl _, .inl rfl⟩
  | tail _ step ih =>
    obtain ⟨a, step⟩ := step
    obtain ⟨more, before⟩ := ih
    rcases (act_effect step).registry with ⟨_, length, same⟩ | ⟨_, w, registered⟩
    · rw [length, same]
      exact ⟨more, before⟩
    · refine ⟨?_, ?_⟩
      · rw [supervise_eq registered, List.length_append]
        exact Nat.le_add_right_of_le more
      · rw [lookup_supervise registered]
        split
        next => exact .inr ⟨_, rfl, more⟩
        next => exact before

theorem Follows.length_le (h : Follows s s') : s.tasks.length ≤ s'.tasks.length := (h.lookup_or (n := "")).1

/-- What a name leads to in the end it has led to all the time. -/
theorem Follows.lookup_between (run : Run s past) (before : Follows s m) (after : Follows m s')
    (same : s'.lookup n = s.lookup n) : m.lookup n = s.lookup n := by
  have old {j : TaskId} (found : s.lookup n = some j) : j < s.tasks.length := by
    obtain ⟨t, ht, _⟩ := run.name_of_lookup found
    exact lt_of_task? ht
  obtain ⟨more, same' | ⟨j, found, later⟩⟩ := before.lookup_or (n := n)
  · exact same'
  · obtain ⟨_, same' | ⟨k, found', later'⟩⟩ := after.lookup_or (n := n)
    · exact absurd (old (same.symm.trans (same'.trans found))) (Nat.not_lt.2 later)
    · exact absurd (old (same.symm.trans found')) (Nat.not_lt.2 (Nat.le_trans more later'))

end Supervisor

namespace System

open Supervisor

variable {s s' : System} {u : UnitId}

theorem receive_reconciler {feed : Nat} {r : Reaction} (h : s.receive feed = some (s', r)) :
    s'.reconciler = s.reconciler := by
  obtain ⟨f, _, h⟩ := Option.bind_eq_some_iff.1 h
  split at h
  next =>
    cases h
    rfl
  next =>
    obtain ⟨_, h⟩ := Option.ite_none_left_eq_some.1 h
    cases h
    rfl

theorem perform_reconciler {a : Action} {r : Reaction} (h : s.perform u a = some (s', r)) :
    s'.reconciler = s.reconciler := by
  cases a with
  | receive feed => exact receive_reconciler h
  | settling feed =>
    obtain ⟨f, _, h⟩ := Option.bind_eq_some_iff.1 h
    obtain ⟨r, _, h⟩ := Option.bind_eq_some_iff.1 h
    cases h
    rfl
  | applying es => cases es <;> cases h <;> rfl
  | _ =>
    simp only [perform] at h
    repeat' split at h
    all_goals cases h
    all_goals rfl

theorem unitStep_reconciler {turn : UnitTurn} (h : s.unitStep u turn = some s') : s'.reconciler = s.reconciler := by
  cases unitStep_cases h with
  | @proceed _ s₁ _ _ performed =>
    have same : s₁.reconciler = s.reconciler := perform_reconciler performed
    exact same
  | cancel => rfl
  | abandon => rfl

/-- A step of a system is one of its reconciler, or leaves that alone. -/
theorem step_reconciler {l : Label} (h : s.step l = some s') :
    s'.reconciler = s.reconciler ∨
      (s'.supervisor = s.supervisor ∧ s.reconciler.advance s.supervisor = some s'.reconciler) := by
  cases step_cases h with
  | actor => exact .inl rfl
  | unit turns => exact .inl (unitStep_reconciler turns)
  | watch => exact .inl rfl
  | deliver => exact .inl rfl
  | reconciler advanced => exact .inr ⟨rfl, advanced⟩

/-- What the reconciler of a system has to do with. -/
def scene (s : System) : Reconciler.Scene := ⟨s.supervisor, s.reconciler⟩

end System

namespace Reconciler

open Supervisor

variable {own : String → Prop} {a : Scene} {past : List Supervisor} {specs : List WatchSpec} {told : ReconcileReport}
  {n : String}

/-! ### Calls of a session -/

/-- The system has come from the scene `a`; by steps beside the calls, if nobody has registered the own names. -/
def Leads (own : String → Prop) (a : Scene) (s : System) : Prop :=
  Follows a.supervisor s.supervisor ∧
    ((∀ n, own n → s.supervisor.lookup n = a.supervisor.lookup n) → Relation.ReflTransGen (Step own) a s.scene)

theorem Leads.other {s s' : System} (h : Leads own a s) (run : Run a.supervisor past)
    (follows : Follows s.supervisor s'.supervisor) (same : s'.reconciler = s.reconciler) : Leads own a s' := by
  refine ⟨h.1.trans follows, fun found => ?_⟩
  have before : ∀ n, own n → s.supervisor.lookup n = a.supervisor.lookup n := fun n mine =>
    h.1.lookup_between run follows (found n mine)
  have step : Step own s.scene s'.scene := by
    rw [System.scene, System.scene, same]
    exact .other follows fun n mine => (found n mine).trans (before n mine).symm
  exact (h.2 before).tail step

theorem leads_closed (run : Run a.supervisor past) : System.Closed (Leads own a) where
  step {s s' l} h m := by
    rcases System.step_reconciler m with same | ⟨same, advanced⟩
    · exact h.other run (System.step_follows m) same
    · refine ⟨same ▸ h.1, fun found => ?_⟩
      have step : Step own s.scene s'.scene := by
        rw [System.scene, System.scene, same]
        exact .advance advanced
      exact (h.2 (same ▸ found)).tail step
  clock h later := h.other run (.single ⟨.clock _, if_pos later⟩) rfl

theorem reconcile_leads (own : String → Prop) {caller : Session} (run : Run caller.system.supervisor past)
    (reply : (caller.reconcile specs).1 = .reconciled (some told)) :
    (caller.system.scene.call specs).reconciler.pass.map (·.report) = some told ∧
      (caller.reconcile specs).2.system.reconciler.pass = none ∧
      Leads own (caller.system.scene.call specs) (caller.reconcile specs).2.system := by
  obtain ⟨after, kept, ⟨completed, idle⟩ | given⟩ := caller.reconcile_cases specs
  · rw [completed] at reply ⊢
    obtain ⟨past, run⟩ := run.follows (begin_requests caller.system.reconciler caller.system.supervisor specs).follows
    refine ⟨Reply.reconciled.inj reply, idle, ?_⟩
    exact kept (Leads own (caller.system.scene.call specs)) (leads_closed run) ⟨.refl, fun _ => .refl⟩
  · rw [given] at reply
    cases reply

/-! ### Convergence -/

theorem plan_of_same (run : Run a.supervisor past) (same : ∀ n, n ∈ specs.map (·.watchName) ↔ n ∈ a.reconciler.watched)
    (alive : ∀ n ∈ a.reconciler.watched, a.supervisor.isLive n = true) :
    (plan a.reconciler.watched a.supervisor specs).started = [] ∧
      (plan a.reconciler.watched a.supervisor specs).stopped = [] ∧ (a.call specs).supervisor = a.supervisor := by
  have kept : ∀ spec ∈ specs, isKept a.reconciler.watched a.supervisor spec.watchName = true := fun spec hspec => by
    have watched := (same spec.watchName).1 (List.mem_map_of_mem hspec)
    simp [isKept, watched, alive _ watched]
  have owned : ∀ spec ∈ specs, a.supervisor.isLive spec.watchName = true → spec.watchName ∈ a.reconciler.watched :=
    fun spec hspec _ => (same spec.watchName).1 (List.mem_map_of_mem hspec)
  have started : (plan a.reconciler.watched a.supervisor specs).started = [] := by
    refine List.eq_nil_iff_forall_not_mem.2 fun n hn => ?_
    obtain ⟨unkept, spec, hspec, rfl, _⟩ := mem_toStart.1 hn
    exact absurd ((kept spec hspec).symm.trans unkept) Bool.noConfusion
  have stopped : (plan a.reconciler.watched a.supervisor specs).stopped = [] := by
    refine List.eq_nil_iff_forall_not_mem.2 fun n hn => ?_
    obtain ⟨watched, _, unkept⟩ := mem_stopped.1 hn
    obtain ⟨spec, hspec, rfl⟩ := List.mem_map.1 ((same n).2 watched)
    exact unkept (mem_toKeep.2 ⟨List.mem_map_of_mem hspec, kept spec hspec⟩)
  have asked := (begin_gathered a.reconciler run owned).2.1
  rw [stopped, gather_of_isKept kept] at asked
  exact ⟨started, stopped, asked⟩

/-- What a call comes to that is made in the scene `a`. -/
structure Converges (own : String → Prop) (a : Scene) (specs : List WatchSpec) (report : ReconcileReport) : Prop where
  begun : (a.call specs).reconciler.pass = some { report, waiting := report.stopped }
  kept : report.kept = ((specs.map (·.watchName)).filter fun n =>
    a.reconciler.watched.contains n && a.supervisor.isLive n).eraseDups
  /-- In the order of the first wanted ones that a watcher can be made for. -/
  started : report.started = ((specs.filter fun spec => spec.make.isOk &&
    !(a.reconciler.watched.contains spec.watchName && a.supervisor.isLive spec.watchName)).map
      (·.watchName)).eraseDups
  disjoint : ∀ n ∈ report.started, n ∉ report.kept
  stopped : report.stopped =
    a.reconciler.watched.filter fun n => !(report.started.contains n || report.kept.contains n)
  ascending : report.stopped.Pairwise (· < ·)
  /-- Whenever the call has completed. -/
  completed : ∀ c, Relation.ReflTransGen (Step own) (a.call specs) c → c.reconciler.pass = none →
    (∀ n, n ∈ c.reconciler.watched ↔ n ∈ report.started ∨ n ∈ report.kept) ∧
    c.reconciler.watched.Pairwise (· < ·) ∧ ∀ n ∈ report.stopped, c.supervisor.state n = some .terminated
  /-- It completes as soon as all whom it has stopped have ended. -/
  returns : ∀ c, Relation.ReflTransGen (Step own) (a.call specs) c →
    (∀ n ∈ report.stopped, c.supervisor.state n = some .terminated) →
      ∃ d, Relation.ReflTransGen (Step own) c d ∧ d.supervisor = c.supervisor ∧ d.reconciler.pass = none
  /-- If exactly those under watch are wanted, and all of them are alive. -/
  unchanged : (∀ n, n ∈ specs.map (·.watchName) ↔ n ∈ a.reconciler.watched) →
    (∀ n ∈ a.reconciler.watched, a.supervisor.isLive n = true) →
      report.started = [] ∧ report.stopped = [] ∧ (a.call specs).supervisor = a.supervisor
  /-- A session that is told of a report is told of this one, and the call has completed for it. -/
  replied : ∀ (caller : Session) told, caller.system.scene = a →
    (caller.reconcile specs).1 = .reconciled (some told) →
      let after := (caller.reconcile specs).2.system
      told = report ∧ after.reconciler.pass = none ∧
        ((∀ n, own n → after.supervisor.lookup n = (a.call specs).supervisor.lookup n) →
          Relation.ReflTransGen (Step own) (a.call specs) after.scene)

/-- In every history of calls, with watchers that end whenever they like and names that nobody else registers: wanted
watchers are kept if they are under watch and alive, and else registered if they can be made; whoever else was under
watch is stopped, and has ended when the call completes. -/
theorem call_converges (h : Tended own a) (idle : a.reconciler.pass = none)
    (names : ∀ spec ∈ specs, own spec.watchName) : ∃ report, Converges own a specs report := by
  obtain ⟨past, run⟩ := h.run
  have rest := h.rest idle
  have busy : (a.call specs).reconciler.pass = _ := (rest.call run names).1
  refine ⟨plan a.reconciler.watched a.supervisor specs, busy, rfl, rfl, fun n => disjoint_plan, rfl,
    rest.ascending.filter _, fun c m done => ?_, fun c m => (h.course idle names m).returns,
    plan_of_same run, ?_⟩
  · cases h.course idle names m with
    | waits busy => exact nomatch done.symm.trans busy
    | completed _ watched gone rest =>
      refine ⟨fun n => ?_, rest.ascending, fun n hn => (gone n hn).2⟩
      rw [watched, mem_found]
  · rintro caller told rfl reply
    obtain ⟨report, completed, leads⟩ := reconcile_leads own run reply
    rw [busy] at report
    exact ⟨(Option.some.inj report).symm, completed, leads.2⟩

/-! ### A history -/

/-- What is found is listed in one way only. -/
theorem found_eq {report : ReconcileReport} {watched : List String} (ascending : watched.Pairwise (· < ·))
    (perm : watched.Perm (report.started ++ report.kept)) : found report = watched := by
  have nodup : watched.Nodup := ascending.imp fun {x y} less same => by
    rw [same] at less
    exact String.lt_irrefl y less
  have sorted := ascending_found (perm.nodup_iff.1 nodup)
  refine ((List.mergeSort_perm _ _).trans perm.symm).eq_of_pairwise (fun x y _ _ less less' => ?_) sorted ascending
  exact absurd (String.lt_trans less less') (String.lt_irrefl x)

theorem advance_found {r : Reconciler} {s : Supervisor} {p : Pass} {watched : List String} (busy : r.pass = some p)
    (alone : p.waiting = []) (ascending : watched.Pairwise (· < ·))
    (perm : watched.Perm (p.report.started ++ p.report.kept)) : r.advance s = some { watched } := by
  rw [advance, busy, Option.bind_eq_bind, Option.bind_some, alone, found_eq ascending perm]

/-- Something beside the reconciler, a step of its wait, or the end of that with these under watch. -/
inductive Move where
  | act (x : Act)
  | wait
  | finish (watched : List String)

def Scene.move (a : Scene) : Move → Option Scene
  | .act x => (a.supervisor.act x).bind fun supervisor =>
    if supervisor.registry.entries = a.supervisor.registry.entries then some { a with supervisor } else none
  | .wait => (a.reconciler.advance a.supervisor).map fun reconciler => { a with reconciler }
  | .finish watched => a.reconciler.pass.bind fun p =>
    if p.waiting = [] ∧ watched.Pairwise (· < ·) ∧ watched.Perm (p.report.started ++ p.report.kept) then
      some { a with reconciler := { watched } }
    else none

def Scene.moves (a : Scene) (ms : List Move) : Option Scene := ms.foldlM Scene.move a

theorem Scene.move_step {b : Scene} {m : Move} (h : a.move m = some b) : Step own a b := by
  cases m with
  | act x =>
    obtain ⟨s, acted, h⟩ := Option.bind_eq_some_iff.1 h
    obtain ⟨same, h⟩ := Option.ite_none_right_eq_some.1 h
    cases h
    exact .other (.single ⟨x, acted⟩) fun n _ => lookup_congr same
  | wait =>
    obtain ⟨r, advanced, rfl⟩ := Option.map_eq_some_iff.1 h
    exact .advance advanced
  | finish watched =>
    obtain ⟨p, busy, h⟩ := Option.bind_eq_some_iff.1 h
    obtain ⟨⟨alone, ascending, perm⟩, h⟩ := Option.ite_none_right_eq_some.1 h
    cases h
    exact .advance (advance_found busy alone ascending perm)

theorem Scene.moves_steps {b : Scene} {ms : List Move} (h : a.moves ms = some b) :
    Relation.ReflTransGen (Step own) a b := by
  exact kept_of_foldlM (P := Relation.ReflTransGen (Step own) a) (fun moved before =>
    before.tail (Scene.move_step moved)) h .refl

def wanted : List WatchSpec :=
  ["a", "b", "c"].map fun key => { watchName := Session.watchName key, make := .ok { name := key, task := key } }

/-- The watcher of `a` ends by itself. -/
def lapse : List Move :=
  [.finish ["watch:a", "watch:b", "watch:c"], .act (.actor 0 .proceed), .act (.actor 0 .proceed),
    .act (.work ⟨0, none⟩ (.ended (.returned none))), .act (.actor 0 .proceed), .act (.actor 0 .proceed)]

/-- One is wanted twice; for another one a watcher can be made only the second time. -/
def wantedNext : List WatchSpec :=
  [("b", .error (.fail "e")), ("d", .error (.fail "e")), ("a", .ok { name := "a", task := "a" }),
    ("b", .error (.fail "e")), ("d", .ok { name := "d", task := "d" })].map fun (key, make) =>
    { watchName := Session.watchName key, make }

/-- The watcher of `c` ends because it is asked to. -/
def departure : List Move :=
  [.wait, .act (.actor 2 .proceed), .act (.actor 2 .cancel), .wait, .finish ["watch:a", "watch:b", "watch:d"]]

def IsWatchName (n : String) : Prop := ∃ key, n = Session.watchName key

theorem call_converges_lapsed : ∃ a c report, Tended IsWatchName a ∧ a.reconciler.pass = none ∧
    a.reconciler.watched = ["watch:a", "watch:b", "watch:c"] ∧ (∀ spec ∈ wantedNext, IsWatchName spec.watchName) ∧
    Relation.ReflTransGen (Step IsWatchName) (a.call wantedNext) c ∧ c.reconciler.pass = none ∧
    report = { started := ["watch:a", "watch:d"], kept := ["watch:b"], stopped := ["watch:c"] } ∧
    Converges IsWatchName a wantedNext report := by
  have names : ∀ spec ∈ wanted, IsWatchName spec.watchName := List.forall_mem_map.2 fun key _ => ⟨key, rfl⟩
  have namesNext : ∀ spec ∈ wantedNext, IsWatchName spec.watchName := List.forall_mem_map.2 fun (key, _) _ => ⟨key, rfl⟩
  have ran : (((Scene.mk {} {}).call wanted).moves lapse).any (fun a =>
      a.reconciler.pass.isNone && a.reconciler.watched = ["watch:a", "watch:b", "watch:c"] &&
      ((a.call wantedNext).reconciler.pass.map (·.report) =
        some { started := ["watch:a", "watch:d"], kept := ["watch:b"], stopped := ["watch:c"] }) &&
      ((a.call wantedNext).moves departure).any fun c => c.reconciler.pass.isNone) = true := by decide +kernel
  obtain ⟨a, first, ran⟩ := (Option.any_eq_true _ _).1 ran
  obtain ⟨ran, next⟩ := Bool.and_eq_true_iff.1 ran
  obtain ⟨ran, reported⟩ := Bool.and_eq_true_iff.1 ran
  obtain ⟨idle, watched⟩ := Bool.and_eq_true_iff.1 ran
  obtain ⟨c, second, completed⟩ := (Option.any_eq_true _ _).1 next
  have idle := Option.isNone_iff_eq_none.1 idle
  have begins : Tended IsWatchName (.mk {} {}) := .start (.start .standard 0 []) fun _ _ => rfl
  have tended : Tended IsWatchName a := (begins.call rfl names).steps (Scene.moves_steps first)
  obtain ⟨report, converges⟩ := call_converges tended idle namesNext
  have reported := of_decide_eq_true reported
  rw [converges.begun] at reported
  exact ⟨a, c, report, tended, idle, of_decide_eq_true watched, namesNext, Scene.moves_steps second,
    Option.isNone_iff_eq_none.1 completed, Option.some.inj reported, converges⟩

end Reconciler

end Switchyard
