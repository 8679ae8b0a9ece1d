import Switchyard.Proofs.Reconciliation.Keeping
import Switchyard.Proofs.Supervision.Work

/-!
A reconciler that is fed with snapshots. Main statement: they are taken in the order in which they were sent, and each
pass is carried to its end before the next snapshot is taken and before the worker leaves, whoever asks it to stop.
Whenever no pass is in progress, what the last one has found is under watch, and that is everybody alive whom the worker
has registered.
-/
namespace Switchyard

namespace Supervisor

variable {s s' s'' : Supervisor} {i : TaskId} {u : UnitId}

/-- One supervisor becomes another, and nobody registers. -/
structure Beside (s s' : Supervisor) : Prop where
  follows : Follows s s'
  lookup : ∀ n, s'.lookup n = s.lookup n
  length : s'.tasks.length = s.tasks.length

theorem Beside.trans (h : Beside s s') (h' : Beside s' s'') : Beside s s'' where
  follows := h.follows.trans h'.follows
  lookup n := (h'.lookup n).trans (h.lookup n)
  length := h'.length.trans h.length

theorem beside_markReady (running : s.isRunning u = true) : Beside s (s.markReady u.task) where
  follows := .single ⟨.ready u, if_pos running⟩
  lookup n := by
    rcases markReady_cases s u.task with same | ⟨t, _, _, amended⟩
    · rw [same]
    · rw [amended, lookup_amend]
  length := by
    rcases markReady_cases s u.task with same | ⟨t, _, _, amended⟩
    · rw [same]
    · rw [amended, tasks_amend, List.length_set]

theorem beside_setProgress (running : s.isRunning u = true) (p : Progress) : Beside s (s.setProgress u p) where
  follows := .single ⟨.work u p, if_pos running⟩
  lookup _ := rfl
  length := List.length_modify ..

end Supervisor

namespace Reconciler

open Supervisor

variable {a : Scene} {r r' : Reconciler} {s s' : Supervisor} {past : List Supervisor} {made : List TaskId}

/-- A reconciler has a history that leads to this scene. In it these registrations have been made by calls, and none of
the calls has been dropped. -/
def Recorded (a : Scene) (made : List TaskId) : Prop :=
  ∃ c : Ledger, c.Kept ∧ c.toScene = a ∧ ∀ i ∈ made, i ∈ c.held ++ c.pending

theorem Recorded.start (run : Run s past) : Recorded ⟨s, {}⟩ [] :=
  ⟨{ supervisor := s, reconciler := {} }, ⟨s, past, run, .refl⟩, rfl, nofun⟩

theorem Recorded.run (h : Recorded a made) : ∃ past, Run a.supervisor past := by
  obtain ⟨_, kept, rfl, _⟩ := h
  exact kept.sound.run

theorem Recorded.other (h : Recorded ⟨s, r⟩ made) (follows : Follows s s') : Recorded ⟨s', r⟩ made := by
  obtain ⟨⟨_, held, pending, lost⟩, kept, rfl, known⟩ := h
  exact ⟨_, kept.step (.other follows), rfl, known⟩

theorem Recorded.call (h : Recorded a made) (idle : a.reconciler.pass = none) (specs : List WatchSpec) :
    Recorded (a.call specs) (made ++
      List.range' a.supervisor.tasks.length ((a.call specs).supervisor.tasks.length - a.supervisor.tasks.length)) := by
  obtain ⟨c, kept, rfl, known⟩ := h
  refine ⟨_, kept.step (.call idle specs), rfl, fun i hi => ?_⟩
  rcases List.mem_append.1 hi with old | new
  · have held := known i old
    rw [kept.sound.idle idle, List.append_nil] at held
    exact List.mem_append_left _ held
  · exact List.mem_append_right _ new

theorem Recorded.advance (h : Recorded ⟨s, r⟩ made) (advanced : r.advance s = some r') : Recorded ⟨s, r'⟩ made := by
  obtain ⟨⟨_, held, pending, lost⟩, kept, rfl, known⟩ := h
  cases pass : r'.pass with
  | none => exact ⟨_, kept.step (.complete advanced pass), rfl, by rwa [List.append_nil]⟩
  | some p => exact ⟨_, kept.step (.wait advanced pass), rfl, known⟩

theorem Recorded.watched {i : TaskId} {n : String} (h : Recorded a made) (idle : a.reconciler.pass = none)
    (mem : i ∈ made) (live : a.supervisor.LiveUnder n i) : n ∈ a.reconciler.watched := by
  obtain ⟨c, kept, rfl, known⟩ := h
  have held := known i mem
  rw [kept.sound.idle idle, List.append_nil] at held
  exact kept.sound.held i held n live

end Reconciler

/-- What is told of the worker that receives. -/
inductive Entry where
  | took (specs : List WatchSpec)
  | applied (report : ReconcileReport)
  | left

/-- The snapshots sent, what is told of the worker, and the registrations it has made, each in their order. -/
structure Logbook where
  sent : List (List WatchSpec) := []
  log : List Entry := []
  made : List TaskId := []

def Logbook.tell (j : Logbook) (entries : List Entry) (made : List TaskId) : Logbook :=
  { j with log := j.log ++ entries, made := j.made ++ made }

theorem Logbook.tell_nil (j : Logbook) : j.tell [] [] = j := by
  rw [tell, List.append_nil, List.append_nil]

namespace System

open Supervisor

/-- What is to be told of an action of the worker that receives from feed `k`. -/
def told (s : System) (k : Nat) : Action → List Entry
  | .receive _ => (s.feeds[k]?.map fun f => (f.queue.head?.map .took).getD .left).toList
  | .settling _ => (do
    let f ← s.feeds[k]?
    let p ← f.reconciler.pass
    let r ← f.reconciler.advance s.supervisor
    if r.pass.isNone then some (Entry.applied p.report) else none).toList
  | _ => []

/-- What is to be told of a turn of registration `i`. -/
def toldOfTurn (s : System) (k : Nat) (i : TaskId) : UnitTurn → List Entry
  | .proceed =>
    match s.supervisor.progress? ⟨i, none⟩ with
    | some (.running w) => s.told k w.next
    | _ => []
  | .cancel => [.left]
  | .abandon _ => []

/-- The registrations that have come about from one system to another. -/
def registrations (s s' : System) : List TaskId :=
  List.range' s.supervisor.tasks.length (s'.supervisor.tasks.length - s.supervisor.tasks.length)

/-- A feed whose snapshots go to registration `i`, which was new at the scene `origin`. It alone uses the receiving end
and the reconciler, which may have been used before; others do not register the own names. -/
inductive Fed (own : String → Prop) (k : Nat) (i : TaskId) (origin : Reconciler.Scene) : System → Logbook → Prop
  | start {s : System} {f : Feed} {name : String}
      (registered : s.supervisor.task? i = some { worker := Session.watchWorkerFor k name })
      (feed : s.feeds[k]? = some f) (scene : origin = ⟨s.supervisor, f.reconciler⟩) (idle : f.reconciler.pass = none)
      (history : Reconciler.Recorded origin []) : Fed own k i origin s { sent := f.queue }
  | turn {s s' : System} {j : Logbook} {turn : UnitTurn} (h : Fed own k i origin s j)
      (m : s.unitStep ⟨i, none⟩ turn = some s') :
      Fed own k i origin s' (j.tell (s.toldOfTurn k i turn) (s.registrations s'))
  | other {s s' : System} {j : Logbook} {l : Label} (h : Fed own k i origin s j)
      (foreign : ∀ turn, l ≠ .unit ⟨i, none⟩ turn) (m : s.step l = some s') (feed : s'.feeds[k]? = s.feeds[k]?)
      (apart : ∀ n, own n → s'.supervisor.lookup n = s.supervisor.lookup n) : Fed own k i origin s' j
  | clock {s : System} {j : Logbook} {time : Nat} (h : Fed own k i origin s j) (later : s.supervisor.now ≤ time) :
      Fed own k i origin (s.setClock time) j
  | call {s s' : System} {j : Logbook} (h : Fed own k i origin s j) (m : Requests s.supervisor s'.supervisor)
      (feed : s'.feeds[k]? = s.feeds[k]?) (apart : ∀ n, own n → s'.supervisor.lookup n = s.supervisor.lookup n) :
      Fed own k i origin s' j
  | send {s s' : System} {j : Logbook} {f : Feed} (h : Fed own k i origin s j) (specs : List WatchSpec)
      (here : s.feeds[k]? = some f) (same : s'.supervisor = s.supervisor)
      (feed : s'.feeds[k]? = some { f with queue := f.queue ++ [specs] }) :
      Fed own k i origin s' { j with sent := j.sent ++ [specs] }
  | close {s s' : System} {j : Logbook} {f : Feed} (h : Fed own k i origin s j) (here : s.feeds[k]? = some f)
      (same : s'.supervisor = s.supervisor) (feed : s'.feeds[k]? = some { f with isOpen := false }) :
      Fed own k i origin s' j

variable {own : String → Prop} {s s' : System} {k : Nat} {i : TaskId} {origin : Reconciler.Scene} {j : Logbook}
  {f : Feed} {a : Nat} {turn : UnitTurn} {todo : Script}

/-- Whoever receives from feed `k`. -/
def Receives (s : System) (k : Nat) (i : TaskId) : Prop :=
  ∃ t name, s.supervisor.task? i = some t ∧ t.worker = Session.watchWorkerFor k name

theorem Receives.follows (h : s.Receives k i) (follows : Follows s.supervisor s'.supervisor) : s'.Receives k i := by
  obtain ⟨t, name, ht, built⟩ := h
  obtain ⟨t', ht', worker⟩ := follows.worker ht
  exact ⟨t', name, ht', worker.trans built⟩

theorem Fed.receives (h : Fed own k i origin s j) : s.Receives k i := by
  induction h with
  | start registered => exact ⟨_, _, registered, rfl⟩
  | turn _ m ih => exact ih.follows (unitStep_follows m)
  | other _ _ m _ _ ih => exact ih.follows (step_follows m)
  | clock _ later ih => exact ih.follows (.single ⟨.clock _, if_pos later⟩)
  | call _ m _ _ ih => exact ih.follows m.follows
  | send _ _ _ same _ ih => exact ih.follows (same ▸ .refl)
  | close _ _ same _ ih => exact ih.follows (same ▸ .refl)

/-! ### A turn of the worker -/

/-- What a turn of the worker makes of its feed `f` and of what it has still to do, and what is told of it. -/
inductive Listened (k : Nat) (i : TaskId) (s : System) (f : Feed) (a : Nat) (s' : System) :
    Script → List Entry → Prop
  | ready (feed : s'.feeds[k]? = some f) (beside : Beside s.supervisor s'.supervisor)
      (standing : s'.supervisor.standing i = (.running (.script [.receive k]), a)) :
      Listened k i s f a s' [.ready, .receive k] []
  | took {specs : List WatchSpec} {rest : List (List WatchSpec)} (queue : f.queue = specs :: rest)
      (feed : s'.feeds[k]? =
        some { f with reconciler := (f.reconciler.begin s.supervisor specs).1, queue := rest })
      (beside : Beside (f.reconciler.begin s.supervisor specs).2 s'.supervisor)
      (standing : s'.supervisor.standing i = (.running (.script [.settling k, .receive k]), a)) :
      Listened k i s f a s' [.receive k] [.took specs]
  | waited {r : Reconciler} {p : Switchyard.Pass} (advanced : f.reconciler.advance s.supervisor = some r)
      (busy : r.pass = some p) (feed : s'.feeds[k]? = some { f with reconciler := r })
      (beside : Beside s.supervisor s'.supervisor)
      (standing : s'.supervisor.standing i = (.running (.script [.settling k, .receive k]), a)) :
      Listened k i s f a s' [.settling k, .receive k] []
  | applied {r : Reconciler} {p : Switchyard.Pass} (busy : f.reconciler.pass = some p)
      (advanced : f.reconciler.advance s.supervisor = some r) (idle : r.pass = none)
      (feed : s'.feeds[k]? = some { f with reconciler := r }) (beside : Beside s.supervisor s'.supervisor)
      (standing : s'.supervisor.standing i = (.running (.script [.receive k]), a)) :
      Listened k i s f a s' [.settling k, .receive k] [.applied p.report]
  | left {e : Ending} (feed : s'.feeds[k]? = some f) (beside : Beside s.supervisor s'.supervisor)
      (standing : s'.supervisor.standing i = (.ended e, a)) : Listened k i s f a s' [.receive k] [.left]

theorem toldOfTurn_proceed {w : Work} (h : s.supervisor.standing i = (.running w, a)) :
    s.toldOfTurn k i .proceed = s.told k w.next := by
  rw [toldOfTurn, progress?_of_standing h]

/-- A script has no bracket to be given up. -/
theorem unitStep_of_script (h : s.supervisor.standing i = (.running (.script todo), a))
    (m : s.unitStep ⟨i, none⟩ turn = some s') :
    (∃ s₁ r, turn = .proceed ∧ s.perform ⟨i, none⟩ (Work.script todo).next = some (s₁, r) ∧
        s₁.supervisor.standing i = (.running (.script todo), a) ∧
        s' = s₁.onSupervisor (·.setProgress ⟨i, none⟩ ((Work.script todo).resume r))) ∨
      ∃ r, turn = .cancel ∧ onCancel (Work.script todo).next = some r ∧
        s' = s.onSupervisor (·.setProgress ⟨i, none⟩ ((Work.script todo).resume r)) := by
  have here := progress?_of_standing h
  cases unitStep_cases m with
  | abandon there left =>
    cases there.symm.trans here
    cases left
  | cancel there asked =>
    cases there.symm.trans here
    exact .inr ⟨_, rfl, asked, rfl⟩
  | proceed there performed =>
    cases there.symm.trans here
    exact .inl ⟨_, _, rfl, performed, (perform_standing performed).trans h, rfl⟩

theorem listened_of_ready (feed : s.feeds[k]? = some f)
    (h : s.supervisor.standing i = (.running (.script [.ready, .receive k]), a))
    (m : s.unitStep ⟨i, none⟩ turn = some s') :
    Listened k i s f a s' [.ready, .receive k] (s.toldOfTurn k i turn) := by
  have running := (unitStep_cases m).isRunning
  rcases unitStep_of_script h m with ⟨s₁, r, rfl, performed, standing, rfl⟩ | ⟨r, _, asked, _⟩
  · rw [toldOfTurn_proceed h]
    cases performed
    exact .ready feed ((beside_markReady running).trans (beside_setProgress (isRunning_markReady running) _))
      (standing_setProgress_self standing _)
  · cases asked

theorem listened_of_receive (feed : s.feeds[k]? = some f)
    (h : s.supervisor.standing i = (.running (.script [.receive k]), a)) (m : s.unitStep ⟨i, none⟩ turn = some s') :
    Listened k i s f a s' [.receive k] (s.toldOfTurn k i turn) := by
  have running := (unitStep_cases m).isRunning
  rcases unitStep_of_script h m with ⟨s₁, r, rfl, performed, standing, rfl⟩ | ⟨r, rfl, asked, rfl⟩
  · rw [toldOfTurn_proceed h]
    have performed : s.receive k = some (s₁, r) := performed
    have requests := receive_requests performed
    rw [receive, feed, Option.bind_eq_bind, Option.bind_some] at performed
    cases queue : f.queue with
    | nil =>
      rw [queue] at performed
      obtain ⟨_, performed⟩ := Option.ite_none_left_eq_some.1 performed
      cases performed
      have entry : s.told k (.receive k) = [.left] := by simp [told, feed, queue]
      exact entry ▸ .left feed (beside_setProgress running _) (standing_setProgress_self standing _)
    | cons specs rest =>
      rw [queue] at performed
      cases performed
      have entry : s.told k (.receive k) = [.took specs] := by simp [told, feed, queue]
      have inside : k < s.feeds.length := (List.getElem?_eq_some_iff.1 feed).1
      exact entry ▸ .took queue (List.getElem?_set_self inside)
        (beside_setProgress (requests.isRunning running) _) (standing_setProgress_self standing _)
  · cases asked
    exact .left feed (beside_setProgress running _) (standing_setProgress_self h _)

theorem listened_of_settling (feed : s.feeds[k]? = some f)
    (h : s.supervisor.standing i = (.running (.script [.settling k, .receive k]), a))
    (m : s.unitStep ⟨i, none⟩ turn = some s') :
    Listened k i s f a s' [.settling k, .receive k] (s.toldOfTurn k i turn) := by
  have running := (unitStep_cases m).isRunning
  rcases unitStep_of_script h m with ⟨s₁, r, rfl, performed, standing, rfl⟩ | ⟨r, _, asked, _⟩
  · rw [toldOfTurn_proceed h]
    have performed : s.settle k = some (s₁, r) := performed
    rw [settle, feed, Option.bind_eq_bind, Option.bind_some] at performed
    obtain ⟨r', advanced, performed⟩ := Option.bind_eq_some_iff.1 performed
    cases performed
    obtain ⟨p, busy, _⟩ := Option.bind_eq_some_iff.1 advanced
    have inside : k < s.feeds.length := (List.getElem?_eq_some_iff.1 feed).1
    have feed' : (s.feeds.set k { f with reconciler := r' })[k]? = some { f with reconciler := r' } :=
      List.getElem?_set_self inside
    cases pass : r'.pass with
    | none =>
      have entry : s.told k (.settling k) = [.applied p.report] := by simp [told, feed, busy, advanced, pass]
      exact entry ▸ .applied busy advanced pass feed' (beside_setProgress running _)
        (standing_setProgress_self standing _)
    | some p' =>
      have entry : s.told k (.settling k) = [] := by simp [told, feed, busy, advanced, pass]
      exact entry ▸ .waited advanced pass feed' (beside_setProgress running _)
        (standing_setProgress_self standing _)
  · cases asked

/-! ### The books of a feed -/

/-- What is told of a pass that is over. -/
def Entry.ofPass (x : List WatchSpec × ReconcileReport) : List Entry := [.took x.1, .applied x.2]

/-- Of the wanted watchers those are found that can be made, and those that are kept. -/
def Exact (x : List WatchSpec × ReconcileReport) : Prop :=
  ∀ n, n ∈ Reconciler.found x.2 ↔ ∃ spec ∈ x.1, spec.watchName = n ∧ (spec.make.isOk = true ∨ n ∈ x.2.kept)

theorem exact_plan (watched : List String) (sup : Supervisor) (specs : List WatchSpec) :
    Exact (specs, Reconciler.plan watched sup specs) := by
  intro n
  rw [Reconciler.mem_found]
  simp only [Reconciler.plan, Reconciler.mem_toStart, Reconciler.mem_toKeep, List.mem_map]
  constructor
  · rintro (⟨_, spec, wanted, rfl, ok⟩ | ⟨⟨spec, wanted, rfl⟩, kept⟩)
    · exact ⟨spec, wanted, rfl, .inl ok⟩
    · exact ⟨spec, wanted, rfl, .inr ⟨⟨spec, wanted, rfl⟩, kept⟩⟩
  · rintro ⟨spec, wanted, rfl, ok | kept⟩
    · cases kept : Reconciler.isKept watched sup spec.watchName with
      | true => exact .inr ⟨⟨spec, wanted, rfl⟩, rfl⟩
      | false => exact .inl ⟨rfl, spec, wanted, rfl, ok⟩
    · exact .inr kept

/-- Where the worker stands, and the reconciler with it; then the pass in progress, and what has been told since the one
before was over. -/
inductive Stands (k : Nat) :
    Progress × Nat → Option Switchyard.Pass → List (List WatchSpec × ReconcileReport) → List Entry → Prop
  | unbegun {e : Ending} : Stands k (.ended e, 0) none [] []
  | ready {a : Nat} (begun : a ≠ 0) : Stands k (.running (.script [.ready, .receive k]), a) none [] []
  | listening {a : Nat} (begun : a ≠ 0) : Stands k (.running (.script [.receive k]), a) none [] []
  | applying {a : Nat} {p : Switchyard.Pass} {specs : List WatchSpec} (begun : a ≠ 0) :
      Stands k (.running (.script [.settling k, .receive k]), a) (some p) [(specs, p.report)] [.took specs]
  | left {a : Nat} {e : Ending} (begun : a ≠ 0) : Stands k (.ended e, a) none [] [.left]

/-- What holds of a feed at every moment. -/
structure Books (own : String → Prop) (k : Nat) (i : TaskId) (origin : Reconciler.Scene) (s : System) (j : Logbook)
    (f : Feed) (passes current : List (List WatchSpec × ReconcileReport)) (tail : List Entry) : Prop where
  feed : s.feeds[k]? = some f
  stands : Stands k (s.supervisor.standing i) f.reconciler.pass current tail
  /-- Each pass is over before the next snapshot is taken, and before the worker leaves. -/
  log : j.log = passes.flatMap Entry.ofPass ++ tail
  /-- In their order, none twice and none left out. -/
  sent : j.sent = (passes ++ current).map (·.1) ++ f.queue
  watched : f.reconciler.watched = (passes.getLast?.map fun x => Reconciler.found x.2).getD origin.reconciler.watched
  wanted : ∀ x ∈ passes ++ current, ∀ n ∈ Reconciler.found x.2, n ∈ x.1.map (·.watchName)
  recorded : Reconciler.Recorded ⟨s.supervisor, f.reconciler⟩ j.made
  alone : Reconciler.Tended own origin → (∀ specs ∈ j.sent, ∀ spec ∈ specs, own spec.watchName) →
    Reconciler.Tended own ⟨s.supervisor, f.reconciler⟩ ∧ ∀ x ∈ passes ++ current, Exact x

section books
variable {passes current : List (List WatchSpec × ReconcileReport)} {tail : List Entry}
  (b : Books own k i origin s j f passes current tail)
include b

/-- Others go on, or the worker does without its feed. -/
theorem Books.tell (entries : List Entry) (follows : Follows s.supervisor s'.supervisor) (feed : s'.feeds[k]? = some f)
    (apart : ∀ n, own n → s'.supervisor.lookup n = s.supervisor.lookup n)
    (stands : Stands k (s'.supervisor.standing i) f.reconciler.pass current (tail ++ entries)) :
    Books own k i origin s' (j.tell entries []) f passes current (tail ++ entries) where
  feed := feed
  stands := stands
  log := by rw [Logbook.tell, b.log, List.append_assoc]
  sent := b.sent
  watched := b.watched
  wanted := b.wanted
  recorded := by
    rw [Logbook.tell, List.append_nil]
    exact b.recorded.other follows
  alone begun names := (b.alone begun names).imp_left (·.step (.other follows apart))

theorem Books.aside (follows : Follows s.supervisor s'.supervisor) (feed : s'.feeds[k]? = some f)
    (apart : ∀ n, own n → s'.supervisor.lookup n = s.supervisor.lookup n)
    (stands : Stands k (s'.supervisor.standing i) f.reconciler.pass current tail) :
    Books own k i origin s' j f passes current tail := by
  have same := b.tell [] follows feed apart (by rwa [List.append_nil])
  rwa [Logbook.tell_nil, List.append_nil] at same

/-- The next snapshot is taken, and a pass begins with it. -/
theorem Books.took {specs : List WatchSpec} {rest : List (List WatchSpec)} (idle : f.reconciler.pass = none)
    (begun : current = [] ∧ tail = []) (queue : f.queue = specs :: rest)
    (feed : s'.feeds[k]? = some { f with reconciler := (f.reconciler.begin s.supervisor specs).1, queue := rest })
    (beside : Beside (f.reconciler.begin s.supervisor specs).2 s'.supervisor) (more : a ≠ 0)
    (standing : s'.supervisor.standing i = (.running (.script [.settling k, .receive k]), a)) :
    ∃ f' report, Books own k i origin s' (j.tell [.took specs] (s.registrations s')) f' passes [(specs, report)]
      [.took specs] := by
  obtain ⟨rfl, rfl⟩ := begun
  obtain ⟨past, run⟩ := b.recorded.run
  let scene : Reconciler.Scene := ⟨s.supervisor, f.reconciler⟩
  obtain ⟨report, begun⟩ := scene.begun run specs
  have pass : (f.reconciler.begin s.supervisor specs).1.pass = some { report, waiting := report.stopped } := begun.pass
  have watched : (f.reconciler.begin s.supervisor specs).1.watched = f.reconciler.watched := begun.watched
  have sent : j.sent = passes.map (·.1) ++ specs :: rest := by rw [b.sent, List.append_nil, queue]
  refine ⟨_, report, feed, ?_, ?_, ?_, ?_, ?_, ?_, fun tidy names => ?_⟩
  · rw [standing, pass]
    exact .applying more
  · rw [Logbook.tell, b.log, List.append_nil]
  · rw [Logbook.tell, sent, List.map_append, List.append_assoc]
    rfl
  · rw [watched, b.watched]
  · intro x hx n hn
    rcases List.mem_append.1 hx with old | new
    · exact b.wanted x (List.mem_append_left _ old) n hn
    · cases List.mem_singleton.1 new
      exact begun.wanted n (Reconciler.mem_found.1 hn)
  · rw [Logbook.tell, registrations, beside.length]
    have called : Reconciler.Recorded (scene.call specs) _ := b.recorded.call idle specs
    exact called.other beside.follows
  · obtain ⟨tended, exact⟩ := b.alone tidy names
    have mine : ∀ spec ∈ specs, own spec.watchName := names specs (by rw [Logbook.tell, sent]; simp)
    have planned := ((tended.rest idle).call run mine).1
    cases pass.symm.trans planned
    refine ⟨(tended.call idle mine).step (.other beside.follows fun n _ => beside.lookup n), fun x hx => ?_⟩
    rcases List.mem_append.1 hx with old | new
    · exact exact x (List.mem_append_left _ old)
    · cases List.mem_singleton.1 new
      exact exact_plan _ _ _

/-- The pass in progress takes a step. -/
theorem Books.advances {r : Reconciler} (advanced : f.reconciler.advance s.supervisor = some r)
    (beside : Beside s.supervisor s'.supervisor) :
    Reconciler.Recorded ⟨s'.supervisor, r⟩ j.made ∧
      (Reconciler.Tended own origin → (∀ specs ∈ j.sent, ∀ spec ∈ specs, own spec.watchName) →
        Reconciler.Tended own ⟨s'.supervisor, r⟩ ∧ ∀ x ∈ passes ++ current, Exact x) := by
  refine ⟨(b.recorded.advance advanced).other beside.follows, fun tidy names => ?_⟩
  obtain ⟨tended, exact⟩ := b.alone tidy names
  exact ⟨(tended.step (.advance advanced)).step (.other beside.follows fun n _ => beside.lookup n), exact⟩

theorem Books.waited {r : Reconciler} {p p' : Switchyard.Pass} (busy : f.reconciler.pass = some p)
    (advanced : f.reconciler.advance s.supervisor = some r) (waits : r.pass = some p')
    (feed : s'.feeds[k]? = some { f with reconciler := r }) (beside : Beside s.supervisor s'.supervisor)
    (stands : p'.report = p.report → Stands k (s'.supervisor.standing i) (some p') current tail) :
    Books own k i origin s' j { f with reconciler := r } passes current tail := by
  obtain ⟨recorded, alone⟩ := b.advances advanced beside
  rcases Reconciler.report_advance busy advanced with ⟨q, rfl, same⟩ | rfl
  · cases waits
    exact { b with feed, stands := stands same, recorded, alone }
  · cases waits

theorem Books.applied {r : Reconciler} {p : Switchyard.Pass} {specs : List WatchSpec}
    (busy : f.reconciler.pass = some p) (advanced : f.reconciler.advance s.supervisor = some r) (idle : r.pass = none)
    (feed : s'.feeds[k]? = some { f with reconciler := r }) (beside : Beside s.supervisor s'.supervisor)
    (taken : current = [(specs, p.report)]) (told : tail = [.took specs])
    (stands : Stands k (s'.supervisor.standing i) none [] []) :
    Books own k i origin s' (j.tell [.applied p.report] []) { f with reconciler := r } (passes ++ current) [] [] := by
  obtain ⟨recorded, alone⟩ := b.advances advanced beside
  rcases Reconciler.report_advance busy advanced with ⟨q, rfl, _⟩ | rfl
  · cases idle
  · have log : (j.tell [.applied p.report] []).log = (passes ++ current).flatMap Entry.ofPass := by
      rw [Logbook.tell, b.log, taken, told, List.flatMap_append, List.append_assoc]
      rfl
    have watched : Reconciler.found p.report =
        ((passes ++ current).getLast?.map fun x => Reconciler.found x.2).getD origin.reconciler.watched := by
      rw [taken, List.getLast?_concat]
      rfl
    rw [← List.append_nil j.made] at recorded
    refine { feed, stands, recorded, watched, log := ?_, sent := ?_, wanted := ?_, alone := ?_ }
    · rw [log, List.append_nil]
    · rw [List.append_nil]
      exact b.sent
    · rw [List.append_nil]
      exact b.wanted
    · rw [List.append_nil]
      exact alone

theorem Books.heard {entries : List Entry} (here : s.supervisor.standing i = (.running (.script todo), a))
    (heard : Listened k i s f a s' todo entries) :
    ∃ f' passes' current' tail',
      Books own k i origin s' (j.tell entries (s.registrations s')) f' passes' current' tail' := by
  have stands : Stands k (.running (.script todo), a) f.reconciler.pass current tail := here ▸ b.stands
  have nobody (beside : Beside s.supervisor s'.supervisor) : s.registrations s' = [] := by
    rw [registrations, beside.length, Nat.sub_self, List.range'_zero]
  generalize pass : f.reconciler.pass = inside at stands
  cases heard with
  | ready feed beside standing =>
    cases stands with
    | ready more =>
      rw [nobody beside]
      exact ⟨_, _, _, _, b.tell [] beside.follows feed (fun n _ => beside.lookup n) (by
        rw [standing, pass]
        exact .listening more)⟩
  | took queue feed beside standing =>
    cases stands with
    | listening more =>
      obtain ⟨_, _, books⟩ := b.took pass ⟨rfl, rfl⟩ queue feed beside more standing
      exact ⟨_, _, _, _, books⟩
  | waited advanced busy feed beside standing =>
    cases stands with
    | applying more =>
      rw [nobody beside, Logbook.tell_nil]
      exact ⟨_, _, _, _, b.waited pass advanced busy feed beside fun same => by
        rw [standing, ← same]
        exact .applying more⟩
  | applied busy advanced idle feed beside standing =>
    cases stands with
    | applying more =>
      cases pass.symm.trans busy
      rw [nobody beside]
      exact ⟨_, _, _, _, b.applied pass advanced idle feed beside rfl rfl (by
        rw [standing]
        exact .listening more)⟩
  | left feed beside standing =>
    cases stands with
    | listening more =>
      rw [nobody beside]
      exact ⟨_, _, _, _, b.tell [.left] beside.follows feed (fun n _ => beside.lookup n) (by
        rw [standing, pass]
        exact .left more)⟩

/-- A turn of the worker. -/
theorem Books.unitStep (m : s.unitStep ⟨i, none⟩ turn = some s') :
    ∃ f' passes' current' tail',
      Books own k i origin s' (j.tell (s.toldOfTurn k i turn) (s.registrations s')) f' passes' current' tail' := by
  have stands := b.stands
  generalize here : s.supervisor.standing i = standing at stands
  generalize f.reconciler.pass = inside at stands
  cases stands with
  | unbegun => exact nomatch (unitStep_of_ended here).symm.trans m
  | ready => exact b.heard here (listened_of_ready b.feed here m)
  | listening => exact b.heard here (listened_of_receive b.feed here m)
  | applying => exact b.heard here (listened_of_settling b.feed here m)
  | left => exact nomatch (unitStep_of_ended here).symm.trans m

/-- A step of others. They may begin the attempt of the worker, which is the only one. -/
theorem Books.other {l : Label} (foreign : ∀ turn, l ≠ .unit ⟨i, none⟩ turn) (m : s.step l = some s')
    (feed : s'.feeds[k]? = s.feeds[k]?) (apart : ∀ n, own n → s'.supervisor.lookup n = s.supervisor.lookup n)
    (receives : s.Receives k i) : Books own k i origin s' j f passes current tail := by
  refine b.aside (step_follows m) (feed.trans b.feed) apart ?_
  rcases step_standing foreign m with same | ⟨t, ht, unblocked, begun⟩
  · rw [same]
    exact b.stands
  · obtain ⟨past, run⟩ := b.recorded.run
    obtain ⟨u, name, hu, worker⟩ := receives
    cases ht.symm.trans hu
    have first : t.attempt = 0 := run.first_of_unblocked ht (by rw [worker]; rfl) unblocked
    obtain ⟨⟨e, ended⟩, _⟩ := run.atRest_of_unblocked ht unblocked
    have stands := b.stands
    rw [standing_of_task? ht, ended, first] at stands
    have begins : s'.supervisor.standing i = (.running (.script [.ready, .receive k]), 1) := by
      rw [standing_of_task? begun, Task.begun, worker, first]
      rfl
    rw [begins]
    generalize f.reconciler.pass = inside at stands ⊢
    cases stands with
    | unbegun => exact .ready Nat.one_ne_zero
    | left more => exact absurd rfl more

theorem Books.send (specs : List WatchSpec) (same : s'.supervisor = s.supervisor)
    (feed : s'.feeds[k]? = some { f with queue := f.queue ++ [specs] }) :
    Books own k i origin s' { j with sent := j.sent ++ [specs] } { f with queue := f.queue ++ [specs] } passes current
      tail where
  feed := feed
  stands := same ▸ b.stands
  log := b.log
  sent := by rw [b.sent, List.append_assoc]
  watched := b.watched
  wanted := b.wanted
  recorded := same ▸ b.recorded
  alone tidy names := same ▸ b.alone tidy fun specs sent => names specs (List.mem_append_left _ sent)

theorem Books.close (same : s'.supervisor = s.supervisor) (feed : s'.feeds[k]? = some { f with isOpen := false }) :
    Books own k i origin s' j { f with isOpen := false } passes current tail where
  feed := feed
  stands := same ▸ b.stands
  log := b.log
  sent := b.sent
  watched := b.watched
  wanted := b.wanted
  recorded := same ▸ b.recorded
  alone := same ▸ b.alone

end books

theorem Fed.books (h : Fed own k i origin s j) :
    ∃ f passes current tail, Books own k i origin s j f passes current tail := by
  induction h with
  | @start s f name registered feed scene idle history =>
    refine ⟨f, [], [], [], feed, ?_, rfl, rfl, ?_, nofun, ?_, fun tidy _ => ⟨?_, nofun⟩⟩
    · rw [standing_of_task? registered, idle]
      exact .unbegun
    · rw [scene]
      rfl
    · exact scene ▸ history
    · exact scene ▸ tidy
  | turn _ m ih =>
    obtain ⟨_, _, _, _, b⟩ := ih
    exact b.unitStep m
  | other h foreign m feed apart ih =>
    obtain ⟨_, _, _, _, b⟩ := ih
    exact ⟨_, _, _, _, b.other foreign m feed apart h.receives⟩
  | clock _ later ih =>
    obtain ⟨_, _, _, _, b⟩ := ih
    exact ⟨_, _, _, _, b.aside (.single ⟨.clock _, if_pos later⟩) b.feed (fun _ _ => rfl) b.stands⟩
  | call _ m feed apart ih =>
    obtain ⟨_, _, _, _, b⟩ := ih
    exact ⟨_, _, _, _, b.aside m.follows (feed.trans b.feed) apart (m.standing ▸ b.stands)⟩
  | send _ specs here same feed ih =>
    obtain ⟨_, _, _, _, b⟩ := ih
    cases here.symm.trans b.feed
    exact ⟨_, _, _, _, b.send specs same feed⟩
  | close _ here same feed ih =>
    obtain ⟨_, _, _, _, b⟩ := ih
    cases here.symm.trans b.feed
    exact ⟨_, _, _, _, b.close same feed⟩

/-- During a pass the worker takes no turn but to go on with it, and that as soon as the pass can. -/
theorem unitStep_settling (feed : s.feeds[k]? = some f)
    (here : s.supervisor.standing i = (.running (.script [.settling k, .receive k]), a)) :
    (s.unitStep ⟨i, none⟩ turn).isSome ↔ turn = .proceed ∧ (f.reconciler.advance s.supervisor).isSome := by
  have running := progress?_of_standing here
  cases turn with
  | proceed =>
    cases advanced : f.reconciler.advance s.supervisor with
    | none => simp [unitStep, running, Work.next, perform, settle, feed, advanced]
    | some r => simp [unitStep, running, Work.next, perform, settle, feed, advanced]
  | cancel => simp [unitStep, running, Work.next, onCancel]
  | abandon depth => simp [unitStep, running, Work.abandon]

/-- A worker that waits for the next snapshot or has ended is not in a pass. -/
theorem Books.idle {passes current : List (List WatchSpec × ReconcileReport)} {tail : List Entry}
    (b : Books own k i origin s j f passes current tail)
    (still : s.supervisor.progress? ⟨i, none⟩ = some (.running (.script [.receive k])) ∨
      s.supervisor.isTerminated i = true) : f.reconciler.pass = none ∧ current = [] := by
  have stands := b.stands
  generalize here : s.supervisor.standing i = standing at stands
  generalize f.reconciler.pass = inside at stands ⊢
  cases stands with
  | applying =>
    rcases still with waits | gone
    · cases (progress?_of_standing here).symm.trans waits
    · obtain ⟨past, run⟩ := b.recorded.run
      obtain ⟨t, ht, ended⟩ := (Option.any_eq_true _ _).1 gone
      obtain ⟨⟨e, work⟩, _⟩ := run.atRest_of_terminated ht ended
      rw [standing_of_task? ht, work] at here
      cases here
  | _ => exact ⟨rfl, rfl⟩

/-- What is known of a feed, and of the worker that receives from it. -/
structure Served (own : String → Prop) (k : Nat) (i : TaskId) (origin : Reconciler.Scene) (s : System) (j : Logbook)
    (f : Feed) (passes current : List (List WatchSpec × ReconcileReport)) (tail : List Entry) : Prop
    extends Books own k i origin s j f passes current tail where
  /-- During a pass the worker goes on with it as soon as that is possible, and does nothing else. -/
  undisturbed : f.reconciler.pass.isSome → ∀ turn,
    (s.unitStep ⟨i, none⟩ turn).isSome ↔ turn = .proceed ∧ (f.reconciler.advance s.supervisor).isSome
  /-- When it waits for a snapshot, and when it has ended. -/
  still : s.supervisor.progress? ⟨i, none⟩ = some (.running (.script [.receive k])) ∨
      s.supervisor.isTerminated i = true →
    f.reconciler.pass = none ∧ current = [] ∧
      ∀ m ∈ j.made, ∀ n, s.supervisor.LiveUnder n m → n ∈ f.reconciler.watched

/-- Whatever happens to the worker and around it, the snapshots are taken in the order in which they have been sent, and
the pass of each is over before the next one is taken and before the worker leaves. Nothing makes it give up a pass. When
none is in progress, that is under watch which the last one has found, and so is everybody alive whom the worker has
registered. -/
theorem snapshots_applied (h : Fed own k i origin s j) :
    ∃ f passes current tail, Served own k i origin s j f passes current tail := by
  obtain ⟨f, passes, current, tail, b⟩ := h.books
  refine ⟨f, passes, current, tail, b, fun busy turn => ?_, fun still => ?_⟩
  · obtain ⟨p, busy⟩ := Option.isSome_iff_exists.1 busy
    have stands := b.stands
    rw [busy] at stands
    generalize here : s.supervisor.standing i = standing at stands
    cases stands with
    | applying => exact unitStep_settling b.feed here
  · obtain ⟨idle, none⟩ := b.idle still
    exact ⟨idle, none, fun m mem n live => b.recorded.watched idle mem live⟩

end System

/-! ### Sessions -/

namespace Session

open Supervisor

variable {own : String → Prop} {c : Session} {k : Nat} {i : TaskId} {origin : Reconciler.Scene} {j : Logbook}
  {name : String} {specs : List WatchSpec}

theorem system_watchWorker (accepted : (c.watchWorker name).1 = .done) : ∃ sup,
    c.system.supervisor.supervise (watchWorkerFor c.system.feeds.length name) = .ok sup ∧
      (c.watchWorker name).2.system = { c.system with
        supervisor := sup
        feeds := c.system.feeds.map ({ · with isOpen := false }) ++ [{ receiver := sup.lookup name }] } := by
  simp only [watchWorker, supervise] at accepted ⊢
  cases registered : c.system.supervisor.supervise (watchWorkerFor c.system.feeds.length name) with
  | error e =>
    rw [registered] at accepted
    cases accepted
  | ok sup => exact ⟨sup, rfl, rfl⟩

/-- The worker is registered, and fed to a new reconciler. -/
theorem fed_watchWorker (reached : c.system.Reached) (accepted : (c.watchWorker name).1 = .done) :
    let s := (c.watchWorker name).2.system
    System.Fed own c.system.feeds.length c.system.supervisor.tasks.length ⟨s.supervisor, {}⟩ s {} ∧
      ((∀ n, own n → c.system.supervisor.isLive n = false) → ¬ own name →
        Reconciler.Tended own ⟨s.supervisor, {}⟩) := by
  obtain ⟨past, run⟩ := reached.run
  obtain ⟨sup, registered, after⟩ := system_watchWorker accepted
  have run' : Run sup _ := run.move (act_supervise.2 registered)
  have here : sup.task? c.system.supervisor.tasks.length =
      some { worker := watchWorkerFor c.system.feeds.length name } := by
    rw [task?_supervise registered, if_pos rfl]
  rw [after]
  refine ⟨.start here (f := { receiver := sup.lookup name }) ?_ rfl rfl (.start run'), fun free other => ?_⟩
  · simp
  · refine .start run' fun n mine => ?_
    have apart : n ≠ name := by
      rintro rfl
      exact other mine
    exact (isLive_supervise run registered apart).trans (free n mine)

theorem newest_feed (newest : c.system.feeds.length = k + 1) :
    ∃ f, c.system.feeds[k]? = some f ∧ c.system.feeds.getLast? = some f := by
  have inside : k < c.system.feeds.length := newest ▸ Nat.lt_succ_self k
  refine ⟨_, List.getElem?_eq_getElem inside, ?_⟩
  rw [List.getLast?_eq_getElem?, newest]
  exact List.getElem?_eq_getElem inside

theorem fed_send (h : System.Fed own k i origin c.system j) (newest : c.system.feeds.length = k + 1)
    (taken : (c.send specs).1 = some true) :
    System.Fed own k i origin (c.send specs).2.system { j with sent := j.sent ++ [specs] } := by
  obtain ⟨f, here, last⟩ := newest_feed newest
  simp only [send, last] at taken ⊢
  split at taken
  next => cases taken
  next unclosed =>
    split at taken
    next free =>
      rw [if_neg unclosed, if_pos free]
      exact h.send specs here rfl (by simp [newest])
    next => cases taken

theorem fed_close (h : System.Fed own k i origin c.system j) (newest : c.system.feeds.length = k + 1) :
    System.Fed own k i origin c.close.2.system j := by
  obtain ⟨f, here, last⟩ := newest_feed newest
  simp only [close, last]
  exact h.close here rfl (by simp [here])

/-! ### A worker that is asked to stop during a pass -/

/-- What may come next for a session whose newest feed goes to registration `i`. -/
inductive Happening where
  | loop (task : TaskId) (turn : Turn)
  | worker (turn : System.UnitTurn)
  | send (keys : List String)
  | close
  | stop (name : String)

def happen (k : Nat) (i : TaskId) (x : Session × Logbook) : Happening → Option (Session × Logbook)
  | .loop task turn => (x.1.system.supervisor.actorStep task turn).bind fun supervisor =>
    if supervisor.registry.entries = x.1.system.supervisor.registry.entries then
      some ({ x.1 with system := { x.1.system with supervisor } }, x.2)
    else none
  | .worker turn => (x.1.system.unitStep ⟨i, none⟩ turn).map fun system =>
    ({ x.1 with system }, x.2.tell (x.1.system.toldOfTurn k i turn) (x.1.system.registrations system))
  | .send keys =>
    let specs := Reconciler.Ledger.wants keys
    if x.1.system.feeds.length = k + 1 ∧ (x.1.send specs).1 = some true then
      some ((x.1.send specs).2, { x.2 with sent := x.2.sent ++ [specs] })
    else none
  | .close => if x.1.system.feeds.length = k + 1 then some (x.1.close.2, x.2) else none
  | .stop name => some ({ x.1 with system := x.1.system.onSupervisor fun s => (s.stop name).2 }, x.2)

theorem fed_happen {x y : Session × Logbook} {e : Happening} (h : System.Fed own k i origin x.1.system x.2)
    (m : happen k i x e = some y) : System.Fed own k i origin y.1.system y.2 := by
  cases e with
  | loop task turn =>
    obtain ⟨sup, turns, m⟩ := Option.bind_eq_some_iff.1 m
    obtain ⟨same, m⟩ := Option.ite_none_right_eq_some.1 m
    cases m
    have stepped : x.1.system.step (.actor task turn) = some { x.1.system with supervisor := sup } := by
      rw [System.step, turns]
      rfl
    have foreign : ∀ other, System.Label.actor task turn ≠ .unit ⟨i, none⟩ other := nofun
    exact h.other foreign stepped rfl fun n _ => lookup_congr same
  | worker turn =>
    obtain ⟨system, turns, m⟩ := Option.map_eq_some_iff.1 m
    cases m
    exact h.turn turns
  | send keys =>
    obtain ⟨⟨newest, taken⟩, m⟩ := Option.ite_none_right_eq_some.1 m
    cases m
    exact fed_send h newest taken
  | close =>
    obtain ⟨newest, m⟩ := Option.ite_none_right_eq_some.1 m
    cases m
    exact fed_close h newest
  | stop name =>
    cases m
    exact h.call (.single ⟨.stop name, rfl, rfl⟩) rfl fun n _ => lookup_stop

def listening : Session := ((start "NAT" .standard 0 none true).watchWorker "watchman").2

/-- Three snapshots are sent. The worker is asked to stop while the watcher of the first one makes way for that of the
second, and the feed is closed. -/
def farewell : List Happening :=
  [.loop 0 .proceed, .loop 0 .proceed, .worker .proceed, .send ["a"], .send ["b"], .send ["c"],
    .worker .proceed, .worker .proceed, .loop 1 .proceed, .worker .proceed, .stop "watchman", .close,
    .worker .proceed, .loop 1 .cancel, .worker .proceed, .worker .proceed, .worker .cancel,
    .loop 0 .cancel, .loop 0 .proceed, .loop 0 .proceed]

/-- The pass has run to its end; the third snapshot has not been taken. -/
theorem snapshots_applied_farewell : ∃ (origin : Reconciler.Scene) (c : Session) (j : Logbook),
    System.Fed Reconciler.IsWatchName 0 0 origin c.system j ∧ Reconciler.Tended Reconciler.IsWatchName origin ∧
    (c.system.supervisor.isTerminated 0 = true ∧ j.log.length = 5 ∧ j.made = [1, 2] ∧
      j.sent.map (·.map (·.watchName)) = [["watch:a"], ["watch:b"], ["watch:c"]] ∧
      (c.system.feeds[0]?.map fun f => (f.reconciler.watched, f.queue.map (·.map (·.watchName)))) =
        some (["watch:b"], [["watch:c"]])) ∧
    ∃ f passes current tail, System.Served Reconciler.IsWatchName 0 0 origin c.system j f passes current tail := by
  have ran : (farewell.foldlM (happen 0 0) (listening, {})).any (fun (c, j) =>
      c.system.supervisor.isTerminated 0 = true ∧ j.log.length = 5 ∧ j.made = [1, 2] ∧
      j.sent.map (·.map (·.watchName)) = [["watch:a"], ["watch:b"], ["watch:c"]] ∧
      (c.system.feeds[0]?.map fun f => (f.reconciler.watched, f.queue.map (·.map (·.watchName)))) =
        some (["watch:b"], [["watch:c"]])) = true := by decide +kernel
  obtain ⟨⟨c, j⟩, happened, shown⟩ := (Option.any_eq_true _ _).1 ran
  have other : ¬ Reconciler.IsWatchName "watchman" := by
    rintro ⟨key, same⟩
    simpa [watchName] using congrArg String.toList same
  have accepted : ((start "NAT" .standard 0 none true).watchWorker "watchman").1 = .done := rfl
  let origin : Reconciler.Scene := ⟨listening.system.supervisor, {}⟩
  have begins : System.Fed Reconciler.IsWatchName 0 0 origin listening.system {} :=
    (fed_watchWorker (.start rfl) accepted).1
  have tidy : Reconciler.Tended Reconciler.IsWatchName origin :=
    (fed_watchWorker (.start rfl) accepted).2 (fun _ _ => rfl) other
  have fed : System.Fed Reconciler.IsWatchName 0 0 origin c.system j :=
    kept_of_foldlM (P := fun x => System.Fed Reconciler.IsWatchName 0 0 origin x.1.system x.2)
      (fun m before => fed_happen before m) happened begins
  exact ⟨origin, c, j, fed, tidy, of_decide_eq_true shown, System.snapshots_applied fed⟩

end Session

end Switchyard
