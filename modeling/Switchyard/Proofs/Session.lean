import Switchyard.Proofs.Execution
import Switchyard.Proofs.Json.Refusal
import Switchyard.Session

/-!
What a caller sees is a run: the schedule takes only steps that are open, and moves the clock only forward. Main
statement: whatever is called, the supervisor of a session has come about by a run.
-/
namespace Switchyard

namespace Supervisor

variable {s s' : Supervisor} {i : TaskId}

/-! ### Steps take no time -/

theorem now_markReady : (s.markReady i).now = s.now := by
  unfold markReady
  split
  · rfl
  · rfl

theorem now_stop (name : String) : (s.stop name).2.now = s.now := by
  rcases stop_cases s name with same | ⟨i, t, _, amended⟩
  · rw [same]
  · rw [amended, now_amend]

theorem now_supervise {w : Worker Action} (h : s.supervise w = .ok s') : s'.now = s.now := by
  rw [supervise_eq h]

theorem Requests.now (h : Requests s s') : s'.now = s.now := by
  induction h with
  | refl => rfl
  | tail _ m ih =>
    obtain ⟨a, request, m⟩ := m
    cases a with
    | supervise w => exact (now_supervise (act_supervise.1 m)).trans ih
    | stop name =>
      cases m
      exact (now_stop name).trans ih
    | shutdown =>
      cases m
      exact now_shutdown.trans ih
    | _ => cases request

theorem now_startAttempt : (s.startAttempt i).now = s.now := by
  unfold startAttempt
  split
  next => rfl
  next t _ =>
    by_cases onStart : t.worker.readiness = .onStart
    · simp only [if_pos onStart]
      exact now_markReady
    · simp only [if_neg onStart]
      rfl

theorem now_requirementMet (rest : List String) : (s.requirementMet i rest).now = s.now := by
  unfold requirementMet
  split
  · exact now_startAttempt
  · rfl

theorem now_examine (pending : List String) : (s.examine i pending).now = s.now := by
  cases pending with
  | nil => exact now_startAttempt
  | cons r rest =>
    simp only [examine]
    split
    · split
      · exact now_requirementMet rest
      · rfl
    · rfl

theorem now_afterFailure (t : Task) (previous : Option Duration) (e : TaskError) :
    (s.afterFailure i t previous e).now = s.now := by
  simp only [afterFailure]
  split
  · rfl
  · rfl

theorem now_finishAttempt (o : Outcome) : (s.finishAttempt i o).now = s.now := by
  unfold finishAttempt
  split
  · rfl
  · simp only
    split
    · rfl
    · rfl
    · exact now_afterFailure ..

theorem now_actorStep {turn : Turn} (step : s.actorStep i turn = some s') : s'.now = s.now := by
  obtain ⟨t, _, h⟩ := Option.bind_eq_some_iff.1 step
  clear step
  split at h
  case h_1 =>
    cases h
    rfl
  case h_2 =>
    cases h
    exact now_examine _
  case h_3 =>
    obtain ⟨_, h⟩ := Option.ite_none_right_eq_some.1 h
    cases h
    exact now_requirementMet _
  case h_4 =>
    obtain ⟨_, h⟩ := Option.ite_none_right_eq_some.1 h
    cases h
    exact now_examine _
  case h_7 =>
    split at h
    · obtain ⟨_, h⟩ := Option.ite_none_left_eq_some.1 h
      cases h
      rfl
    · cases h
  case h_8 =>
    split at h
    · cases h
      rfl
    · cases h
  case h_9 =>
    obtain ⟨_, h⟩ := Option.ite_none_right_eq_some.1 h
    cases h
    exact now_finishAttempt _
  case h_10 =>
    obtain ⟨_, h⟩ := Option.ite_none_right_eq_some.1 h
    cases h
    exact now_startAttempt
  case h_12 => cases h
  all_goals
    obtain ⟨_, h⟩ := Option.ite_none_right_eq_some.1 h
    cases h
    rfl

theorem now_watchStep {j : Nat} (step : s.watchStep i j = some s') : s'.now = s.now := by
  obtain ⟨t, _, h⟩ := Option.bind_eq_some_iff.1 step
  obtain ⟨u, _, h⟩ := Option.bind_eq_some_iff.1 h
  split at h
  · cases h
    rfl
  · cases h
    rfl
  · cases h

end Supervisor

namespace System

open Supervisor

variable {s s' : System} {u : UnitId} {time : Nat}

theorem now_unitStep {turn : UnitTurn} (h : s.unitStep u turn = some s') : s'.supervisor.now = s.supervisor.now := by
  cases unitStep_cases h with
  | proceed _ performed =>
    rcases perform_supervisor performed with requests | ready | ⟨script, spawn⟩
    · exact requests.now
    · exact (congrArg Supervisor.now ready).trans now_markReady
    · exact (congrArg Supervisor.now spawn).trans rfl
  | cancel => rfl
  | abandon => rfl

theorem now_step {l : Label} (h : s.step l = some s') : s'.supervisor.now = s.supervisor.now := by
  cases step_cases h with
  | actor turns => exact now_actorStep turns
  | unit turns => exact now_unitStep turns
  | watch turns => exact now_watchStep turns
  | deliver => rfl
  | reconciler => rfl

/-! ### The schedule -/

/-- Kept by everything that a system does by itself. -/
structure Closed (P : System → Prop) : Prop where
  step : ∀ {s s' : System} {l : Label}, P s → s.step l = some s' → P s'
  clock : ∀ {s : System} {time : Nat}, P s → s.supervisor.now ≤ time → P (s.setClock time)

theorem Reached.closed : Closed Reached := ⟨Reached.step, Reached.clock⟩

/-- With the clock where it was. -/
def HoldsAt (P : System → Prop) (time : Nat) (s : System) : Prop := P s ∧ s.supervisor.now = time

section
variable {P : System → Prop} (kept : Closed P)
include kept

theorem Closed.stepThread {t : Thread} (h : HoldsAt P time s) (steps : s.stepThread t = some s') :
    HoldsAt P time s' := by
  obtain ⟨l, _, step⟩ := List.exists_of_findSome?_eq_some steps
  exact ⟨kept.step h.1 step, (now_step step).trans h.2⟩

theorem Closed.runThread (fuel : Nat) (t : Thread) (h : HoldsAt P time s) : HoldsAt P time (runThread fuel s t) := by
  induction fuel generalizing s with
  | zero => exact h
  | succ fuel ih =>
    unfold System.runThread
    split
    next s' step => exact ih (kept.stepThread h step)
    next => exact h

theorem Closed.settleFrom (fuel : Nat) (line : List Thread) (h : HoldsAt P time s) :
    HoldsAt P time (settleFrom fuel line s) := by
  induction fuel generalizing s line with
  | zero => exact h
  | succ fuel ih =>
    unfold System.settleFrom
    split
    next => exact h
    next => exact ih _ (kept.runThread fuel _ h)

theorem Closed.settled (h : HoldsAt P time s) : HoldsAt P time s.settled := kept.settleFrom _ _ h

theorem Closed.setClock (h : P s) (later : s.supervisor.now ≤ time) : HoldsAt P time (s.setClock time) :=
  ⟨kept.clock h later, rfl⟩

omit kept in
theorem lt_of_nextWake? {wake : Nat} (h : s.nextWake? = some wake) : s.supervisor.now < wake := by
  have mem := List.min?_mem h
  simpa using (List.mem_filter.1 mem).2

theorem Closed.advanceFrom (fuel : Nat) (h : P s) (later : s.supervisor.now ≤ time) :
    HoldsAt P time (advanceFrom fuel time s) := by
  induction fuel generalizing s with
  | zero => exact kept.setClock h later
  | succ fuel ih =>
    unfold System.advanceFrom
    split
    next wake next =>
      split
      next due =>
        obtain ⟨holds, now⟩ := kept.settled (kept.setClock h (Nat.le_of_lt (lt_of_nextWake? next)))
        exact ih holds (by rwa [now])
      next => exact kept.setClock h later
    next => exact kept.setClock h later

theorem Closed.runUntilFrom (done : System → Bool) (fuel : Nat) (h : P s) (later : s.supervisor.now ≤ time) :
    P (runUntilFrom done fuel time s).2 := by
  induction fuel generalizing s with
  | zero => exact (kept.setClock h later).1
  | succ fuel ih =>
    unfold System.runUntilFrom
    split
    next => exact h
    next =>
      split
      next wake next =>
        split
        next due =>
          obtain ⟨holds, now⟩ := kept.settled (kept.setClock h (Nat.le_of_lt (lt_of_nextWake? next)))
          exact ih holds (by rwa [now])
        next => exact (kept.setClock h later).1
      next => exact (kept.setClock h later).1

theorem Closed.runUntil (done : System → Bool) (h : P s) (later : s.supervisor.now ≤ time) :
    P (s.runUntil done time).2 :=
  kept.runUntilFrom done _ h later

end

/-- A wait that ends well ends when that holds for which it waits. -/
theorem runUntilFrom_done (done : System → Bool) (timeless : ∀ s time, done (setClock s time) = done s) (fuel : Nat)
    (h : (runUntilFrom done fuel time s).1 = true) : done (runUntilFrom done fuel time s).2 = true := by
  induction fuel generalizing s with
  | zero => exact (timeless s time).trans h
  | succ fuel ih =>
    unfold runUntilFrom at h ⊢
    split at h
    next met => rwa [if_pos met]
    next unmet =>
      rw [if_neg unmet]
      split at h
      next wake next =>
        split at h
        next due => exact (if_pos due).symm ▸ ih h
        next => cases h
      next => cases h

theorem runUntil_done (done : System → Bool) (timeless : ∀ s time, done (setClock s time) = done s)
    (h : (s.runUntil done time).1 = true) : done (s.runUntil done time).2 = true :=
  runUntilFrom_done done timeless _ h

theorem updateTables_requests {tables : List Table} (h : s.updateTables tables = .ok s') :
    Requests s.supervisor s'.supervisor := by
  unfold updateTables at h
  split at h
  next => cases h
  next =>
    cases h
    exact .refl

theorem answer_requests {x : Except ApiError (Http.Response × System)}
    (h : ∀ p, x = .ok p → Requests s.supervisor p.2.supervisor) : Requests s.supervisor (s.answer x).2.supervisor := by
  unfold answer
  split
  next => exact h _ rfl
  next => exact .refl

theorem postTables_requests (s : System) (r : Http.Request) : Requests s.supervisor (s.postTables r).2.supervisor := by
  refine answer_requests fun p h => ?_
  obtain ⟨tables, _, h⟩ := of_bind_eq_ok h
  obtain ⟨s', updated, h⟩ := of_bind_eq_ok h
  cases h
  exact updateTables_requests updated

theorem onTable_requests (s : System) (r : Http.Request) (name : String) :
    Requests s.supervisor (s.onTable r name).2.supervisor := by
  unfold onTable
  split
  next => exact postTables_requests s r
  next => exact .refl
  next =>
    refine answer_requests fun p h => ?_
    obtain ⟨text, _, h⟩ := of_bind_eq_ok h
    cases h
    exact .refl

theorem onResource_requests (s : System) (r : Http.Request) (resource : Http.Resource) :
    Requests s.supervisor (s.onResource r resource).2.supervisor := by
  cases resource with
  | tables =>
    rw [onResource]
    split
    next => exact postTables_requests s r
    next => exact .refl
  | table segment =>
    rw [onResource]
    split
    next name _ => exact onTable_requests s r name
    next => exact .refl
  | search =>
    rw [onResource]
    split
    next =>
      refine answer_requests fun p h => ?_
      obtain ⟨path, _, h⟩ := of_bind_eq_ok h
      cases h
      exact .refl
    next => exact .refl
  | shutdown => exact .single ⟨.shutdown, rfl, rfl⟩
  | metrics => exact .refl

theorem http_requests (s : System) (r : Http.Request) : Requests s.supervisor (s.http r).2.supervisor := by
  unfold http
  split
  next => exact .refl
  next resource _ =>
    split
    next => exact onResource_requests s r resource
    next => exact .refl

end System

/-! ### Calls -/

namespace Session

open Supervisor

variable {s : Session}

theorem settle_reached (h : s.system.Reached) : s.settle.system.Reached :=
  (System.Reached.closed.settled ⟨h, rfl⟩).1

theorem on_reached (h : s.system.Reached) {f : System → System}
    (requests : Requests s.system.supervisor (f s.system).supervisor) : (s.on f).system.Reached :=
  settle_reached (s := { s with system := f s.system }) (h.call requests)

theorem onRedirector_reached (h : s.system.Reached) (f : Redirector → Redirector) :
    (s.onRedirector f).system.Reached := on_reached h .refl

theorem onStore_reached (h : s.system.Reached) (f : Store → Store) : (s.onStore f).system.Reached := on_reached h .refl

theorem supervise_reached (h : s.system.Reached) (w : Worker Action) : (s.supervise w).2.system.Reached := by
  unfold Session.supervise
  split
  next sup registered => exact h.call (.single ⟨.supervise w, rfl, act_supervise.2 registered⟩)
  next => exact h

theorem superviseAll_reached (h : s.system.Reached) (ws : List (Worker Action)) :
    (s.superviseAll ws).2.system.Reached := by
  induction ws generalizing s with
  | nil => exact h
  | cons w ws ih => exact ih (supervise_reached h w)

/-- A wait is one of the system. -/
theorem runUntil_of_blocking {done : System → Bool} {finished : Bool} {s' : Session}
    (h : s.blocking done = (finished, s')) :
    s.system.runUntil done (s.now + patience) = (finished, s'.system) := by
  rw [blocking] at h
  cases ran : s.system.runUntil done (s.now + patience) with
  | mk finished' system =>
    rw [ran] at h
    cases h
    rfl

theorem blocking_closed {P : System → Prop} (kept : System.Closed P) (h : P s.system) (done : System → Bool) :
    P (s.blocking done).2.system := by
  have closed := kept.runUntil done h (Nat.le_add_right s.now patience)
  cases waited : s.blocking done with
  | mk finished s' =>
    rw [runUntil_of_blocking waited] at closed
    exact closed

theorem blocking_reached (h : s.system.Reached) (done : System → Bool) : (s.blocking done).2.system.Reached :=
  blocking_closed System.Reached.closed h done

theorem blocking_done (done : System → Bool) (timeless : ∀ s time, done (System.setClock s time) = done s)
    (h : (s.blocking done).1 = true) : done (s.blocking done).2.system = true := by
  have ended : (s.system.runUntil done (s.now + patience)).1 = true → _ := System.runUntil_done done timeless
  cases waited : s.blocking done with
  | mk finished s' =>
    rw [waited] at h
    rw [runUntil_of_blocking waited] at ended
    exact ended h

theorem wait_reached (h : s.system.Reached) (name : String) : (s.wait name).2.system.Reached := by
  unfold wait
  split
  next => exact h
  next => exact blocking_reached h _

/-- The system as a call to the reconciler begins. -/
def begun (s : Session) (specs : List WatchSpec) : System :=
  let (reconciler, supervisor) := s.system.reconciler.begin s.system.supervisor specs
  { s.system with reconciler, supervisor }

/-- The call waits; it completes, or is given up. -/
theorem reconcile_cases (s : Session) (specs : List WatchSpec) : ∃ s' : Session,
    (∀ P : System → Prop, System.Closed P → P (s.begun specs) → P s'.system) ∧
      (s.reconcile specs = (.reconciled ((s.begun specs).reconciler.pass.map (·.report)), s') ∧
          s'.system.reconciler.pass = none ∨
        s.reconcile specs = (.reconciled none,
          { s' with system := { s'.system with reconciler := s'.system.reconciler.abandon } })) := by
  rw [reconcile, begun]
  cases s.system.reconciler.begin s.system.supervisor specs with
  | mk reconciler supervisor =>
    let asked : Session := { s with system := { s.system with reconciler, supervisor } }
    let done (system : System) : Bool := system.reconciler.pass.isNone
    have closed (P : System → Prop) (kept : System.Closed P) (h : P asked.system) :
        P (asked.settle.blocking done).2.system :=
      blocking_closed kept (kept.settled ⟨h, rfl⟩).1 done
    have ended := blocking_done (s := asked.settle) done fun _ _ => rfl
    simp only
    cases ran : asked.settle.blocking done with
    | mk finished s' =>
      rw [ran] at closed ended
      refine ⟨s', closed, ?_⟩
      cases finished with
      | true => exact .inl ⟨rfl, Option.isNone_iff_eq_none.1 (ended rfl)⟩
      | false => exact .inr rfl

theorem reconcile_reached (h : s.system.Reached) (specs : List WatchSpec) :
    (s.reconcile specs).2.system.Reached := by
  obtain ⟨s', kept, ⟨completed, _⟩ | given⟩ := s.reconcile_cases specs
  · rw [completed]
    exact kept _ System.Reached.closed (h.call (s.system.reconciler.begin_requests s.system.supervisor specs))
  · rw [given]
    have reached := kept _ System.Reached.closed (h.call (s.system.reconciler.begin_requests s.system.supervisor specs))
    exact reached.call .refl

theorem watchWorker_reached (h : s.system.Reached) (name : String) : (s.watchWorker name).2.system.Reached := by
  have registered := supervise_reached h (watchWorkerFor s.system.feeds.length name)
  exact registered.call .refl

theorem send_reached (h : s.system.Reached) (specs : List WatchSpec) : (s.send specs).2.system.Reached := by
  unfold send
  split
  next =>
    split
    next => exact h
    next =>
      simp only
      split
      next => exact h.call .refl
      next => exact h
  next => exact h

theorem close_reached (h : s.system.Reached) : s.close.2.system.Reached := by
  unfold close
  split
  next => exact h.call .refl
  next => exact h

theorem reply_reached (h : s.system.Reached) (c : Call) : (s.reply c).2.system.Reached := by
  cases c with simp only [reply]
  | supervise w => exact settle_reached (supervise_reached h w)
  | superviseAll ws => exact settle_reached (superviseAll_reached h ws)
  | advance ms => exact (System.Reached.closed.advanceFrom _ h (Nat.le_add_right _ _)).1
  | shutdown => exact on_reached h (.single ⟨.shutdown, rfl, rfl⟩)
  | stop name => exact on_reached h (.single ⟨.stop name, rfl, rfl⟩)
  | wait name => exact wait_reached h name
  | run => exact blocking_reached h _
  | reconcile specs => exact reconcile_reached h _
  | watchWorker name => exact settle_reached (watchWorker_reached h name)
  | send specs => exact settle_reached (send_reached h _)
  | close => exact settle_reached (close_reached h)
  | refuseCommands refuse => exact onRedirector_reached h _
  | redirect op => exact onRedirector_reached h _
  | update t => exact onStore_reached h _
  | delete name => exact onStore_reached h _
  | setSearch p => exact onStore_reached h _
  | apiUpdate tables =>
    split
    next system updated => exact on_reached h (System.updateTables_requests updated)
    next => exact h
  | apiRender name => split <;> exact h
  | converge port => exact onRedirector_reached h _
  | chainWorker => exact settle_reached (supervise_reached h chainWorker)
  | redirectWorker port => exact settle_reached (supervise_reached h (redirectWorker port))
  | http request => exact on_reached h (System.http_requests _ _)
  | _ => exact h

/-- Every system that a session comes to has been reached. -/
theorem calls_reached (chain : String) (backoff : Backoff) (queue : Nat) (kinds : Option (List EventKind))
    (plain : Bool) (calls : List Call) :
    (calls.foldl (fun s c => (s.call c).2) (start chain backoff queue kinds plain)).system.Reached := by
  have begins : (start chain backoff queue kinds plain).system.Reached := .start rfl
  revert begins
  generalize start chain backoff queue kinds plain = s
  intro h
  induction calls generalizing s with
  | nil => exact h
  | cons c calls ih => exact ih _ (reply_reached h c)

theorem calls_run (chain : String) (backoff : Backoff) (queue : Nat) (kinds : Option (List EventKind)) (plain : Bool)
    (calls : List Call) :
    ∃ past,
      Run (calls.foldl (fun s c => (s.call c).2) (start chain backoff queue kinds plain)).system.supervisor past :=
  (calls_reached chain backoff queue kinds plain calls).run

end Session

end Switchyard
