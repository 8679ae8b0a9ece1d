import Switchyard.Proofs.Session
import Switchyard.Proofs.Store.History

/-!
What callers ask to have changed, and nothing else, changes the store. Main statements: nothing of the past shows in
an answer but what was last written, and nothing is written without being counted.
-/
namespace Switchyard

namespace Http

/-- The tables of a body, if it is a list of tables that all have names. -/
def Request.tables (r : Request) : List Table :=
  match r.readBody Json.readTables with
  | .ok tables => if tables.all (·.name ≠ "") then tables else []
  | .error _ => []

/-- What a request to a resource asks to have changed in the store. -/
def Request.changesOf (r : Request) : Resource → List StoreChange
  | .tables => if r.method = "POST" then r.tables.map .put else []
  | .table segment =>
    match decodeSegment segment with
    | some name =>
      if r.method = "POST" then r.tables.map .put else if r.method = "DELETE" then [.remove name] else []
    | none => []
  | .search =>
    if r.method = "POST" then
      match r.readBody Json.readSearchPath with
      | .ok path => [.setSearch path]
      | .error _ => []
    else []
  | _ => []

def Request.changes (r : Request) : List StoreChange := ((Resource.ofTarget? r.target).map r.changesOf).getD []

variable {r : Request}

theorem Request.changesOf_of_not_allowed {resource : Resource} (refused : resource.methods.contains r.method = false) :
    r.changesOf resource = [] := by
  have other {method : String} (allowed : resource.methods.contains method = true) : r.method ≠ method :=
    fun same => Bool.false_ne_true (refused.symm.trans (same ▸ allowed))
  cases resource with
  | tables | search => exact if_neg (other rfl)
  | table segment =>
    rw [changesOf]
    split
    next => rw [if_neg (other rfl), if_neg (other rfl)]
    next => rfl
  | shutdown | metrics => rfl

end Http

/-- What a call asks to have changed in the store. -/
def Call.changes : Call → List StoreChange
  | .update t => [.put t]
  | .delete name => [.remove name]
  | .setSearch path => [.setSearch path]
  | .apiUpdate ts => if ts.all (·.name ≠ "") then ts.map .put else []
  | .http request => request.changes
  | _ => []

namespace System

variable {s s' : System}

theorem store_updateTables (s : System) (tables : List Table) :
    if tables.all (·.name ≠ "") then
      s.updateTables tables = .ok { s with store := s.store.changes (tables.map .put) }
    else ∃ e, s.updateTables tables = .error e := by
  have put : s.store.changes (tables.map .put) = tables.foldl Store.update s.store := List.foldl_map
  rw [updateTables, put]
  split
  case isTrue named =>
    have none : tables.findIdx? (fun t => decide (t.name = "")) = none := by
      rw [List.findIdx?_eq_none_iff]
      intro t ht
      simpa using List.all_eq_true.1 named t ht
    rw [none]
  case isFalse unnamed =>
    cases first : tables.findIdx? (fun t => decide (t.name = "")) with
    | some i => exact ⟨_, rfl⟩
    | none =>
      refine absurd (List.all_eq_true.2 fun t ht => ?_) unnamed
      simpa using List.findIdx?_eq_none_iff.1 first t ht

theorem store_postTables (s : System) (r : Http.Request) :
    (s.postTables r).2.store = s.store.changes (r.tables.map .put) := by
  rw [postTables, Http.Request.tables]
  cases r.readBody Json.readTables with
  | error e => rfl
  | ok tables =>
    have updated := s.store_updateTables tables
    dsimp only
    split at updated
    case isTrue named =>
      rw [if_pos named]
      simp only [bind, Except.bind, updated]
      rfl
    case isFalse unnamed =>
      obtain ⟨e, refused⟩ := updated
      rw [if_neg unnamed]
      simp only [bind, Except.bind, refused]
      rfl

theorem store_onTable (s : System) (r : Http.Request) (name : String) :
    (s.onTable r name).2.store = s.store.changes
      (if r.method = "POST" then r.tables.map .put else if r.method = "DELETE" then [.remove name] else []) := by
  rw [onTable]
  split
  next post => rw [if_pos post, store_postTables]
  next delete =>
    rw [delete]
    rfl
  next notPost notDelete =>
    rw [if_neg notPost, if_neg notDelete]
    cases s.renderTable name with
    | ok text => rfl
    | error e => rfl

theorem store_onResource (s : System) (r : Http.Request) (resource : Http.Resource) :
    (s.onResource r resource).2.store = s.store.changes (r.changesOf resource) := by
  cases resource with
  | tables =>
    rw [onResource, Http.Request.changesOf]
    split
    case isTrue => exact store_postTables s r
    case isFalse => rfl
  | table segment =>
    rw [onResource, Http.Request.changesOf]
    cases Http.decodeSegment segment with
    | none => rfl
    | some name => exact store_onTable s r name
  | search =>
    rw [onResource, Http.Request.changesOf]
    split
    case isTrue =>
      cases r.readBody Json.readSearchPath with
      | ok path => rfl
      | error e => rfl
    case isFalse => rfl
  | shutdown => rfl
  | metrics => rfl

theorem store_http (s : System) (r : Http.Request) : (s.http r).2.store = s.store.changes r.changes := by
  rw [http, Http.Request.changes]
  cases Http.Resource.ofTarget? r.target with
  | none => rfl
  | some resource =>
    dsimp only [Option.map_some, Option.getD_some]
    split
    case isTrue => exact store_onResource s r resource
    case isFalse refused => rw [Http.Request.changesOf_of_not_allowed (by simpa using refused)]; rfl

theorem store_perform {u : UnitId} {a : Action} {r : Reaction}
    (h : s.perform u a = some (s', r)) :
    s'.store = s.store := by
  cases a with
  | receive feed =>
    obtain ⟨f, _, h⟩ := Option.bind_eq_some_iff.1 h
    split at h
    next =>
      cases h
      rfl
    next =>
      obtain ⟨_, h⟩ := Option.ite_none_left_eq_some.1 h
      cases h
      rfl
  | settling feed =>
    obtain ⟨f, _, h⟩ := Option.bind_eq_some_iff.1 h
    obtain ⟨r, _, h⟩ := Option.bind_eq_some_iff.1 h
    cases h
    rfl
  | forever => cases h
  | applying es => cases es <;> cases h <;> rfl
  | _ =>
    simp only [perform] at h
    repeat' split at h
    all_goals cases h
    all_goals rfl

theorem store_unitStep {u : UnitId} {turn : UnitTurn} (h : s.unitStep u turn = some s') : s'.store = s.store := by
  cases unitStep_cases h with
  | proceed _ performed => exact (store_perform performed :)
  | cancel => rfl
  | abandon => rfl

theorem store_step {l : Label} (h : s.step l = some s') : s'.store = s.store := by
  cases step_cases h with
  | unit turns => exact store_unitStep turns
  | actor | watch | deliver | reconciler => rfl

/-- By itself a system never changes its store. -/
theorem store_closed (store : Store) : Closed fun s => s.store = store where
  step h steps := (store_step steps).trans h
  clock h _ := h

end System

namespace Session

variable {s : Session}

theorem store_settle (s : Session) : s.settle.system.store = s.system.store :=
  ((System.store_closed _).settled ⟨rfl, rfl⟩).1

theorem store_on (s : Session) (f : System → System) : (s.on f).system.store = (f s.system).store := store_settle _

theorem store_supervise (s : Session) (w : Worker Action) : (s.supervise w).2.system.store = s.system.store := by
  unfold Session.supervise
  split
  next => rfl
  next => rfl

theorem store_superviseAll (s : Session) (ws : List (Worker Action)) :
    (s.superviseAll ws).2.system.store = s.system.store := by
  induction ws generalizing s with
  | nil => rfl
  | cons w ws ih => exact (ih _).trans (store_supervise s w)

theorem store_blocking (s : Session) (done : System → Bool) : (s.blocking done).2.system.store = s.system.store :=
  blocking_closed (System.store_closed _) rfl done

theorem store_wait (s : Session) (name : String) : (s.wait name).2.system.store = s.system.store := by
  unfold wait
  split
  next => rfl
  next => exact store_blocking s _

theorem store_reconcile (s : Session) (specs : List WatchSpec) :
    (s.reconcile specs).2.system.store = s.system.store := by
  obtain ⟨s', kept, ⟨completed, _⟩ | given⟩ := s.reconcile_cases specs
  · rw [completed]
    exact kept _ (System.store_closed s.system.store) rfl
  · rw [given]
    exact kept _ (System.store_closed s.system.store) rfl

theorem store_watchWorker (s : Session) (name : String) : (s.watchWorker name).2.system.store = s.system.store :=
  store_supervise s _

theorem store_send (s : Session) (specs : List WatchSpec) : (s.send specs).2.system.store = s.system.store := by
  unfold send
  split
  next =>
    split
    next => rfl
    next =>
      simp only
      split
      next => rfl
      next => rfl
  next => rfl

theorem store_close (s : Session) : s.close.2.system.store = s.system.store := by
  unfold close
  split
  next => rfl
  next => rfl

/-- A call changes of the store what it asks to have changed. -/
theorem store_call (s : Session) (c : Call) : (s.call c).2.system.store = s.system.store.changes c.changes := by
  change (s.reply c).2.system.store = _
  cases c with simp only [reply]
  | supervise w => exact (store_settle _).trans (store_supervise s w)
  | superviseAll ws => exact (store_settle _).trans (store_superviseAll s ws)
  | advance ms => exact ((System.store_closed _).advanceFrom _ rfl (Nat.le_add_right _ _)).1
  | wait name => exact store_wait s name
  | run => exact store_blocking s _
  | reconcile specs => exact store_reconcile s _
  | watchWorker name => exact (store_settle _).trans (store_watchWorker s name)
  | send specs => exact (store_settle _).trans (store_send s _)
  | close => exact (store_settle _).trans (store_close s)
  | apiUpdate tables =>
    have updated := s.system.store_updateTables tables
    rw [Call.changes]
    split at updated
    case isTrue named =>
      rw [updated, if_pos named]
      exact store_on s _
    case isFalse unnamed =>
      obtain ⟨e, refused⟩ := updated
      rw [refused, if_neg unnamed]
      rfl
  | apiRender name => split <;> rfl
  | http request => exact (store_on s _).trans (s.system.store_http request)
  | chainWorker => exact (store_settle _).trans (store_supervise s _)
  | redirectWorker port => exact (store_settle _).trans (store_supervise s _)
  | shutdown | stop | refuseCommands | redirect | update | delete | setSearch | converge => exact store_on s _
  | _ => rfl

/-- What a caller asks for, call after call. -/
def asked (calls : List Call) : List StoreChange := calls.flatMap Call.changes

def storeAfter (s : Session) (calls : List Call) : Store :=
  (calls.foldl (fun s c => (s.call c).2) s).system.store

theorem storeAfter_eq (s : Session) (calls : List Call) : s.storeAfter calls = s.system.store.changes (asked calls) := by
  induction calls generalizing s with
  | nil => rfl
  | cons c calls ih =>
    refine (ih (s.call c).2).trans ?_
    rw [store_call]
    exact (List.foldl_append ..).symm

theorem storeAfter_append (s : Session) (calls more : List Call) :
    s.storeAfter (calls ++ more) = (s.storeAfter calls).changes (asked more) := by
  rw [storeAfter_eq, storeAfter_eq, asked, List.flatMap_append]
  exact List.foldl_append ..

theorem history_hidden (s s' : Session) (empty : s.system.store = {}) (empty' : s'.system.store = {}) :
    (∀ calls, (∀ name, (s.storeAfter calls).table name = lastTable name (asked calls)) ∧
      (s.storeAfter calls).search = lastSearch (asked calls)) ∧
    (∀ calls calls', (∀ name, lastTable name (asked calls) = lastTable name (asked calls')) →
      lastSearch (asked calls) = lastSearch (asked calls') →
      (s.storeAfter calls).SameAnswers (s'.storeAfter calls')) ∧
    (∀ calls (c c' : Call), (∀ d ∈ c.changes, ∀ d' ∈ c'.changes, d.Apart d') →
      s.storeAfter (calls ++ [c, c']) = s.storeAfter (calls ++ [c', c])) ∧
    ∀ calls, (s.storeAfter calls).allTables.Pairwise (·.name < ·.name) ∧
      (∀ name t, (s.storeAfter calls).table name = some t → t.name = name) ∧
      ∀ found : List Table, found.Perm (s.storeAfter calls).tables.values →
        found.mergeSort (fun a b => a.name ≤ b.name) = (s.storeAfter calls).allTables := by
  refine ⟨fun calls => ?_, fun calls calls' tables search => ?_, fun calls c c' apart => ?_, fun calls => ?_⟩
  · rw [storeAfter_eq, empty]
    exact ⟨Store.table_changes _, Store.search_changes _⟩
  · rw [storeAfter_eq, storeAfter_eq, empty, empty']
    exact Store.sameAnswers_changes tables search
  · have both (c c' : Call) : asked [c, c'] = c.changes ++ c'.changes := by simp [asked]
    rw [storeAfter_append, storeAfter_append, both, both, Store.changes_append, Store.changes_append]
    exact Store.changes_comm _ apart
  · have keyed : (s.storeAfter calls).Keyed := by
      rw [storeAfter_eq, empty]
      exact Store.keyed_changes _
    exact ⟨keyed.ascending, keyed, fun found perm => keyed.sort perm⟩

/-- A table written twice beside one that a request removes again, and the same table written once, between search
paths; the removal of one table and the writing of another in either order. -/
theorem history_hidden_overwritten :
    let s := start "SLIPWAY" default 64 none false
    let remove : Call := .http { method := "DELETE", target := "/api/tables/b" }
    let first : Call := .update { name := "a", routes := [{ name := "old" }] }
    let second : Call := .update { name := "a", routes := [{ name := "new" }] }
    (s.storeAfter [first, .update { name := "b" }, second, remove]).SameAnswers
      (s.storeAfter [.setSearch { suffixes := ["lan"] }, second, .setSearch {}]) ∧
    s.storeAfter ([.update { name := "b" }] ++ [first, remove]) =
      s.storeAfter ([.update { name := "b" }] ++ [remove, first]) := by
  intro s remove first second
  have removes : remove.changes = [.remove "b"] := by decide +kernel
  have overwritten : asked [first, .update { name := "b" }, second, remove] =
      [.put { name := "a", routes := [{ name := "old" }] }, .put { name := "b" },
        .put { name := "a", routes := [{ name := "new" }] }, .remove "b"] := by
    rw [asked, List.flatMap_cons, List.flatMap_cons, List.flatMap_cons, List.flatMap_cons, removes]
    rfl
  obtain ⟨-, same, commute, -⟩ := history_hidden s s rfl rfl
  constructor
  · refine same _ _ (fun name => ?_) ?_
    · rw [overwritten]
      by_cases b : "b" = name
      · subst b
        rfl
      · by_cases a : "a" = name
        · subst a
          rfl
        · simp [asked, second, Call.changes, lastTable, StoreChange.leaves, a, b]
    · rw [overwritten]
      rfl
  · refine commute _ _ _ fun d hd d' hd' => ?_
    rw [removes] at hd'
    cases List.mem_singleton.1 hd
    cases List.mem_singleton.1 hd'
    exact ⟨"a", "b", rfl, rfl, by decide⟩

theorem changes_counted (s : Session) (empty : s.system.store = {}) (calls : List Call) :
    (∀ k k', (s.storeAfter (calls.take k)).generation = (s.storeAfter (calls.take k')).generation →
      (s.storeAfter (calls.take k)).SameAnswers (s.storeAfter (calls.take k'))) ∧
    (s.storeAfter calls).generation = puts (asked calls) + removals (asked calls) + replacements (asked calls) ∧
    (s.storeAfter calls).flushes = puts (asked calls) + removals (asked calls) := by
  have later {k k' : Nat} (le : k ≤ k')
      (same : (s.storeAfter (calls.take k)).generation = (s.storeAfter (calls.take k')).generation) :
      s.storeAfter (calls.take k) = s.storeAfter (calls.take k') := by
    have between := List.take_append_drop k (calls.take k')
    rw [List.take_take, Nat.min_eq_left le] at between
    rw [← between, storeAfter_append] at same ⊢
    exact (Store.changes_of_generation same.symm).symm
  constructor
  · intro k k' same
    rcases Nat.le_total k k' with le | le
    · rw [later le same]
      exact .of_contents rfl rfl
    · rw [later le same.symm]
      exact .of_contents rfl rfl
  · rw [storeAfter_eq, empty]
    exact Store.counters_changes _

/-- Two removals of which one finds a table, a refused list, and calls that do not concern the store. -/
theorem changes_counted_missing :
    let s := start "SLIPWAY" default 64 none false
    let calls : List Call :=
      [.update { name := "a" }, .delete "b", .apiUpdate [{ name := "c" }, { name := "" }], .tables, .delete "a",
        .setSearch {}]
    (s.storeAfter (calls.take 1)).SameAnswers (s.storeAfter (calls.take 4)) ∧
    (s.storeAfter calls).generation = 3 ∧ (s.storeAfter calls).flushes = 2 := by
  intro s calls
  obtain ⟨same, generation, flushes⟩ := changes_counted s rfl calls
  refine ⟨same 1 4 ?_, generation.trans (by decide +kernel), flushes.trans (by decide +kernel)⟩
  rw [storeAfter_eq, storeAfter_eq]
  decide +kernel

end Session

end Switchyard
