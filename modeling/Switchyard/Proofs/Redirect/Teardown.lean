import Switchyard.Proofs.Redirect.Exclusion
import Switchyard.Proofs.Redirect.Ledger
import Switchyard.Session

/-!
A daemon that keeps the chain and follows the redirect routes, up to the end of both tasks. Main statement: what is left
then is what the calls granted after the `disable` make of an empty table, and that is nothing only if none of them is
a `forward`. A shutdown in the middle of a pass leaves such calls.
-/
namespace Switchyard

/-- A call of a pass to `port`. -/
def Operation.Serves (port : UInt16) : Operation → Prop
  | .clear _ => True
  | .forward _ p => p = port
  | .enable | .disable => False

def Log.after (log : Log) : System.UnitTurn → Option Action → Log
  | .proceed, some (.redirecting op) => log.grant op
  | _, _ => log

theorem Redirector.lines_eq (t : Redirector) : t.lines = t.commands.map (Command.arguments t.chain) := by
  rw [lines, commands, List.map_reverse, List.map_map]
  rfl

namespace Mappings

variable {ops : List Operation} {port : UInt16} {a : Address}

/-- What is not there can be cleared for nothing. -/
theorem performAll_of_clears (clears : ∀ op ∈ ops, ∃ a, op = .clear a) :
    performAll .empty ops = .empty ∧ commands .empty ops = [] := by
  induction ops with
  | nil => exact ⟨rfl, rfl⟩
  | cons op ops ih =>
    obtain ⟨⟨a, rfl⟩, rest⟩ := List.forall_mem_cons.1 clears
    exact ih rest

theorem commands_of_forward (h : .forward a port ∈ ops) (m : Mappings) : m.commands ops ≠ [] := by
  obtain ⟨before, after, rfl⟩ := List.append_of_mem h
  rw [commands_append, commands]
  simp [Operation.commands, Operation.effects, Effect.command?]

/-- After calls to `port`, nothing is left and nothing was emitted exactly when none of them was a `forward`. -/
theorem nothing_iff (serves : ∀ op ∈ ops, op.Serves port) :
    performAll .empty ops = .empty ∧ commands .empty ops = [] ↔ ∀ a, .forward a port ∉ ops := by
  refine ⟨fun h a forwarded => commands_of_forward forwarded _ h.2, fun none => ?_⟩
  refine performAll_of_clears fun op hop => ?_
  cases op with
  | clear a => exact ⟨a, rfl⟩
  | forward a p =>
    obtain rfl : p = port := serves _ hop
    exact absurd hop (none a)
  | _ => exact absurd (serves _ hop) not_false

end Mappings

namespace System

/-- A daemon whose registration `n` keeps the chain and whose registration `r` follows the redirect routes, with the
calls granted since the `disable`. Nobody else calls the redirector. The store may change at any time, the packet filter
may refuse any command, and anybody may ask the supervisor for anything. -/
inductive Daemon (n r : TaskId) : System → Log → Prop
  | start {s : System} {backoff : Backoff} {now : Nat} {mailboxes : List Mailbox} {chain : String} {refusing : Bool}
      (fresh : s.supervisor = { backoff, now, mailboxes }) (free : s.lock = [])
      (unused : s.redirector = { chain, refusing }) : Daemon n r s none
  | turn {s s' : System} {log : Log} {k : TaskId} {turn : UnitTurn} (h : Daemon n r s log) (own : k ∈ [n, r])
      (m : s.unitStep ⟨k, none⟩ turn = some s') : Daemon n r s' (log.after turn (s.dealing? k))
  | other {s s' : System} {log : Log} {l : Label} (h : Daemon n r s log)
      (foreign : ∀ k ∈ [n, r], ∀ turn, l ≠ .unit ⟨k, none⟩ turn) (m : s.step l = some s') (lock : s'.lock = s.lock)
      (redirector : s'.redirector = s.redirector) : Daemon n r s' log
  | clock {s : System} {log : Log} {time : Nat} (h : Daemon n r s log) (later : s.supervisor.now ≤ time) :
      Daemon n r (s.setClock time) log
  | call {s s' : System} {log : Log} {refusing : Bool} (h : Daemon n r s log)
      (m : Supervisor.Requests s.supervisor s'.supervisor) (lock : s'.lock = s.lock)
      (redirector : s'.redirector = { s.redirector with refusing }) : Daemon n r s' log

variable {s s' : System} {k n r : TaskId} {log : Log} {port : UInt16}

/-! ### A turn of a main unit -/

/-- What a turn makes of a unit at work in attempt `a`. -/
inductive Turned (k : TaskId) (s : System) (w : Work) (a : Nat) (s' : System) : UnitTurn → Prop
  | proceed {s₁ : System} {r : Reaction} (performed : s.perform ⟨k, none⟩ w.next = some (s₁, r))
      (standing : s'.supervisor.standing k = (w.resume r, a)) (lock : s'.lock = s₁.lock)
      (redirector : s'.redirector = s₁.redirector) : Turned k s w a s' .proceed
  | cancel {r : Reaction} (asked : onCancel w.next = some r) (standing : s'.supervisor.standing k = (w.resume r, a))
      (lock : s'.lock = s.lock) (redirector : s'.redirector = s.redirector) : Turned k s w a s' .cancel
  | abandon {depth : Nat} {w' : Work} (left : w.abandon depth = some w')
      (standing : s'.supervisor.standing k = (.running w', a)) (lock : s'.lock = s.lock.filter (· ≠ ⟨k, none⟩))
      (redirector : s'.redirector = s.redirector) : Turned k s w a s' (.abandon depth)

theorem unitStep_turned {w : Work} {a : Nat} {turn : UnitTurn} (h : s.supervisor.standing k = (.running w, a))
    (m : s.unitStep ⟨k, none⟩ turn = some s') : Turned k s w a s' turn := by
  have running := Supervisor.progress?_of_standing h
  cases unitStep_cases m with
  | proceed here performed =>
    cases here.symm.trans running
    exact .proceed performed (Supervisor.standing_setProgress_self ((perform_standing performed).trans h) _) rfl rfl
  | cancel here asked =>
    cases here.symm.trans running
    exact .cancel asked (Supervisor.standing_setProgress_self h _) rfl rfl
  | abandon here left =>
    cases here.symm.trans running
    exact .abandon left (Supervisor.standing_setProgress_self h _) rfl rfl

/-! ### The unit that keeps the chain -/

/-- What is left of its work. -/
inductive Raising : Script → Prop
  | asked : Raising [.redirect .enable, .ready, .awaitCancel]
  | waiting : Raising [.redirecting .enable, .ready, .awaitCancel]
  | applying {es : List Effect} : Raising [.applying es, .ready, .awaitCancel]
  | up : Raising [.ready, .awaitCancel]
  | parked : Raising [.awaitCancel]
  | spent : Raising []

/-- What is left of its cleanup, and whether the `disable` has been granted. -/
inductive Lowering : Script → Bool → Prop
  | asked : Lowering [.redirect .disable] false
  | waiting : Lowering [.redirecting .disable] false
  | applying {es : List Effect} : Lowering [.applying es] true
  | spent : Lowering [] true

/-- Where it stands once it has begun, and whether the `disable` has been granted. -/
inductive Keeping : Progress → Bool → Prop
  | start : Keeping (.running (.script [.bracket [.redirect .enable, .ready, .awaitCancel] [.redirect .disable]])) false
  | raising {todo : Script} (h : Raising todo) : Keeping (.running (.bracket (.script todo) [.redirect .disable])) false
  | lowering {o : Outcome} {todo : Script} {down : Bool} (h : Lowering todo down) :
      Keeping (.running (.cleanup o (.script todo))) down
  | ended {e : Ending} : Keeping (.ended e) true

section
variable {todo : Script} {a : Nat} {o : Outcome} {turn : UnitTurn} {p : Progress}

theorem Raising.step (raising : Raising todo) (up : log = none)
    (h : s.supervisor.standing n = (.running (.bracket (.script todo) [.redirect .disable]), a))
    (m : s.unitStep ⟨n, none⟩ turn = some s') :
    ∃ p, s'.supervisor.standing n = (p, a) ∧ Keeping p (log.after turn (s.dealing? n)).isSome ∧
      Deals n s log s' (log.after turn (s.dealing? n)) := by
  have dealing := dealing?_of_standing h
  subst up
  rw [dealing]
  cases unitStep_turned h m with
  | cancel asked => cases raising <;> cases asked
  | @abandon depth w left standing lock redirector =>
    have after := dealing?_of_standing standing
    cases depth with
    | succ depth => cases left
    | zero =>
      cases left
      exact ⟨_, standing, .lowering .asked, .release (.inl rfl) after lock redirector⟩
  | proceed performed standing lock redirector =>
    have after := dealing?_of_standing standing
    cases raising with
    | asked =>
      cases performed
      exact ⟨_, standing, .raising .waiting, .ask dealing after nofun lock redirector⟩
    | waiting =>
      obtain ⟨first, performed⟩ := Option.ite_none_right_eq_some.1 performed
      cases performed
      exact ⟨_, standing, .raising .applying, .grant dealing (of_decide_eq_true first) after lock redirector⟩
    | @applying es =>
      cases es with
      | nil =>
        cases performed
        exact ⟨_, standing, .raising .up, .release (.inl rfl) after lock redirector⟩
      | cons e es =>
        cases performed
        exact ⟨_, standing, .raising .applying, .apply dealing after lock redirector⟩
    | up =>
      cases performed
      exact ⟨_, standing, .raising .parked, .aside dealing after lock redirector⟩
    | parked =>
      obtain ⟨_, performed⟩ := Option.ite_none_right_eq_some.1 performed
      cases performed
      exact ⟨_, standing, .raising .spent, .aside dealing after lock redirector⟩
    | spent =>
      cases performed
      exact ⟨_, standing, .lowering .asked, .aside dealing after lock redirector⟩

/-- Once begun, the cleanup is not abandoned. -/
theorem Lowering.step (lowering : Lowering todo log.isSome)
    (h : s.supervisor.standing n = (.running (.cleanup o (.script todo)), a))
    (m : s.unitStep ⟨n, none⟩ turn = some s') :
    ∃ p, s'.supervisor.standing n = (p, a) ∧ Keeping p (log.after turn (s.dealing? n)).isSome ∧
      Deals n s log s' (log.after turn (s.dealing? n)) := by
  have dealing := dealing?_of_standing h
  generalize granted : log.isSome = down at lowering
  rw [dealing]
  cases unitStep_turned h m with
  | cancel asked => cases lowering <;> cases asked
  | abandon left => cases left
  | proceed performed standing lock redirector =>
    have after := dealing?_of_standing standing
    cases lowering with
    | asked =>
      cases performed
      exact ⟨_, standing, granted ▸ .lowering .waiting, .ask dealing after nofun lock redirector⟩
    | waiting =>
      obtain ⟨first, performed⟩ := Option.ite_none_right_eq_some.1 performed
      cases performed
      exact ⟨_, standing, .lowering .applying, .grant dealing (of_decide_eq_true first) after lock redirector⟩
    | @applying es =>
      cases es with
      | nil =>
        cases performed
        have done : s.ahead n = [] := ahead_of_dealing? dealing
        exact ⟨_, standing, granted ▸ .lowering .spent, .release (.inr done) after lock redirector⟩
      | cons e es =>
        cases performed
        exact ⟨_, standing, granted ▸ .lowering .applying, .apply dealing after lock redirector⟩
    | spent =>
      cases performed
      exact ⟨_, standing, granted ▸ .ended, .aside dealing after lock redirector⟩

/-- Before its `disable` is granted, nothing is logged. -/
theorem Keeping.granted {op : Operation} (keeping : Keeping p log.isSome) (h : p.dealing? = some (.redirecting op)) :
    op = .disable ∨ log = none := by
  generalize granted : log.isSome = down at keeping
  cases keeping with
  | raising => exact .inr (Option.not_isSome_iff_eq_none.1 (Bool.eq_false_iff.1 granted))
  | lowering lowering =>
    cases lowering with
    | waiting =>
      cases h
      exact .inl rfl
    | _ => cases h
  | _ => cases h

theorem Keeping.step (keeping : Keeping p log.isSome) (h : s.supervisor.standing n = (p, a))
    (m : s.unitStep ⟨n, none⟩ turn = some s') :
    ∃ p', s'.supervisor.standing n = (p', a) ∧ Keeping p' (log.after turn (s.dealing? n)).isSome ∧
      Deals n s log s' (log.after turn (s.dealing? n)) := by
  generalize granted : log.isSome = down at keeping
  cases keeping with
  | start =>
    have dealing := dealing?_of_standing h
    rw [dealing]
    cases unitStep_turned h m with
    | cancel asked => cases asked
    | abandon left => cases left
    | proceed performed standing lock redirector =>
      cases performed
      exact ⟨_, standing, granted ▸ .raising .asked, .aside dealing (dealing?_of_standing standing) lock redirector⟩
  | raising raising => exact raising.step (Option.not_isSome_iff_eq_none.1 (Bool.eq_false_iff.1 granted)) h m
  | lowering lowering => exact Lowering.step (granted ▸ lowering) h m
  | ended => exact nomatch (unitStep_of_ended h).symm.trans m

end

/-! ### The unit that follows the routes -/

/-- What is left of a pass. -/
inductive Serving (port : UInt16) : Script → Prop
  | start : Serving port [.follow port]
  | marked {seen : Nat} : Serving port [.converge port, .ready, .awaitChange seen port]
  | read {seen : Nat} {wanted : Mappings} (only : ∀ a p, wanted.find? a = some p → p = port) :
      Serving port [.comparing wanted, .ready, .awaitChange seen port]
  | calling {seen : Nat} {ops : List Operation} (only : ∀ op ∈ ops, op.Serves port) :
      Serving port (ops.map .redirect ++ [.ready, .awaitChange seen port])
  | waiting {seen : Nat} {op : Operation} {ops : List Operation} (only : ∀ op' ∈ op :: ops, op'.Serves port) :
      Serving port (.redirecting op :: (ops.map .redirect ++ [.ready, .awaitChange seen port]))
  | applying {seen : Nat} {es : List Effect} {ops : List Operation} (only : ∀ op ∈ ops, op.Serves port) :
      Serving port (.applying es :: (ops.map .redirect ++ [.ready, .awaitChange seen port]))
  | parked {seen : Nat} : Serving port [.awaitChange seen port]

inductive Attending (port : UInt16) : Progress → Prop
  | serving {todo : Script} (h : Serving port todo) : Attending port (.running (.script todo))
  | ended {e : Ending} : Attending port (.ended e)

theorem serves_between {current wanted : Mappings} (only : ∀ a p, wanted.find? a = some p → p = port) :
    ∀ op ∈ (Convergence.between current wanted).operations, op.Serves port := by
  intro op hop
  rw [Convergence.operations, Convergence.removals_eq, Convergence.installs_eq, List.mem_append, List.mem_map,
    List.mem_map] at hop
  rcases hop with ⟨a, _, rfl⟩ | ⟨⟨a, p⟩, entry, rfl⟩
  · exact True.intro
  · exact only a p (Dictionary.mem_entries_iff.1 (List.mem_of_mem_filter entry))

theorem dealing?_calling {seen : Nat} (ops : List Operation) :
    (Progress.running (.script (ops.map .redirect ++ [.ready, .awaitChange seen port]))).dealing? = none := by
  cases ops <;> rfl

theorem Serving.granted {todo : Script} {op : Operation} (serving : Serving port todo)
    (h : (Progress.running (.script todo)).dealing? = some (.redirecting op)) : op.Serves port := by
  cases serving with
  | @calling seen ops =>
    rw [dealing?_calling] at h
    cases h
  | waiting only =>
    cases h
    exact only _ List.mem_cons_self
  | _ => cases h

theorem Serving.step {todo : Script} {a : Nat} {turn : UnitTurn} (serving : Serving port todo) (log : Log)
    (h : s.supervisor.standing r = (.running (.script todo), a)) (m : s.unitStep ⟨r, none⟩ turn = some s') :
    ∃ p, s'.supervisor.standing r = (p, a) ∧ Attending port p ∧ Deals r s log s' (log.after turn (s.dealing? r)) := by
  have dealing := dealing?_of_standing h
  rw [dealing]
  cases unitStep_turned h m with
  | abandon left => cases left
  | cancel asked standing lock redirector =>
    have after := dealing?_of_standing standing
    cases serving with
    | parked =>
      cases asked
      exact ⟨_, standing, .ended, .aside dealing after lock redirector⟩
    | @calling seen ops only => cases ops <;> cases asked
    | _ => cases asked
  | proceed performed standing lock redirector =>
    have after := dealing?_of_standing standing
    cases serving with
    | start =>
      cases performed
      exact ⟨_, standing, .serving .marked, .aside dealing after lock redirector⟩
    | marked =>
      cases performed
      exact ⟨_, standing, .serving (.read fun a p h => ((find?_wantedMappings _ _ _ _).1 h).1),
        .ask dealing after nofun lock redirector⟩
    | read only =>
      obtain ⟨first, performed⟩ := Option.ite_none_right_eq_some.1 performed
      cases performed
      have done : s.ahead r = [] := ahead_of_dealing? dealing
      exact ⟨_, standing, .serving (.calling (serves_between only)),
        .release (.inr done) (after.trans (dealing?_calling _)) lock redirector⟩
    | @calling seen ops only =>
      cases ops with
      | nil =>
        cases performed
        exact ⟨_, standing, .serving .parked, .aside dealing after lock redirector⟩
      | cons op ops =>
        cases performed
        exact ⟨_, standing, .serving (.waiting only), .ask dealing after nofun lock redirector⟩
    | waiting only =>
      obtain ⟨first, performed⟩ := Option.ite_none_right_eq_some.1 performed
      cases performed
      have rest := (List.forall_mem_cons.1 only).2
      exact ⟨_, standing, .serving (.applying rest),
        .grant dealing (of_decide_eq_true first) after lock redirector⟩
    | @applying seen es ops only =>
      cases es with
      | nil =>
        cases performed
        have done : s.ahead r = [] := ahead_of_dealing? dealing
        exact ⟨_, standing, .serving (.calling only),
          .release (.inr done) (after.trans (dealing?_calling _)) lock redirector⟩
      | cons e es =>
        cases performed
        exact ⟨_, standing, .serving (.applying only), .apply dealing after lock redirector⟩
    | parked =>
      obtain ⟨_, performed⟩ := Option.ite_none_right_eq_some.1 performed
      cases performed
      exact ⟨_, standing, .serving .start, .aside dealing after lock redirector⟩

/-! ### Runs of the daemon -/

theorem Daemon.reached (h : Daemon n r s log) : Reached s := by
  induction h with
  | start fresh => exact .start fresh
  | turn _ _ m ih => exact ih.step (l := .unit _ _) m
  | other _ _ m _ _ ih => exact ih.step m
  | clock _ later ih => exact ih.clock later
  | call _ m _ _ ih => exact ih.call m

/-- Where the unit that keeps the chain stands, and in which attempt. -/
inductive Keeper : Progress × Nat → Log → Prop
  | unbegun {e : Ending} : Keeper (.ended e, 0) none
  | begun {p : Progress} {a : Nat} {log : Log} (later : a ≠ 0) (h : Keeping p log.isSome) : Keeper (p, a) log

/-- What holds at every moment of a daemon. -/
structure Orderly (n r : TaskId) (port : UInt16) (s : System) (log : Log) : Prop where
  keeper : Keeper (s.supervisor.standing n) log
  follower : Attending port (s.supervisor.standing r).1
  queue : Queued [n, r] s
  account : ∀ late, log = some late → s.redirector.Accounts s.underway late
  serves : ∀ late, log = some late → ∀ op ∈ late, op.Serves port

theorem serves_after {turn : UnitTurn} {d : Option Action}
    (serves : ∀ late, log = some late → ∀ op ∈ late, op.Serves port)
    (granted : ∀ op, d = some (.redirecting op) → op = .disable ∨ log = none ∨ op.Serves port) :
    ∀ late, log.after turn d = some late → ∀ op ∈ late, op.Serves port := by
  intro late logged
  unfold Log.after at logged
  split at logged
  next op =>
    rw [Log.grant] at logged
    split at logged
    next =>
      cases logged
      exact List.forall_mem_nil _
    next up =>
      obtain ⟨early, rfl, rfl⟩ := Option.map_eq_some_iff.1 logged
      have new : op.Serves port := ((granted op rfl).resolve_left up).resolve_left (Option.some_ne_none early)
      intro op' hop'
      rcases List.mem_append.1 hop' with old | last
      · exact serves early rfl op' old
      · exact List.mem_singleton.1 last ▸ new
  next => exact serves late logged

theorem Keeper.after {x : Progress × Nat} {turn : UnitTurn} {d : Option Action} (keeper : Keeper x log)
    (up : ∀ op, d = some (.redirecting op) → op ≠ .disable) : Keeper x (log.after turn d) := by
  unfold Log.after
  split
  next op =>
    rw [Log.grant, if_neg (up op rfl)]
    cases keeper with
    | unbegun => exact .unbegun
    | begun later keeping => exact .begun later (by rwa [Option.isSome_map])
  next => exact keeper

section
variable (o : Orderly n r port s log) (apart : n ≠ r)
include o apart

theorem Orderly.keeps {turn : UnitTurn} (m : s.unitStep ⟨n, none⟩ turn = some s') :
    Orderly n r port s' (log.after turn (s.dealing? n)) := by
  have other : s'.supervisor.standing r = s.supervisor.standing r :=
    unitStep_standing (fun same => apart (congrArg UnitId.task same)) m
  obtain ⟨⟨p, a⟩, standing⟩ : ∃ x, s.supervisor.standing n = x := ⟨_, rfl⟩
  have keeper := o.keeper
  rw [standing] at keeper
  cases keeper with
  | unbegun => exact nomatch (unitStep_of_ended standing).symm.trans m
  | begun later keeping =>
    obtain ⟨p', standing', keeping', deals⟩ := keeping.step standing m
    have others (j : TaskId) (hj : j ∈ [n, r]) (hn : j ≠ n) : s'.dealing? j = s.dealing? j := by
      have hr : j = r := by simpa [hn] using hj
      exact hr ▸ dealing?_congr other
    refine ⟨?_, other ▸ o.follower, o.queue.deals (by simp) deals others,
      o.queue.accounts (by simp) deals others o.account, serves_after o.serves fun op granted => ?_⟩
    · rw [standing']
      exact .begun later keeping'
    · rw [dealing?_of_standing standing] at granted
      exact (keeping.granted granted).imp_right .inl

theorem Orderly.follows {turn : UnitTurn} (m : s.unitStep ⟨r, none⟩ turn = some s') :
    Orderly n r port s' (log.after turn (s.dealing? r)) := by
  have other : s'.supervisor.standing n = s.supervisor.standing n :=
    unitStep_standing (fun same => apart (congrArg UnitId.task same).symm) m
  obtain ⟨⟨p, a⟩, standing⟩ : ∃ x, s.supervisor.standing r = x := ⟨_, rfl⟩
  have follower := o.follower
  rw [standing] at follower
  cases follower with
  | ended => exact nomatch (unitStep_of_ended standing).symm.trans m
  | serving serving =>
    obtain ⟨p', standing', attending, deals⟩ := serving.step log standing m
    have others (j : TaskId) (hj : j ∈ [n, r]) (hr : j ≠ r) : s'.dealing? j = s.dealing? j := by
      have hn : j = n := by simpa [hr] using hj
      exact hn ▸ dealing?_congr other
    have granted (op : Operation) (h : s.dealing? r = some (.redirecting op)) : op.Serves port := by
      rw [dealing?_of_standing standing] at h
      exact serving.granted h
    refine ⟨?_, ?_, o.queue.deals (by simp) deals others, o.queue.accounts (by simp) deals others o.account,
      serves_after o.serves fun op h => .inr (.inr (granted op h))⟩
    · rw [other]
      exact o.keeper.after fun op h down => by simpa [down, Operation.Serves] using granted op h
    · rw [standing']
      exact attending

end

/-- The packet filter may change its mind. -/
theorem Orderly.aside (o : Orderly n r port s log) (keeper : Keeper (s'.supervisor.standing n) log)
    (follower : Attending port (s'.supervisor.standing r).1) (dealing : ∀ j ∈ [n, r], s'.dealing? j = s.dealing? j)
    (lock : s'.lock = s.lock) (redirector : ∃ refusing, s'.redirector = { s.redirector with refusing }) :
    Orderly n r port s' log where
  keeper := keeper
  follower := follower
  queue := o.queue.congr dealing lock
  account late logged := by
    have same := o.queue.underway_congr (fun j hj => ahead_congr (dealing j hj)) (congrArg List.head? lock)
    obtain ⟨refusing, redirector⟩ := redirector
    rw [same, redirector]
    exact ⟨(o.account late logged).table, (o.account late logged).commands⟩
  serves := o.serves

theorem keeper_of_begun {t : Task} (keeper : Keeper (t.work, t.attempt) log) (first : t.attempt = 0)
    (keeps : t.worker = Session.chainWorker) : Keeper (t.begun.work, t.begun.attempt) log := by
  generalize standing : (t.work, t.attempt) = x at keeper
  cases keeper with
  | begun later => exact absurd ((Prod.mk.inj standing).2.symm.trans first) later
  | unbegun =>
    rw [Task.begun, keeps, first]
    exact .begun Nat.one_ne_zero .start

theorem script_redirectWorker (port : UInt16) (a : Nat) : (Session.redirectWorker port).script a = [.follow port] := by
  cases a <;> rfl

theorem Orderly.other (o : Orderly n r port s log) {past : List Supervisor} (run : s.supervisor.Run past) {l : Label}
    (keeps : ∀ t, s.supervisor.task? n = some t → t.worker = Session.chainWorker)
    (follows : ∀ t, s.supervisor.task? r = some t → t.worker = Session.redirectWorker port)
    (foreign : ∀ k ∈ [n, r], ∀ turn, l ≠ .unit ⟨k, none⟩ turn) (m : s.step l = some s') (lock : s'.lock = s.lock)
    (redirector : s'.redirector = s.redirector) : Orderly n r port s' log := by
  have keeper : Keeper (s'.supervisor.standing n) log ∧ s'.dealing? n = s.dealing? n := by
    rcases step_standing (foreign n (by simp)) m with same | ⟨t, ht, unblocked, begun⟩
    · exact ⟨same ▸ o.keeper, dealing?_congr same⟩
    · have first : t.attempt = 0 := run.first_of_unblocked ht (by rw [keeps t ht]; rfl) unblocked
      obtain ⟨e, rest⟩ := (run.atRest_of_unblocked ht unblocked).1
      have before := o.keeper
      rw [Supervisor.standing_of_task? ht] at before
      rw [dealing?, dealing?, Supervisor.standing_of_task? begun, Supervisor.standing_of_task? ht, rest]
      refine ⟨keeper_of_begun before first (keeps t ht), ?_⟩
      rw [Task.begun, keeps t ht, first]
      rfl
  have follower : Attending port (s'.supervisor.standing r).1 ∧ s'.dealing? r = s.dealing? r := by
    rcases step_standing (foreign r (by simp)) m with same | ⟨t, ht, unblocked, begun⟩
    · exact ⟨same ▸ o.follower, dealing?_congr same⟩
    · obtain ⟨e, rest⟩ := (run.atRest_of_unblocked ht unblocked).1
      rw [dealing?, dealing?, Supervisor.standing_of_task? begun, Supervisor.standing_of_task? ht, rest, Task.begun,
        follows t ht, script_redirectWorker]
      exact ⟨.serving .start, rfl⟩
  refine o.aside keeper.1 follower.1 (fun j hj => ?_) lock ⟨s.redirector.refusing, redirector⟩
  rcases List.mem_pair.1 hj with rfl | rfl
  · exact keeper.2
  · exact follower.2

theorem Daemon.orderly (h : Daemon n r s log) (apart : n ≠ r)
    (keeps : ∀ t, s.supervisor.task? n = some t → t.worker = Session.chainWorker)
    (follows : ∀ t, s.supervisor.task? r = some t → t.worker = Session.redirectWorker port) :
    Orderly n r port s log := by
  induction h with
  | @start s backoff now mailboxes chain refusing fresh free unused =>
    have unmade (k : TaskId) : s.supervisor.standing k = (.ended (.returned none), 0) := by rw [fresh]; rfl
    have idle (k : TaskId) : s.dealing? k = none := by rw [dealing?, unmade]; rfl
    exact {
      keeper := unmade n ▸ .unbegun
      follower := unmade r ▸ .ended
      queue := ⟨by simp [free], by simp [free], by simp [free, idle], by simp [idle]⟩
      account := nofun
      serves := nofun }
  | @turn s s' log k turn h own m ih =>
    have before := unitStep_follows m
    have o := ih (before.worker_before keeps) (before.worker_before follows)
    rcases List.mem_pair.1 own with rfl | rfl
    · exact o.keeps apart m
    · exact o.follows apart m
  | @other s s' log l h foreign m lock redirector ih =>
    have before := step_follows m
    have keeps := before.worker_before keeps
    have follows := before.worker_before follows
    obtain ⟨past, run⟩ := h.reached.run
    exact (ih keeps follows).other run keeps follows foreign m lock redirector
  | @clock s log time h later ih =>
    exact (ih keeps follows).aside (ih keeps follows).keeper (ih keeps follows).follower (fun _ _ => rfl) rfl ⟨_, rfl⟩
  | @call s s' log refusing h m lock redirector ih =>
    have before := m.follows
    have o := ih (before.worker_before keeps) (before.worker_before follows)
    have same (k : TaskId) : s'.supervisor.standing k = s.supervisor.standing k := m.standing
    exact o.aside (same n ▸ o.keeper) (same r ▸ o.follower) (fun j _ => dealing?_congr (same j)) lock
      ⟨refusing, redirector⟩

/-- Both tasks of a daemon have ended, that of the chain after an attempt. -/
structure Over (n r : TaskId) (port : UInt16) (s : System) : Prop where
  keeper : ∃ t, s.supervisor.task? n = some t ∧ t.worker = Session.chainWorker ∧ t.isTerminated = true ∧ t.attempt ≠ 0
  follower : ∃ t, s.supervisor.task? r = some t ∧ t.worker = Session.redirectWorker port ∧ t.isTerminated = true

/-- What a daemon leaves, whenever the shutdown comes. -/
theorem teardown_exact (h : Daemon n r s log) (ended : Over n r port s) :
    ∃ late before, log = some late ∧ (∀ op ∈ late, op.Serves port) ∧
      s.redirector.mappings = Mappings.performAll .empty late ∧
      s.redirector.lines = before ++ (Operation.disable.commands .empty ++ Mappings.commands .empty late).map
        (Command.arguments s.redirector.chain) ∧
      (s.redirector.mappings = .empty ∧ Mappings.commands .empty late = [] ↔ ∀ a, .forward a port ∉ late) := by
  obtain ⟨t, hn, keeps, gone, begun⟩ := ended.keeper
  obtain ⟨t', hr, follows, gone'⟩ := ended.follower
  have apart : n ≠ r := by
    rintro rfl
    cases hn.symm.trans hr
    have names : "nat" = "redirect" := congrArg Worker.name (keeps.symm.trans follows)
    exact absurd names (by decide)
  obtain ⟨past, run⟩ := h.reached.run
  have o := h.orderly apart (fun u hu => by cases hu.symm.trans hn; exact keeps)
    (fun u hu => by cases hu.symm.trans hr; exact follows)
  obtain ⟨e, rest⟩ := (run.atRest_of_terminated hn gone).1
  obtain ⟨e', rest'⟩ := (run.atRest_of_terminated hr gone').1
  have standing : s.supervisor.standing n = (.ended e, t.attempt) := by rw [Supervisor.standing_of_task? hn, rest]
  have standing' : s.supervisor.standing r = (.ended e', t'.attempt) := by rw [Supervisor.standing_of_task? hr, rest']
  have quiet : s.underway = [] := o.queue.underway_eq_nil fun j hj => by
    refine ahead_of_none ?_
    rcases List.mem_pair.1 hj with rfl | rfl
    · rw [dealing?_of_standing standing]
      rfl
    · rw [dealing?_of_standing standing']
      rfl
  obtain ⟨late, logged⟩ : ∃ late, log = some late := by
    have keeper := o.keeper
    generalize unfolded : s.supervisor.standing n = x at keeper
    cases keeper with
    | unbegun => exact absurd (Prod.mk.inj (standing.symm.trans unfolded)).2 begun
    | begun _ keeping =>
      cases standing.symm.trans unfolded
      generalize granted : log.isSome = down at keeping
      cases keeping
      exact Option.isSome_iff_exists.1 granted
  have account := o.account late logged
  rw [quiet] at account
  obtain ⟨before, issued⟩ := account.commands
  rw [List.filterMap_nil, List.append_nil, List.append_assoc] at issued
  have table : s.redirector.mappings = Mappings.performAll .empty late := account.table
  have serves := o.serves late logged
  refine ⟨late, before.map (Command.arguments s.redirector.chain), logged, serves, table, ?_, ?_⟩
  · rw [Redirector.lines_eq, issued, List.map_append]
  · rw [table]
    exact Mappings.nothing_iff serves

/-! ### A shutdown in the middle of a pass -/

inductive Happening where
  | shutdown
  | loop (task : TaskId) (turn : Turn)
  | unit (task : TaskId) (turn : UnitTurn)

def happen? (n r : TaskId) : System × Log → Happening → Option (System × Log)
  | (s, log), .shutdown => some (s.onSupervisor (·.shutdown), log)
  | (s, log), .loop i turn => (s.step (.actor i turn)).map (·, log)
  | (s, log), .unit k turn =>
    if k ∈ [n, r] then (s.unitStep ⟨k, none⟩ turn).map (·, log.after turn (s.dealing? k)) else none

theorem Daemon.happens (h : Daemon n r s log) {happenings : List Happening} {log' : Log}
    (ran : happenings.foldlM (happen? n r) (s, log) = some (s', log')) :
    Daemon n r s' log' ∧ Supervisor.Follows s.supervisor s'.supervisor := by
  have start : Daemon n r s log ∧ Supervisor.Follows s.supervisor s.supervisor := ⟨h, .refl⟩
  refine kept_of_foldlM (P := fun x => Daemon n r x.1 x.2 ∧ Supervisor.Follows s.supervisor x.1.supervisor)
    (fun {x x' happening} first before => ?_) ran start
  obtain ⟨s₁, log₁⟩ := x
  obtain ⟨daemon, follows⟩ := before
  cases happening with
  | shutdown =>
    cases first
    have asked : Supervisor.Requests s₁.supervisor s₁.supervisor.shutdown := .single ⟨.shutdown, rfl, rfl⟩
    exact ⟨.call daemon asked rfl rfl, follows.trans asked.follows⟩
  | loop i turn =>
    obtain ⟨s₂, step, made⟩ := Option.map_eq_some_iff.1 first
    cases made
    have later := step_follows step
    have foreign : ∀ k ∈ [n, r], ∀ t, Label.actor i turn ≠ .unit ⟨k, none⟩ t := nofun
    obtain ⟨sup, _, rfl⟩ := Option.map_eq_some_iff.1 step
    exact ⟨.other daemon foreign step rfl rfl, follows.trans later⟩
  | unit k turn =>
    obtain ⟨own, first⟩ := Option.ite_none_right_eq_some.1 first
    obtain ⟨s₂, step, made⟩ := Option.map_eq_some_iff.1 first
    cases made
    exact ⟨.turn daemon own step, follows.trans (unitStep_follows step)⟩

/-- Two routes stored, and both tasks registered. -/
def registered : System where
  supervisor := ([Session.chainWorker, Session.redirectWorker 15000].foldlM Supervisor.supervise {}).toOption.getD {}
  store := ({} : Store).update { name := "t", routes := [{ ip := "10.0.0.1" }, { ip := "10.0.0.2" }] }
  redirector := { chain := "SLIPWAY" }

def shutdownMidPass : List Happening :=
  -- the chain is put in place
  List.replicate 2 (.loop 0 .proceed) ++ List.replicate 12 (.unit 0 .proceed) ++
    -- the first of two calls is in progress when the shutdown comes
    List.replicate 2 (.loop 1 .proceed) ++ List.replicate 6 (.unit 1 .proceed) ++ [.shutdown] ++
    -- `disable` asks for the redirector, and after it the second call
    [.unit 0 (.abandon 0), .unit 0 .proceed] ++ List.replicate 3 (.unit 1 .proceed) ++
    List.replicate 8 (.unit 0 .proceed) ++ List.replicate 5 (.unit 1 .proceed) ++ [.unit 1 .cancel] ++
    [0, 1].flatMap fun i => [.loop i .cancel, .loop i .proceed, .loop i .proceed]

theorem daemon_registered : Daemon 0 1 registered none := by
  let opened : System := { registered with supervisor := {} }
  have start : Daemon 0 1 opened none := .start rfl rfl rfl
  have asked : Supervisor.Requests opened.supervisor registered.supervisor :=
    .tail (.single ⟨.supervise Session.chainWorker, rfl, rfl⟩) ⟨.supervise (Session.redirectWorker 15000), rfl, rfl⟩
  exact .call start asked rfl rfl

/-- Both tasks end, nobody was asked to stop alone, and the second call comes after the `disable`. -/
theorem exists_midPass : ∃ s late, Daemon 0 1 s (some late) ∧ Over 0 1 15000 s ∧
    s.supervisor.tasks.all (!·.stopRequested) = true ∧ late = [.forward ⟨.tcp, ⟨10, 0, 0, 2⟩⟩ 15000] ∧
    s.redirector.chain = "SLIPWAY" ∧ s.redirector.mappings.entries = [(⟨.tcp, ⟨10, 0, 0, 2⟩⟩, 15000)] ∧
    (s.redirector.issued.map Prod.fst).take 2 = [.append ⟨.tcp, ⟨10, 0, 0, 2⟩⟩ 15000, .destroy] := by
  have ran : (shutdownMidPass.foldlM (happen? 0 1) (registered, none)).any (fun (s, log) =>
      (s.supervisor.task? 0).any (fun t => t.isTerminated = true ∧ t.attempt ≠ 0) ∧
        (s.supervisor.task? 1).any (·.isTerminated) ∧ s.supervisor.tasks.all (!·.stopRequested) ∧
        log = some [.forward ⟨.tcp, ⟨10, 0, 0, 2⟩⟩ 15000] ∧ s.redirector.chain = "SLIPWAY" ∧
        s.redirector.mappings.entries = [(⟨.tcp, ⟨10, 0, 0, 2⟩⟩, 15000)] ∧
        (s.redirector.issued.map Prod.fst).take 2 = [.append ⟨.tcp, ⟨10, 0, 0, 2⟩⟩ 15000, .destroy]) = true := by
    decide +kernel
  obtain ⟨⟨s, log⟩, made, h⟩ := (Option.any_eq_true _ _).1 ran
  obtain ⟨gone, gone', alone, rfl, chain, entries, issued⟩ := of_decide_eq_true h
  obtain ⟨daemon, follows⟩ := daemon_registered.happens made
  obtain ⟨t, ht, gone⟩ := (Option.any_eq_true _ _).1 gone
  obtain ⟨t', ht', gone'⟩ := (Option.any_eq_true _ _).1 gone'
  have worker {k : TaskId} {u v : Task} (hu : registered.supervisor.task? k = some u)
      (hv : s.supervisor.task? k = some v) : v.worker = u.worker := by
    obtain ⟨v', hv', worker⟩ := follows.worker hu
    cases hv'.symm.trans hv
    exact worker
  exact ⟨s, _, daemon, ⟨⟨t, ht, worker rfl ht, of_decide_eq_true gone⟩, ⟨t', ht', worker rfl ht', gone'⟩⟩, alone, rfl,
    chain, entries, issued⟩

theorem teardown_exact_midPass : ∃ s late, Daemon 0 1 s (some late) ∧ Over 0 1 15000 s ∧
    s.redirector.mappings = Mappings.performAll .empty late ∧ late = [.forward ⟨.tcp, ⟨10, 0, 0, 2⟩⟩ 15000] ∧
    ¬ (s.redirector.mappings = .empty ∧ Mappings.commands .empty late = []) := by
  obtain ⟨s, late, daemon, gone, _, forwarded, _⟩ := exists_midPass
  obtain ⟨late', before, logged, _, table, _, nothing⟩ := teardown_exact daemon gone
  cases logged
  refine ⟨s, late, daemon, gone, table, forwarded, fun left => ?_⟩
  exact nothing.1 left ⟨.tcp, ⟨10, 0, 0, 2⟩⟩ (forwarded ▸ List.mem_cons_self)

/-- A redirect is left in the table, and its rule was added after the chain had been deleted. -/
theorem shutdown_midPass_leaves : ∃ s log, Daemon 0 1 s log ∧ Over 0 1 15000 s ∧
    s.supervisor.tasks.all (!·.stopRequested) = true ∧
    s.redirector.mappings.entries = [(⟨.tcp, ⟨10, 0, 0, 2⟩⟩, 15000)] ∧
    ∃ before, s.redirector.lines = before ++
      [Command.destroy.arguments "SLIPWAY", (Command.append ⟨.tcp, ⟨10, 0, 0, 2⟩⟩ 15000).arguments "SLIPWAY"] := by
  obtain ⟨s, late, daemon, gone, alone, _, chain, entries, issued⟩ := exists_midPass
  refine ⟨s, _, daemon, gone, alone, entries, ?_⟩
  rw [Redirector.lines_eq, Redirector.commands, chain, ← List.take_append_drop 2 (s.redirector.issued.map Prod.fst),
    issued, List.reverse_append, List.map_append]
  exact ⟨_, rfl⟩

end System

end Switchyard
