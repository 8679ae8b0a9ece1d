import Switchyard.Proofs.Redirect.Passes
import Switchyard.Proofs.Supervision.Work
import Switchyard.Schedule

/-!
Units that share the redirector. Main statement: while they ask for it in turn, what one of them has begun is a whole
call as soon as it is done, whatever the others wait for; and so the table and the commands are those of the calls in
the order in which they were granted.
-/
namespace Switchyard

/-- Waits for the redirector, or has it. -/
def Action.isDealing : Action → Bool
  | .redirecting _ | .comparing _ | .applying _ => true
  | _ => false

def Progress.dealing? : Progress → Option Action
  | .running w => if w.next.isDealing then some w.next else none
  | .ended _ => none

def Action.ahead : Action → List Effect
  | .applying es => es
  | _ => []

/-- The calls granted since the last `disable` was, oldest first; none if there was no `disable`. -/
abbrev Log := Option (List Operation)

def Log.grant (log : Log) (op : Operation) : Log := if op = .disable then some [] else log.map (· ++ [op])

namespace Redirector

/-- The commands issued, oldest first. -/
def commands (t : Redirector) : List Command := (t.issued.map Prod.fst).reverse

theorem commands_apply (t : Redirector) (e : Effect) : (t.apply e).commands = t.commands ++ e.command?.toList := by
  cases e with
  | issue c => exact List.reverse_cons
  | _ => exact (List.append_nil _).symm

/-- When the effects ahead are done, table and commands are those of a `disable` and of the calls after it. -/
structure Accounts (t : Redirector) (ahead : List Effect) (late : List Operation) : Prop where
  table : ahead.foldl Mappings.apply t.mappings = Mappings.performAll .empty late
  commands : ∃ before, t.commands ++ ahead.filterMap Effect.command? =
    before ++ Operation.disable.commands .empty ++ Mappings.commands .empty late

variable {t : Redirector} {e : Effect} {es : List Effect} {late : List Operation} {op : Operation}

theorem Accounts.apply (h : t.Accounts (e :: es) late) : (t.apply e).Accounts es late where
  table := by rw [mappings_apply, ← List.foldl_cons, h.table]
  commands := by
    obtain ⟨before, h⟩ := h.commands
    refine ⟨before, ?_⟩
    rw [← h, commands_apply, List.append_assoc]
    cases e <;> rfl

theorem Accounts.grant (h : t.Accounts [] late) (op : Operation) :
    t.Accounts (op.effects t.mappings) (late ++ [op]) where
  table := by
    have table : t.mappings = Mappings.performAll .empty late := h.table
    rw [Mappings.performAll_snoc, ← table]
    rfl
  commands := by
    obtain ⟨before, issued⟩ := h.commands
    have table : t.mappings = Mappings.performAll .empty late := h.table
    refine ⟨before, ?_⟩
    rw [Mappings.commands_snoc, ← List.append_assoc, ← issued, ← table, List.filterMap_nil, List.append_nil]
    rfl

theorem accounts_disable (t : Redirector) : t.Accounts (Operation.disable.effects t.mappings) [] where
  table := rfl
  commands := ⟨t.commands, by rw [Mappings.commands, List.append_nil]; rfl⟩

end Redirector

namespace System

/-- What the main unit of registration `k` waits for or does with the redirector. -/
def dealing? (s : System) (k : TaskId) : Option Action := (s.supervisor.standing k).1.dealing?

/-- The effects that registration `k` has been granted and not yet done. -/
def ahead (s : System) (k : TaskId) : List Effect := ((s.dealing? k).map Action.ahead).getD []

/-- The effects that whoever has the redirector has not yet done. -/
def underway (s : System) : List Effect := (s.lock.head?.map fun u => s.ahead u.task).getD []

/-- Whoever of `ks` deals with the redirector stands in the line once, whoever has it is first, and nobody else is
there. -/
structure Queued (ks : List TaskId) (s : System) : Prop where
  known : ∀ u ∈ s.lock, ∃ k ∈ ks, u = ⟨k, none⟩
  once : s.lock.Nodup
  asked : ∀ k ∈ ks, ⟨k, none⟩ ∈ s.lock ↔ (s.dealing? k).isSome
  served : ∀ k ∈ ks, ∀ es, s.dealing? k = some (.applying es) → s.lock.head? = some ⟨k, none⟩

/-- What a turn of registration `k` has to do with the redirector. -/
inductive Deals (k : TaskId) (s : System) (log : Log) (s' : System) : Log → Prop
  | aside (before : s.dealing? k = none) (after : s'.dealing? k = none) (lock : s'.lock = s.lock)
      (redirector : s'.redirector = s.redirector) : Deals k s log s' log
  | ask {a : Action} (before : s.dealing? k = none) (after : s'.dealing? k = some a) (waits : ∀ es, a ≠ .applying es)
      (lock : s'.lock = s.lock ++ [⟨k, none⟩]) (redirector : s'.redirector = s.redirector) : Deals k s log s' log
  | grant {op : Operation} (before : s.dealing? k = some (.redirecting op)) (first : s.lock.head? = some ⟨k, none⟩)
      (after : s'.dealing? k = some (.applying (op.effects s.redirector.mappings))) (lock : s'.lock = s.lock)
      (redirector : s'.redirector = s.redirector) : Deals k s log s' (log.grant op)
  | apply {e : Effect} {es : List Effect} (before : s.dealing? k = some (.applying (e :: es)))
      (after : s'.dealing? k = some (.applying es)) (lock : s'.lock = s.lock)
      (redirector : s'.redirector = s.redirector.apply e) : Deals k s log s' log
  /-- Also in the middle of a call, as long as there was no `disable`. -/
  | release (done : log = none ∨ s.ahead k = []) (after : s'.dealing? k = none)
      (lock : s'.lock = s.lock.filter (· ≠ ⟨k, none⟩)) (redirector : s'.redirector = s.redirector) :
      Deals k s log s' log

variable {ks : List TaskId} {s s' : System} {k : TaskId} {log log' : Log}

theorem dealing?_of_standing {p : Progress} {a : Nat} (h : s.supervisor.standing k = (p, a)) :
    s.dealing? k = p.dealing? := congrArg (fun x => x.1.dealing?) h

theorem dealing?_congr (h : s'.supervisor.standing k = s.supervisor.standing k) : s'.dealing? k = s.dealing? k :=
  dealing?_of_standing h

theorem ahead_congr (h : s'.dealing? k = s.dealing? k) : s'.ahead k = s.ahead k := by rw [ahead, ahead, h]

theorem ahead_of_dealing? {a : Action} (h : s.dealing? k = some a) : s.ahead k = a.ahead := by
  rw [ahead, h]
  rfl

theorem ahead_of_none (h : s.dealing? k = none) : s.ahead k = [] := by
  rw [ahead, h]
  rfl

theorem underway_eq_ahead {u : UnitId} (h : s.lock.head? = some u) : s.underway = s.ahead u.task := by
  rw [underway, h]
  rfl

/-- Only the first in line has anything ahead. -/
theorem Queued.ahead_eq_nil (q : Queued ks s) {j : TaskId} (hj : j ∈ ks) (behind : s.lock.head? ≠ some ⟨j, none⟩) :
    s.ahead j = [] := by
  cases dealing : s.dealing? j with
  | none => exact ahead_of_none dealing
  | some a =>
    rw [ahead_of_dealing? dealing]
    cases a with
    | applying es => exact absurd (q.served j hj es dealing) behind
    | _ => rfl

theorem Queued.congr (q : Queued ks s) (dealing : ∀ j ∈ ks, s'.dealing? j = s.dealing? j) (lock : s'.lock = s.lock) :
    Queued ks s' where
  known := lock ▸ q.known
  once := lock ▸ q.once
  asked j hj := by rw [lock, dealing j hj, q.asked j hj]
  served j hj es h := by rw [lock, q.served j hj es (dealing j hj ▸ h)]

/-- Whoever has the redirector goes on with it. -/
theorem Queued.hold (q : Queued ks s) (others : ∀ j ∈ ks, j ≠ k → s'.dealing? j = s.dealing? j) {a a' : Action}
    (before : s.dealing? k = some a) (first : s.lock.head? = some ⟨k, none⟩) (after : s'.dealing? k = some a')
    (lock : s'.lock = s.lock) : Queued ks s' where
  known := lock ▸ q.known
  once := lock ▸ q.once
  asked j hj := by
    rw [lock, q.asked j hj]
    by_cases same : j = k
    · rw [same, before, after, Option.isSome_some, Option.isSome_some]
    · rw [others j hj same]
  served j hj es h := by
    rw [lock]
    by_cases same : j = k
    · rw [same, first]
    · exact q.served j hj es (others j hj same ▸ h)

theorem Queued.underway_eq_nil (q : Queued ks s) (idle : ∀ j ∈ ks, s.ahead j = []) : s.underway = [] := by
  cases first : s.lock.head? with
  | none =>
    rw [underway, first]
    rfl
  | some u =>
    obtain ⟨j, hj, rfl⟩ := q.known u (List.mem_of_mem_head? first)
    rw [underway_eq_ahead first, idle j hj]

/-! ### The line changes, and nothing that is under way -/

section
variable (q : Queued ks s) (same : ∀ j ∈ ks, s'.ahead j = s.ahead j)
include q same

theorem Queued.underway_congr (lock : s'.lock.head? = s.lock.head?) : s'.underway = s.underway := by
  cases first : s.lock.head? with
  | none =>
    rw [underway, underway, lock, first]
    rfl
  | some u =>
    obtain ⟨j, hj, rfl⟩ := q.known u (List.mem_of_mem_head? first)
    rw [underway_eq_ahead first, underway_eq_ahead (lock.trans first), same j hj]

theorem Queued.underway_snoc (hk : k ∈ ks) (idle : s.ahead k = []) (lock : s'.lock = s.lock ++ [⟨k, none⟩]) :
    s'.underway = s.underway := by
  cases line : s.lock with
  | nil =>
    have first : s'.lock.head? = some ⟨k, none⟩ := by rw [lock, line]; rfl
    rw [underway_eq_ahead first, same k hk, idle, underway, line]
    rfl
  | cons u rest => exact q.underway_congr same (by rw [lock, line]; rfl)

theorem Queued.underway_filter (idle : s.ahead k = []) (lock : s'.lock = s.lock.filter (· ≠ ⟨k, none⟩)) :
    s'.underway = s.underway := by
  cases line : s.lock with
  | nil => exact q.underway_congr same (by rw [lock, line]; rfl)
  | cons u rest =>
    by_cases own : u = ⟨k, none⟩
    · -- whoever comes next has not begun
      have first : s.lock.head? = some ⟨k, none⟩ := by rw [line, own]; rfl
      rw [underway_eq_ahead first, idle]
      cases next : s'.lock.head? with
      | none => rw [underway, next]; rfl
      | some v =>
        have mem : v ∈ s.lock.filter (· ≠ ⟨k, none⟩) := lock ▸ List.mem_of_mem_head? next
        obtain ⟨old, other⟩ := List.mem_filter.1 mem
        obtain ⟨j, hj, rfl⟩ := q.known v old
        rw [underway_eq_ahead next, same j hj]
        refine q.ahead_eq_nil hj fun first' => ?_
        exact of_decide_eq_true other (Option.some.inj (first'.symm.trans first))
    · refine q.underway_congr same ?_
      rw [lock, line, List.filter_cons_of_pos (by simpa using own)]
      rfl

end

section
variable (q : Queued ks s) (hk : k ∈ ks) (d : Deals k s log s' log')
  (others : ∀ j ∈ ks, j ≠ k → s'.dealing? j = s.dealing? j)
include q hk d others

theorem Queued.deals : Queued ks s' := by
  cases d with
  | aside before after lock =>
    refine q.congr (fun j hj => ?_) lock
    by_cases same : j = k
    · rw [same, before, after]
    · exact others j hj same
  | @ask a before after waits lock =>
    have absent : ⟨k, none⟩ ∉ s.lock := by
      rw [q.asked k hk, before]
      exact Bool.false_ne_true
    refine ⟨fun u hu => ?_, ?_, fun j hj => ?_, fun j hj es h => ?_⟩
    · rw [lock, List.mem_append, List.mem_singleton] at hu
      exact hu.elim (q.known u) fun own => ⟨k, hk, own⟩
    · rw [lock]
      exact List.nodup_append'.2 ⟨q.once, List.nodup_singleton _, by simpa using absent⟩
    · by_cases same : j = k
      · simp [same, lock, after]
      · rw [others j hj same, ← q.asked j hj, lock]
        simp [same]
    · by_cases same : j = k
      · rw [same, after] at h
        exact absurd (Option.some.inj h) (waits es)
      · rw [lock, List.head?_append, q.served j hj es (others j hj same ▸ h)]
        rfl
  | grant before first after lock => exact q.hold others before first after lock
  | apply before after lock => exact q.hold others before (q.served k hk _ before) after lock
  | release done after lock =>
    refine ⟨fun u hu => ?_, ?_, fun j hj => ?_, fun j hj es h => ?_⟩
    · rw [lock] at hu
      exact q.known u (List.mem_of_mem_filter hu)
    · rw [lock]
      exact q.once.filter _
    · by_cases same : j = k
      · simp [same, lock, after]
      · rw [others j hj same, ← q.asked j hj, lock]
        simp [same]
    · by_cases same : j = k
      · rw [same, after] at h
        cases h
      · have first := q.served j hj es (others j hj same ▸ h)
        obtain ⟨rest, line⟩ := List.head?_eq_some_iff.1 first
        rw [lock, line, List.filter_cons_of_pos (by simpa using same)]
        rfl

/-- The account stays right. -/
theorem Queued.accounts (account : ∀ late, log = some late → s.redirector.Accounts s.underway late) :
    ∀ late, log' = some late → s'.redirector.Accounts s'.underway late := by
  intro late logged
  have idle (before : s.ahead k = []) (after : s'.ahead k = []) (j : TaskId) (hj : j ∈ ks) :
      s'.ahead j = s.ahead j := by
    by_cases same : j = k
    · rw [same, before, after]
    · exact ahead_congr (others j hj same)
  cases d with
  | aside before after lock redirector =>
    rw [redirector, q.underway_congr (idle (ahead_of_none before) (ahead_of_none after)) (by rw [lock])]
    exact account late logged
  | @ask a before after waits lock redirector =>
    have after : s'.ahead k = [] := by
      rw [ahead_of_dealing? after]
      cases a with
      | applying es => exact absurd rfl (waits es)
      | _ => rfl
    rw [redirector, q.underway_snoc (idle (ahead_of_none before) after) hk (ahead_of_none before) lock]
    exact account late logged
  | @grant op before first after lock redirector =>
    have unbegun : s.underway = [] := by rw [underway_eq_ahead first, ahead_of_dealing? before]; rfl
    have begun : s'.underway = op.effects s.redirector.mappings := by
      rw [underway_eq_ahead (lock ▸ first), ahead_of_dealing? after]
      rfl
    rw [redirector, begun]
    by_cases down : op = .disable
    · rw [Log.grant, if_pos down] at logged
      cases logged
      rw [down]
      exact s.redirector.accounts_disable
    · rw [Log.grant, if_neg down] at logged
      obtain ⟨early, earlier, rfl⟩ := Option.map_eq_some_iff.1 logged
      exact (unbegun ▸ account early earlier).grant op
  | @apply e es before after lock redirector =>
    have first := q.served k hk _ before
    have undone : s.underway = e :: es := by rw [underway_eq_ahead first, ahead_of_dealing? before]; rfl
    have left : s'.underway = es := by rw [underway_eq_ahead (lock ▸ first), ahead_of_dealing? after]; rfl
    rw [redirector, left]
    exact (undone ▸ account late logged).apply
  | release done after lock redirector =>
    have before : s.ahead k = [] := done.resolve_left (by simp [logged])
    rw [redirector, q.underway_filter (idle before (ahead_of_none after)) before lock]
    exact account late logged

end

end System

end Switchyard
