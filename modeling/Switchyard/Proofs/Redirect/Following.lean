import Switchyard.Proofs.Execution
import Switchyard.Proofs.Redirect.Convergence

/-!
A unit that follows the redirect routes while others change them. Main statement: when it waits for a change, has seen
every change told and none is still to be told, the redirector's table is what the routes ask for.
-/
namespace Switchyard

/-- How many tidings a change owes: none if there is nothing to remove. -/
def Store.owes (s : Store) : StoreChange → Nat
  | .remove name => if s.tables.contains name then 1 else 0
  | _ => 1

theorem Store.redirects_write {s : Store} {c : StoreChange} (h : s.owes c = 0) :
    (s.write c).redirects = s.redirects := by
  cases c with
  | put t => exact absurd h Nat.one_ne_zero
  | setSearch p => rfl
  | remove name =>
    rw [owes] at h
    split at h
    case isTrue => exact absurd h Nat.one_ne_zero
    case isFalse absent =>
      have kept := Dictionary.erase_of_find?_eq_none (Option.not_isSome_iff_eq_none.1 absent)
      rw [redirects, allTables, Dictionary.values, write, kept]
      rfl

/-- What an action in progress still makes of the table. -/
def Action.edit (m : Mappings) : Action → Mappings
  | .redirect op | .redirecting op => m.perform op
  | .applying es => es.foldl Mappings.apply m
  | _ => m

/-- Calls on the redirector, waiting or in progress. -/
def Action.isCall : Action → Bool
  | .redirect _ | .redirecting _ | .applying _ => true
  | _ => false

namespace System

/-- Unit `u` follows the routes to `port`, whatever the table held when it began. A change of the store is written first
and told later; `owed` counts those written and not yet told. Nobody else changes the redirector's table. -/
inductive Following (u : UnitId) (port : UInt16) : System → Nat → Prop
  | start {s : System} {owed : Nat} (h : s.supervisor.progress? u = some (.running (.script [.follow port]))) :
      Following u port s owed
  | turn {s s' : System} {owed : Nat} {turn : UnitTurn} (h : Following u port s owed)
      (m : s.unitStep u turn = some s') : Following u port s' owed
  | write {s : System} {owed : Nat} (h : Following u port s owed) (c : StoreChange) :
      Following u port { s with store := s.store.write c } (owed + s.store.owes c)
  | tell {s : System} {owed : Nat} (h : Following u port s (owed + 1)) :
      Following u port { s with store := s.store.bump } owed
  | aside {s s' : System} {owed : Nat} (h : Following u port s owed)
      (unit : s'.supervisor.progress? u = s.supervisor.progress? u)
      (tables : s'.store.tables = s.store.tables) (generation : s'.store.generation = s.store.generation)
      (mappings : s'.redirector.mappings = s.redirector.mappings) : Following u port s' owed

/-- Nothing was written since generation `seen` was marked as seen. -/
def Unmissed (s : System) (owed seen : Nat) : Prop := s.store.generation = seen ∧ owed = 0

/-- Where a pass stands. What it has read, and what its calls come to, is out of date only if a change was missed. -/
inductive Pass (s : System) (owed : Nat) (port : UInt16) : Script → Prop
  | start : Pass s owed port [.follow port]
  | marked {seen : Nat} (past : seen ≤ s.store.generation) :
      Pass s owed port [.converge port, .ready, .awaitChange seen port]
  | read {seen : Nat} {wanted : Mappings} (past : seen ≤ s.store.generation)
      (current : s.Unmissed owed seen → wanted = wantedMappings s.store.redirects port) :
      Pass s owed port [.comparing wanted, .ready, .awaitChange seen port]
  | calling {seen : Nat} {calls : Script} (past : seen ≤ s.store.generation) (only : ∀ a ∈ calls, a.isCall = true)
      (current : s.Unmissed owed seen →
        calls.foldl Action.edit s.redirector.mappings = wantedMappings s.store.redirects port) :
      Pass s owed port (calls ++ [.ready, .awaitChange seen port])
  | parked {seen : Nat} (past : seen ≤ s.store.generation)
      (current : s.Unmissed owed seen → s.redirector.mappings = wantedMappings s.store.redirects port) :
      Pass s owed port [.awaitChange seen port]

variable {s s' : System} {u : UnitId} {port : UInt16} {owed owed' : Nat} {todo : Script}

theorem Pass.later (pass : Pass s owed port todo) (grows : s.store.generation ≤ s'.store.generation)
    (mappings : s'.redirector.mappings = s.redirector.mappings)
    (missed : ∀ seen ≤ s.store.generation, s'.Unmissed owed' seen →
      s.Unmissed owed seen ∧ s'.store.redirects = s.store.redirects) : Pass s' owed' port todo := by
  cases pass with
  | start => exact .start
  | marked past => exact .marked (Nat.le_trans past grows)
  | read past current =>
    refine .read (Nat.le_trans past grows) fun h => ?_
    obtain ⟨h, same⟩ := missed _ past h
    rw [same, current h]
  | calling past only current =>
    refine .calling (Nat.le_trans past grows) only fun h => ?_
    obtain ⟨h, same⟩ := missed _ past h
    rw [same, mappings, current h]
  | parked past current =>
    refine .parked (Nat.le_trans past grows) fun h => ?_
    obtain ⟨h, same⟩ := missed _ past h
    rw [same, mappings, current h]

theorem Pass.write (pass : Pass s owed port todo) (c : StoreChange) :
    Pass { s with store := s.store.write c } (owed + s.store.owes c) port todo := by
  have generation : (s.store.write c).generation = s.store.generation := by cases c <;> rfl
  refine pass.later (Nat.le_of_eq generation.symm) rfl fun seen _ h => ?_
  obtain ⟨now, none⟩ := h
  obtain ⟨none, owes⟩ := Nat.add_eq_zero_iff.1 none
  exact ⟨⟨generation.symm.trans now, none⟩, Store.redirects_write owes⟩

theorem Pass.tell (pass : Pass s (owed + 1) port todo) : Pass { s with store := s.store.bump } owed port todo := by
  refine pass.later (Nat.le_succ _) rfl fun seen past h => ?_
  exact absurd h.1.symm (Nat.ne_of_lt (Nat.lt_succ_of_le past))

theorem onCancel_eq_finish {a : Action} {r : Reaction} (h : onCancel a = some r) : ∃ o, r = .finish o := by
  cases a <;> cases h <;> exact ⟨_, rfl⟩

/-- A unit in a plain script does the first action, or has ended. -/
theorem unitStep_script {a : Action} {rest : Script} {turn : UnitTurn}
    (h : s.supervisor.progress? u = some (.running (.script (a :: rest)))) (m : s.unitStep u turn = some s') :
    (∃ e, s'.supervisor.progress? u = some (.ended e)) ∨
      ∃ s₁ r, s.perform u a = some (s₁, r) ∧
        s' = s₁.onSupervisor (·.setProgress u ((Work.script (a :: rest)).resume r)) := by
  have running : s.supervisor.isRunning u = true := by simp [Supervisor.isRunning, h]
  cases unitStep_cases m with
  | proceed here performed =>
    cases here.symm.trans h
    exact .inr ⟨_, _, performed, rfl⟩
  | cancel here asked =>
    cases here.symm.trans h
    obtain ⟨o, rfl⟩ := onCancel_eq_finish asked
    exact .inl ⟨_, Supervisor.progress?_setProgress running _⟩
  | abandon here left =>
    cases here.symm.trans h
    cases left

/-- A call goes on as calls that come to the same table. -/
theorem perform_call {a : Action} (call : a.isCall = true) {s₁ : System} {r : Reaction}
    (performed : s.perform u a = some (s₁, r)) :
    s₁.supervisor = s.supervisor ∧ s₁.store = s.store ∧ ∃ more, r = .goOn more ∧ (∀ b ∈ more, b.isCall = true) ∧
      more.foldl Action.edit s₁.redirector.mappings = a.edit s.redirector.mappings := by
  cases a with
  | redirect op =>
    cases performed
    exact ⟨rfl, rfl, [.redirecting op], rfl, by simp [Action.isCall], rfl⟩
  | redirecting op =>
    obtain ⟨_, performed⟩ := Option.ite_none_right_eq_some.1 performed
    cases performed
    exact ⟨rfl, rfl, [.applying _], rfl, by simp [Action.isCall], rfl⟩
  | applying es =>
    cases es with
    | nil =>
      cases performed
      exact ⟨rfl, rfl, [], rfl, by simp, rfl⟩
    | cons e es =>
      cases performed
      refine ⟨rfl, rfl, [.applying es], rfl, by simp [Action.isCall], ?_⟩
      exact congrArg (es.foldl Mappings.apply) (s.redirector.mappings_apply e)
  | _ => cases call

theorem Pass.perform (pass : Pass s owed port todo) {a : Action} {rest : Script} (first : todo = a :: rest)
    (running : s.supervisor.isRunning u = true) {s₁ : System} {r : Reaction}
    (performed : s.perform u a = some (s₁, r)) :
    s₁.supervisor.isRunning u = true ∧ ∃ more, r = .goOn more ∧ Pass s₁ owed port (more ++ rest) := by
  cases pass with
  | start =>
    cases first
    cases performed
    exact ⟨running, _, rfl, .marked (Nat.le_refl _)⟩
  | marked past =>
    cases first
    cases performed
    exact ⟨running, _, rfl, .read past fun _ => rfl⟩
  | read past current =>
    cases first
    obtain ⟨_, performed⟩ := Option.ite_none_right_eq_some.1 performed
    cases performed
    refine ⟨running, _, rfl, .calling past (fun a ha => ?_) fun h => ?_⟩
    · obtain ⟨op, _, rfl⟩ := List.mem_map.1 ha
      rfl
    · rw [List.foldl_map]
      exact (Mappings.performAll_between _ _).trans (current h)
  | @calling seen calls past only current =>
    cases calls with
    | nil =>
      cases first
      cases performed
      exact ⟨Supervisor.isRunning_markReady running, _, rfl, .parked past current⟩
    | cons c calls =>
      cases first
      obtain ⟨call, others⟩ := List.forall_mem_cons.1 only
      obtain ⟨supervisor, store, more, rfl, calls', edit⟩ := perform_call call performed
      have goesOn : Pass s₁ owed port (more ++ calls ++ [.ready, .awaitChange seen port]) := by
        refine .calling (store ▸ past) (fun b hb => (List.mem_append.1 hb).elim (calls' b) (others b)) fun h => ?_
        rw [Unmissed, store] at h
        rw [List.foldl_append, edit, store]
        exact current h
      rw [List.append_assoc] at goesOn
      exact ⟨supervisor ▸ running, more, rfl, goesOn⟩
  | parked past current =>
    cases first
    obtain ⟨_, performed⟩ := Option.ite_none_right_eq_some.1 performed
    cases performed
    exact ⟨running, _, rfl, .start⟩

theorem Pass.exists_cons (pass : Pass s owed port todo) : ∃ a rest, todo = a :: rest := by
  cases pass with
  | @calling _ calls => cases calls <;> exact ⟨_, _, rfl⟩
  | _ => exact ⟨_, _, rfl⟩

theorem Pass.turn (pass : Pass s owed port todo) {turn : UnitTurn}
    (h : s.supervisor.progress? u = some (.running (.script todo))) (m : s.unitStep u turn = some s') :
    (∃ e, s'.supervisor.progress? u = some (.ended e)) ∨
      ∃ todo', s'.supervisor.progress? u = some (.running (.script todo')) ∧ Pass s' owed port todo' := by
  have running : s.supervisor.isRunning u = true := by simp [Supervisor.isRunning, h]
  obtain ⟨a, rest, rfl⟩ := pass.exists_cons
  rcases unitStep_script h m with ended | ⟨s₁, r, performed, rfl⟩
  · exact .inl ended
  · obtain ⟨running, more, rfl, pass⟩ := pass.perform rfl running performed
    refine .inr ⟨more ++ rest, Supervisor.progress?_setProgress running _, ?_⟩
    exact pass.later (Nat.le_refl _) rfl fun _ _ h => ⟨h, rfl⟩

theorem Following.pass (h : Following u port s owed) :
    (∃ e, s.supervisor.progress? u = some (.ended e)) ∨
      ∃ todo, s.supervisor.progress? u = some (.running (.script todo)) ∧ Pass s owed port todo := by
  induction h with
  | start h => exact .inr ⟨_, h, .start⟩
  | turn _ m ih =>
    rcases ih with ⟨e, ended⟩ | ⟨todo, unit, pass⟩
    · rw [unitStep, ended] at m
      cases m
    · exact pass.turn unit m
  | write _ c ih => exact ih.imp_right fun ⟨todo, unit, pass⟩ => ⟨todo, unit, pass.write c⟩
  | tell _ ih => exact ih.imp_right fun ⟨todo, unit, pass⟩ => ⟨todo, unit, pass.tell⟩
  | aside _ unit tables generation mappings ih =>
    rw [unit]
    refine ih.imp_right fun ⟨todo, unit, pass⟩ => ⟨todo, unit, ?_⟩
    refine pass.later (Nat.le_of_eq generation.symm) mappings fun seen _ h => ⟨⟨generation ▸ h.1, h.2⟩, ?_⟩
    rw [Store.redirects, Store.allTables, tables]
    rfl

theorem follows_redirects (h : Following u port s 0)
    (parked : s.supervisor.progress? u = some (.running (.script [.awaitChange s.store.generation port])))
    (a : Address) (p : UInt16) :
    s.redirector.mappings.find? a = some p ↔
      p = port ∧ ∃ r ∈ s.store.redirects, r.proto = a.proto ∧ Ipv4.ofText? r.ip = some a.ip := by
  obtain ⟨e, ended⟩ | ⟨todo, unit, pass⟩ := h.pass
  · cases parked.symm.trans ended
  · cases parked.symm.trans unit
    have current : s.redirector.mappings = wantedMappings s.store.redirects port := by
      generalize script : [Action.awaitChange s.store.generation port] = todo at pass
      cases pass with
      | @calling _ calls => cases calls <;> simp at script
      | parked _ current =>
        cases script
        exact current ⟨rfl, rfl⟩
      | _ => cases script
    rw [current]
    exact find?_wantedMappings _ _ _ _

/-! ### A change in the middle of a pass -/

inductive Move where
  | turn (turn : UnitTurn)
  | write (c : StoreChange)
  | tell

def move? (u : UnitId) : System × Nat → Move → Option (System × Nat)
  | (s, owed), .turn turn => (s.unitStep u turn).map (·, owed)
  | (s, owed), .write c => some ({ s with store := s.store.write c }, owed + s.store.owes c)
  | (s, owed + 1), .tell => some ({ s with store := s.store.bump }, owed)
  | (_, 0), .tell => none

theorem Following.moves (h : Following u port s owed) {moves : List Move}
    (m : moves.foldlM (move? u) (s, owed) = some (s', owed')) : Following u port s' owed' := by
  refine kept_of_foldlM (P := fun x => Following u port x.1 x.2) (fun {x _ move} first h => ?_) m h
  obtain ⟨s, owed⟩ := x
  cases move with
  | turn turn =>
    obtain ⟨r, step, made⟩ := Option.map_eq_some_iff.1 first
    cases made
    exact h.turn step
  | write c =>
    cases first
    exact h.write c
  | tell =>
    cases owed with
    | zero => cases first
    | succ owed =>
      cases first
      exact h.tell

/-- The generation that a waiting unit has seen, and the port it serves. -/
def awaiting? : Option Progress → Option (Nat × UInt16)
  | some (.running (.script [.awaitChange seen port])) => some (seen, port)
  | _ => none

theorem awaiting?_eq_some {p : Option Progress} {seen : Nat} (h : awaiting? p = some (seen, port)) :
    p = some (.running (.script [.awaitChange seen port])) := by
  unfold awaiting? at h
  split at h
  · cases h
    rfl
  · cases h

/-- One route stored, and a mapping left over from before. -/
def leftover : System where
  supervisor := { tasks := [{ worker := default, work := .running (.script [.follow 15000]) }] }
  store := ({} : Store).update { name := "t", routes := [{ ip := "10.0.0.1" }] }
  redirector := { chain := "SLIPWAY", mappings := Dictionary.ofList [(⟨.udp, ⟨10, 0, 0, 9⟩⟩, 1)] }

/-- Another table is written when the routes have been read, and told of when the first call has been made. -/
def midPass : List Move :=
  List.replicate 2 (.turn .proceed) ++ .write (.put { name := "u", routes := [{ ip := "10.0.0.2", proto := .udp }] }) ::
    List.replicate 6 (.turn .proceed) ++ .tell :: List.replicate 16 (.turn .proceed)

theorem follows_redirects_midPass :
    ∃ s, Following ⟨0, none⟩ 15000 s 0 ∧
      s.supervisor.progress? ⟨0, none⟩ = some (.running (.script [.awaitChange s.store.generation 15000])) ∧
      s.redirector.mappings.entries = [(⟨.tcp, ⟨10, 0, 0, 1⟩⟩, 15000), (⟨.udp, ⟨10, 0, 0, 2⟩⟩, 15000)] ∧
      ∀ a p, s.redirector.mappings.find? a = some p ↔
        p = 15000 ∧ ∃ r ∈ s.store.redirects, r.proto = a.proto ∧ Ipv4.ofText? r.ip = some a.ip := by
  have ran : (midPass.foldlM (move? ⟨0, none⟩) (leftover, 0)).any (fun (s, owed) =>
      owed = 0 ∧ awaiting? (s.supervisor.progress? ⟨0, none⟩) = some (s.store.generation, 15000) ∧
        s.redirector.mappings.entries = [(⟨.tcp, ⟨10, 0, 0, 1⟩⟩, 15000), (⟨.udp, ⟨10, 0, 0, 2⟩⟩, 15000)]) = true := by
    decide +kernel
  obtain ⟨⟨s, owed⟩, made, h⟩ := (Option.any_eq_true _ _).1 ran
  obtain ⟨rfl, parked, entries⟩ := of_decide_eq_true h
  have following := (Following.start rfl).moves made
  have parked := awaiting?_eq_some parked
  exact ⟨s, following, parked, entries, follows_redirects following parked⟩

end System

end Switchyard
