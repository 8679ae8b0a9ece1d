import Switchyard.Proofs.Redirect.Mappings
import Switchyard.Proofs.Redirect.PacketFilter

/-!
The redirector's chain against its table. Main statement: the chain redirects what was forwarded since the last
`enable`, and so what the table says only if every entry of the table was forwarded since. `enable` empties the chain
and keeps the table.
-/
namespace Switchyard

/-- What a part of a call, other than the removal of the chain, makes of the rules in the chain. -/
def Effect.edit (rules : Option (List Rule)) : Effect → Option (List Rule)
  | .issue c => c.edit rules
  | _ => rules

namespace Redirector

/-- What all commands issued so far have made of the packet filter. -/
def packetFilter (t : Redirector) (start : NatTable) : NatTable :=
  t.issued.foldr (fun c k => k.exec (c.1.arguments t.chain)) start

theorem chain_apply (t : Redirector) (e : Effect) : (t.apply e).chain = t.chain := by
  cases e <;> rfl

theorem chain_performAll (ops : List Operation) (t : Redirector) : (t.performAll ops).chain = t.chain := by
  have foldl : ∀ (es : List Effect) (t : Redirector), (es.foldl apply t).chain = t.chain := by
    intro es
    induction es with
    | nil => exact fun _ => rfl
    | cons e es ih => exact fun t => (ih _).trans (chain_apply t e)
  induction ops generalizing t with
  | nil => rfl
  | cons op ops ih => exact (ih _).trans (foldl _ t)

theorem performAll_snoc (t : Redirector) (ops : List Operation) (op : Operation) :
    t.performAll (ops ++ [op]) = (t.performAll ops).perform op := List.foldl_concat ..

/-- The rules of the redirector's own chain. -/
def rules (t : Redirector) (start : NatTable) : Option (List Rule) := (t.packetFilter start).rules t.chain

variable {t : Redirector} (word : Text.IsWord t.chain) (own : t.chain ∉ NatTable.builtIn) (start : NatTable)

include word own

theorem rules_apply {e : Effect} (keeps : e ≠ .issue .destroy) :
    (t.apply e).rules start = e.edit (t.rules start) := by
  cases e with
  | issue c => exact Command.rules_exec word own _ fun same => keeps (congrArg _ same)
  | _ => rfl

theorem rules_foldl {es : List Effect} (keeps : .issue .destroy ∉ es) :
    (es.foldl apply t).rules start = es.foldl Effect.edit (t.rules start) := by
  induction es generalizing t with
  | nil => rfl
  | cons e es ih =>
    obtain ⟨first, rest⟩ := List.ne_and_not_mem_of_not_mem_cons keeps
    rw [List.foldl_cons, List.foldl_cons, ih (chain_apply t e ▸ word) (chain_apply t e ▸ own) rest,
      rules_apply word own start first.symm]

theorem rules_perform {op : Operation} (up : op ≠ .disable) :
    (t.perform op).rules start = (op.effects t.mappings).foldl Effect.edit (t.rules start) := by
  have removal : ∀ dest, .issue .destroy ∉ Operation.effects.removal t.mappings dest := by
    intro dest
    unfold Operation.effects.removal
    split <;> simp
  refine rules_foldl word own start ?_
  cases op with
  | disable => exact absurd rfl up
  | enable => simp [Operation.effects]
  | clear dest => exact removal dest
  | forward dest port => simp [Operation.effects, removal dest]

end Redirector

/-- The rules redirect the addresses of the dictionary, each by one rule, behind the one for loopback. -/
def Carries (rules : Option (List Rule)) (m : Mappings) : Prop :=
  ∃ rs, rules = some (Rule.loopback :: rs) ∧ rs.Perm (m.entries.map fun e => Rule.redirect e.1 e.2)

namespace Carries

variable {rules : Option (List Rule)} {m installed : Mappings} {dest : Address}

theorem enable (rules : Option (List Rule)) (m : Mappings) :
    Carries ((Operation.enable.effects m).foldl Effect.edit rules) .empty := ⟨[], rfl, .nil⟩

/-- Removing the rule of an address that is installed, or of one that is not. -/
theorem removal (h : Carries rules installed) (within : ∀ a p, installed.find? a = some p → m.find? a = some p)
    (dest : Address) :
    Carries ((Operation.effects.removal m dest).foldl Effect.edit rules) (installed.erase dest) := by
  obtain ⟨rs, rfl, perm⟩ := h
  unfold Operation.effects.removal
  split
  case h_2 unknown =>
    have absent : installed.find? dest = none := Option.eq_none_iff_forall_ne_some.2 fun p hp => by
      simp [within _ _ hp] at unknown
    refine ⟨rs, rfl, ?_⟩
    rw [Dictionary.erase_of_find?_eq_none absent]
    exact perm
  case h_1 port known =>
    have other : Rule.loopback ≠ Rule.redirect dest port := by simp [Rule.loopback, Rule.redirect]
    refine ⟨rs.erase (Rule.redirect dest port), ?_, ?_⟩
    · simp [Effect.edit, Command.edit, other]
    · cases held : installed.find? dest with
      | none =>
        have absent : Rule.redirect dest port ∉ rs := fun present => by
          obtain ⟨⟨a, p⟩, entry, same⟩ := List.mem_map.1 (perm.subset present)
          obtain ⟨rfl, rfl⟩ := Rule.redirect_inj.1 same
          simp [Dictionary.mem_entries_iff.1 entry] at held
        rw [List.erase_of_not_mem absent, Dictionary.erase_of_find?_eq_none held]
        exact perm
      | some p =>
        have same : p = port := Option.some.inj ((within _ _ held).symm.trans known)
        have split := (Dictionary.entries_perm_cons_erase (same ▸ held)).map fun e => Rule.redirect e.1 e.2
        have out := (perm.trans split).erase (Rule.redirect dest port)
        rw [List.map_cons, List.erase_cons_head] at out
        exact out

theorem append (h : Carries rules (installed.erase dest)) (port : UInt16) :
    Carries ((Command.append dest port).edit rules) (installed.insert dest port) := by
  obtain ⟨rs, rfl, perm⟩ := h
  refine ⟨rs ++ [Rule.redirect dest port], rfl, ?_⟩
  have entry := (Dictionary.entries_insert_perm installed dest port).map fun e => Rule.redirect e.1 e.2
  rw [List.map_cons] at entry
  exact (List.perm_append_singleton _ _).trans ((perm.cons _).trans entry.symm)

theorem perform (h : Carries rules installed) (within : ∀ a p, installed.find? a = some p → m.find? a = some p)
    {op : Operation} (up : op ≠ .disable) (kept : op ≠ .enable) :
    Carries ((op.effects m).foldl Effect.edit rules) (installed.perform op) := by
  cases op with
  | enable => exact absurd rfl kept
  | disable => exact absurd rfl up
  | clear dest =>
    rw [Mappings.perform_clear]
    exact h.removal within dest
  | forward dest port =>
    rw [Mappings.perform_forward, Operation.effects, List.foldl_append]
    exact (h.removal within dest).append port

theorem redirects {k : NatTable} {chain : String} (h : Carries (k.rules chain) m) :
    (k.redirects chain).Perm (m.entries.map fun e => Rule.redirect e.1 e.2) := by
  obtain ⟨rs, found, perm⟩ := h
  have target : ∀ r ∈ rs, r.target? = some "REDIRECT" := by
    intro r hr
    obtain ⟨e, -, rfl⟩ := List.mem_map.1 (perm.subset hr)
    rfl
  have exempt : Rule.loopback.target? = some "RETURN" := rfl
  have behind : rs.filter (·.target? = some "REDIRECT") = rs :=
    List.filter_eq_self.2 fun r hr => decide_eq_true (target r hr)
  rw [NatTable.redirects, found, Option.getD_some, List.filter_cons_of_neg (by simp [exempt]), behind]
  exact perm

end Carries

namespace Redirector

/-- The chain carries what the calls since the last `enable` would make of an empty table. -/
theorem carries_performAll {chain : String} (word : Text.IsWord chain) (own : chain ∉ NatTable.builtIn)
    (start : NatTable) (before : List Operation) {after : List Operation} (last : .enable ∉ after)
    (up : .disable ∉ after) :
    Carries ((({ chain } : Redirector).performAll (before ++ .enable :: after)).rules start)
      (Mappings.performAll .empty after) := by
  have named : ∀ ops, (({ chain } : Redirector).performAll ops).chain = chain := fun ops => chain_performAll ops _
  induction after using List.reverseRecOn with
  | nil =>
    rw [performAll_snoc, rules_perform ((named _).symm ▸ word) ((named _).symm ▸ own) start (by simp)]
    exact Carries.enable _ _
  | append_singleton after op ih =>
    rw [List.mem_append, not_or, List.mem_singleton] at last up
    have ih := ih last.1 up.1
    rw [← List.cons_append, ← List.append_assoc, performAll_snoc,
      rules_perform ((named _).symm ▸ word) ((named _).symm ▸ own) start (Ne.symm up.2), Mappings.performAll_snoc]
    refine ih.perform (fun a p held => ?_) (Ne.symm up.2) (Ne.symm last.2)
    -- what is installed stands in the table too, whatever the table held at the `enable`
    have forwarded : ∃ port, .forward a port ∈ after := by
      by_contra never
      rw [Mappings.find?_performAll_empty fun port h => never ⟨port, h⟩] at held
      exact nomatch held
    rw [mappings_performAll, Mappings.performAll_append]
    exact (Mappings.find?_performAll_of_forwarded _ _ forwarded).trans held

/-- Every sequence of calls with an `enable` and no `disable` behind it is split here at its last `enable`. -/
theorem redirects_after_enable {chain : String} (word : Text.IsWord chain) (own : chain ∉ NatTable.builtIn)
    (start : NatTable) (before : List Operation) {after : List Operation} (last : .enable ∉ after)
    (up : .disable ∉ after) :
    let t := ({ chain } : Redirector).performAll (before ++ .enable :: after)
    let redirects := (t.packetFilter start).redirects chain
    redirects.Perm ((Mappings.performAll .empty after).entries.map fun e => Rule.redirect e.1 e.2) ∧
      (redirects.Perm (t.mappings.entries.map fun e => Rule.redirect e.1 e.2) ↔
        ∀ a ∈ t.mappings.keys, ∃ port, .forward a port ∈ after) := by
  intro t redirects
  have named : t.chain = chain := chain_performAll _ _
  have carried := carries_performAll word own start before last up
  have installed : redirects.Perm ((Mappings.performAll .empty after).entries.map fun e => Rule.redirect e.1 e.2) :=
    Carries.redirects (named ▸ carried)
  have table : t.mappings = (Mappings.performAll .empty before).performAll after := by
    rw [mappings_performAll, Mappings.performAll_append]
    rfl
  have injective : Function.Injective fun e : Address × UInt16 => Rule.redirect e.1 e.2 := fun e e' same =>
    Prod.ext_iff.2 (Rule.redirect_inj.1 same)
  refine ⟨installed, ?_⟩
  rw [table, ← Mappings.performAll_eq_iff]
  constructor
  · intro all
    exact (Dictionary.eq_of_entries_perm ((List.map_perm_map_iff injective).1 (installed.symm.trans all))).symm
  · intro same
    rw [same]
    exact installed

/-- A forward made before the `enable` leaves the entry without a rule; one made behind it has both. -/
theorem redirects_after_enable_split :
    let t := ({ chain := "SLIPWAY" } : Redirector).performAll
      ([.forward ⟨.tcp, ⟨10, 0, 0, 1⟩⟩ 1234] ++ .enable :: [.forward ⟨.udp, ⟨10, 0, 0, 2⟩⟩ 1234])
    t.mappings.entries = [(⟨.tcp, ⟨10, 0, 0, 1⟩⟩, 1234), (⟨.udp, ⟨10, 0, 0, 2⟩⟩, 1234)] ∧
      (t.packetFilter {}).redirects "SLIPWAY" = [Rule.redirect ⟨.udp, ⟨10, 0, 0, 2⟩⟩ 1234] := by
  intro t
  have word : Text.IsWord "SLIPWAY" := by decide
  have last : .enable ∉ [Operation.forward ⟨.udp, ⟨10, 0, 0, 2⟩⟩ 1234] := by decide
  obtain ⟨installed, -⟩ := redirects_after_enable word (by decide) {} [.forward ⟨.tcp, ⟨10, 0, 0, 1⟩⟩ 1234] last
    (by decide)
  exact ⟨by decide +kernel, List.perm_singleton.1 installed⟩

/-- The table says that the address is redirected, and nothing in the chain does it. -/
theorem enable_twice_drops :
    let t := ({ chain := "SLIPWAY" } : Redirector).performAll
      [.enable, .forward ⟨.tcp, ⟨10, 0, 0, 1⟩⟩ 1234, .enable]
    t.mappings.entries = [(⟨.tcp, ⟨10, 0, 0, 1⟩⟩, 1234)] ∧ (t.packetFilter {}).redirects "SLIPWAY" = [] := by
  intro t
  have word : Text.IsWord "SLIPWAY" := by decide
  have carried := carries_performAll word (by decide) {} [.enable, .forward ⟨.tcp, ⟨10, 0, 0, 1⟩⟩ 1234]
    List.not_mem_nil List.not_mem_nil
  exact ⟨by decide +kernel, List.perm_nil.1 (Carries.redirects carried)⟩

end Redirector
end Switchyard
