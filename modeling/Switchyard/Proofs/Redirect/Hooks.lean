import Switchyard.Proofs.Redirect.Chain

/-!
The jumps from the hooks to the redirector's chain. Main statement: between an `enable` and the next `disable` there is
one from each hook, and loopback is let through before anything is redirected; between a `disable` and the next `enable`
there is none, nor the chain.
-/
namespace Switchyard

/-- Each hook holds one jump to the chain or none, and nothing else outside the chain refers to it. -/
structure NatTable.Hookable (chain : String) (k : NatTable) : Prop where
  hooks : ∀ h : Hook, ∃ rs, k.rules h.text = some rs ∧ rs.countP (·.target? = some chain) ≤ 1
  references : ∀ {name rs}, name ≠ chain → k.rules name = some rs →
    ∀ r ∈ rs, r.target? = some chain → r = Rule.jump chain ∧ ∃ h : Hook, name = h.text

/-- Each hook holds so many jumps to the chain. -/
def NatTable.Hooked (chain : String) (k : NatTable) (n : Nat) : Prop :=
  ∀ h : Hook, ∃ rs, k.rules h.text = some rs ∧ rs.countP (·.target? = some chain) = n

theorem Hook.text_ne {chain : String} (own : chain ∉ NatTable.builtIn) (h : Hook) : h.text ≠ chain := by
  rintro rfl
  exact own (by cases h <;> decide)

namespace Command

/-- What a command makes of the rules in a chain other than the redirector's. -/
def rehook (chain name : String) (rs : List Rule) : Command → List Rule
  | .unhook h => if name = h.text then rs.erase (Rule.jump chain) else rs
  | .hook h => if name = h.text then Rule.jump chain :: rs else rs
  | _ => rs

theorem rules_exec_of_ne {chain name : String} (word : Text.IsWord chain) (k : NatTable) (c : Command)
    (other : name ≠ chain) :
    (k.exec (c.arguments chain)).rules name = (k.rules name).map fun rs => c.rehook chain name rs := by
  have kept (f : List Rule → Option (List Rule)) : ((k.change? chain f).getD k).rules name = k.rules name := by
    rw [NatTable.rules_change?, if_neg other]
  rw [arguments_eq word]
  cases c with
  | unhook h =>
    refine (NatTable.rules_change? k h.text _ name).trans ?_
    split
    case isTrue same =>
      rw [same]
      congr 1
      funext rs
      rw [rehook, if_pos rfl]
      split
      case isTrue => rfl
      case isFalse absent => exact (List.erase_of_not_mem absent).symm
    case isFalse differ => simp [rehook, differ]
  | hook h =>
    refine (NatTable.rules_change? k h.text _ name).trans ?_
    split
    case isTrue same => simp [same, rehook]
    case isFalse differ => simp [rehook, differ]
  | create =>
    have added := Dictionary.find?_insert_of_ne k.chains [] other
    refine Eq.trans ?_ Option.map_id'.symm
    rw [argumentsFor, NatTable.exec, NatTable.run?]
    split
    case isTrue => rfl
    case isFalse => exact added
  | destroy =>
    have erased := Dictionary.find?_erase_of_ne k.chains other
    refine Eq.trans ?_ Option.map_id'.symm
    rw [argumentsFor, NatTable.exec, NatTable.run?]
    split
    case isTrue => exact erased
    case isFalse => rfl
  | empty | exempt | append | remove => exact (kept _).trans Option.map_id'.symm

/-- What is taken down is an empty chain that nothing refers to. -/
theorem rules_exec_destroy {chain : String} (word : Text.IsWord chain) (own : chain ∉ NatTable.builtIn) {k : NatTable}
    (empty : ∀ rs, k.rules chain = some rs → rs = []) (unreferenced : k.referenced chain = false) :
    (k.exec (destroy.arguments chain)).rules chain = none := by
  rw [arguments_eq word, argumentsFor, NatTable.exec, NatTable.run?]
  split
  case isTrue => exact Dictionary.find?_erase_self ..
  case isFalse refused =>
    refine Option.eq_none_iff_forall_ne_some.2 fun rs found => refused ⟨?_, own, unreferenced⟩
    exact empty rs found ▸ found

end Command

/-- What a part of a call makes of the rules in a chain other than the redirector's. -/
def Effect.rehook (chain name : String) (rs : List Rule) : Effect → List Rule
  | .issue c => c.rehook chain name rs
  | _ => rs

/-- What a call makes of the rules in a hook. -/
def Operation.rehook (chain : String) (rs : List Rule) : Operation → List Rule
  | .enable => Rule.jump chain :: rs.erase (Rule.jump chain)
  | .disable => rs.erase (Rule.jump chain)
  | _ => rs

/-- How many jumps there are in a hook after a call, given how many there were. -/
def Operation.jumps (n : Nat) : Operation → Nat
  | .enable => 1
  | .disable => 0
  | _ => n

namespace Operation

variable {chain name : String} {m : Mappings} {op : Operation}

theorem rehook_removal (dest : Address) (rs : List Rule) :
    (effects.removal m dest).foldl (Effect.rehook chain name) rs = rs := by
  rw [effects.removal]
  split <;> rfl

theorem rehook_hook (h : Hook) (rs : List Rule) :
    (op.effects m).foldl (Effect.rehook chain h.text) rs = op.rehook chain rs := by
  cases op with
  | enable | disable => cases h <;> rfl
  | clear dest => exact rehook_removal dest rs
  | forward dest port =>
    rw [effects, List.foldl_append, rehook_removal]
    rfl

/-- No call but `enable` makes the chain. -/
theorem edit_none (kept : op ≠ .enable) : (op.effects m).foldl Effect.edit none = none := by
  have removal (dest : Address) : (effects.removal m dest).foldl Effect.edit none = none := by
    rw [effects.removal]
    split <;> rfl
  cases op with
  | enable => exact absurd rfl kept
  | disable => rfl
  | clear dest => exact removal dest
  | forward dest port =>
    rw [effects, List.foldl_append, removal]
    rfl

theorem rehook_elsewhere (elsewhere : ∀ h : Hook, name ≠ h.text) (rs : List Rule) :
    (op.effects m).foldl (Effect.rehook chain name) rs = rs := by
  cases op with
  | enable | disable => simp [effects, Effect.rehook, Command.rehook, elsewhere]
  | clear dest => exact rehook_removal dest rs
  | forward dest port =>
    rw [effects, List.foldl_append, rehook_removal]
    rfl

end Operation

namespace NatTable

variable {chain : String} {k : NatTable} {rs : List Rule}

theorem target?_jump (chain : String) : (Rule.jump chain).target? = some chain := rfl

theorem countP_erase_jump (plain : ∀ r ∈ rs, r.target? = some chain → r = Rule.jump chain)
    (few : rs.countP (·.target? = some chain) ≤ 1) :
    (rs.erase (Rule.jump chain)).countP (·.target? = some chain) = 0 := by
  by_cases present : Rule.jump chain ∈ rs
  · rw [List.countP_erase, if_pos ⟨present, decide_eq_true (target?_jump chain)⟩]
    omega
  · rw [List.erase_of_not_mem present]
    refine List.countP_eq_zero.2 fun r hr refers => present ?_
    exact plain r hr (of_decide_eq_true refers) ▸ hr

theorem referenced_eq_false (h : ∀ {name rs}, k.rules name = some rs → ∀ r ∈ rs, r.target? ≠ some chain) :
    k.referenced chain = false := by
  simp only [referenced, Dictionary.values, List.any_eq_false, List.mem_map, decide_eq_true_eq, List.any_eq_true,
    forall_exists_index, and_imp, not_exists, not_and]
  rintro _ ⟨name, rs⟩ entry rfl r hr
  exact h (Dictionary.mem_entries_iff.1 entry) r hr

variable {op : Operation}

theorem mem_rehook {r : Rule} (h : r ∈ op.rehook chain rs) : r = Rule.jump chain ∨ r ∈ rs := by
  cases op with
  | enable => exact (List.mem_cons.1 h).imp_right List.mem_of_mem_erase
  | disable => exact .inr (List.mem_of_mem_erase h)
  | forward | clear => exact .inr h

theorem countP_rehook (plain : ∀ r ∈ rs, r.target? = some chain → r = Rule.jump chain)
    (few : rs.countP (·.target? = some chain) ≤ 1) :
    (op.rehook chain rs).countP (·.target? = some chain) = op.jumps (rs.countP (·.target? = some chain)) := by
  have none := countP_erase_jump plain few
  cases op with
  | enable => simp [Operation.rehook, Operation.jumps, target?_jump, none]
  | disable => exact none
  | forward | clear => rfl

namespace Hookable

variable (hookable : k.Hookable chain)
include hookable

theorem filter_eq (one : k.Hooked chain 1) (h : Hook) (other : h.text ≠ chain) :
    ∃ rs, k.rules h.text = some rs ∧ rs.filter (·.target? = some chain) = [Rule.jump chain] := by
  obtain ⟨rs, found, count⟩ := one h
  rw [List.countP_eq_length_filter] at count
  refine ⟨rs, found, ?_⟩
  obtain ⟨r, only⟩ := List.length_eq_one_iff.1 count
  have mem : r ∈ rs.filter (·.target? = some chain) := only ▸ List.mem_singleton_self r
  obtain ⟨hr, refers⟩ := List.mem_filter.1 mem
  rw [only, (hookable.references other found r hr (of_decide_eq_true refers)).1]

theorem unreferenced (none : k.Hooked chain 0) (empty : ∀ rs, k.rules chain = some rs → rs = []) :
    k.referenced chain = false := by
  refine referenced_eq_false fun {name rs} found r hr refers => ?_
  by_cases same : name = chain
  · rw [same] at found
    rw [empty rs found] at hr
    cases hr
  · obtain ⟨-, h, rfl⟩ := hookable.references same found r hr refers
    obtain ⟨rs', found', count⟩ := none h
    obtain rfl : rs' = rs := Option.some.inj (found'.symm.trans found)
    exact List.countP_eq_zero.1 count r hr (decide_eq_true refers)

end Hookable

end NatTable

namespace Redirector

open NatTable

section step

variable {chain : String} (word : Text.IsWord chain) (own : chain ∉ builtIn) {start : NatTable}
variable {t : Redirector} (named : t.chain = chain) {name : String} {op : Operation} {n : Nat}

include word named

theorem rules_foldl_of_ne (other : name ≠ chain) (es : List Effect) :
    ((es.foldl apply t).packetFilter start).rules name =
      ((t.packetFilter start).rules name).map fun rs => es.foldl (Effect.rehook chain name) rs := by
  induction es generalizing t with
  | nil => exact Option.map_id'.symm
  | cons e es ih =>
    have first : ((t.apply e).packetFilter start).rules name =
        ((t.packetFilter start).rules name).map fun rs => Effect.rehook chain name rs e := by
      cases e with
      | issue c => exact named ▸ Command.rules_exec_of_ne (named ▸ word) _ c (named ▸ other)
      | _ => exact Option.map_id'.symm
    rw [List.foldl_cons, ih ((chain_apply t e).trans named), first, Option.map_map]
    rfl

theorem rules_perform_hook (h : Hook) (other : h.text ≠ chain) :
    ((t.perform op).packetFilter start).rules h.text =
      ((t.packetFilter start).rules h.text).map fun rs => op.rehook chain rs := by
  simp only [perform, rules_foldl_of_ne word named other, Operation.rehook_hook]

theorem rules_perform_elsewhere (elsewhere : ∀ h : Hook, name ≠ h.text) (other : name ≠ chain) :
    ((t.perform op).packetFilter start).rules name = (t.packetFilter start).rules name := by
  simp only [perform, rules_foldl_of_ne word named other, Operation.rehook_elsewhere elsewhere, Option.map_id']

variable (hookable : (t.packetFilter start).Hookable chain)
include own hookable

/-- What a call makes of the number of jumps in a hook. -/
theorem countP_perform (op : Operation) (h : Hook) :
    ∃ rs rs', (t.packetFilter start).rules h.text = some rs ∧
      ((t.perform op).packetFilter start).rules h.text = some rs' ∧ (∀ r ∈ rs', r = Rule.jump chain ∨ r ∈ rs) ∧
      rs'.countP (·.target? = some chain) = op.jumps (rs.countP (·.target? = some chain)) := by
  have other := h.text_ne own
  obtain ⟨rs, found, few⟩ := hookable.hooks h
  refine ⟨rs, op.rehook chain rs, found, ?_, fun r => mem_rehook, countP_rehook (fun r hr refers => ?_) few⟩
  · rw [rules_perform_hook word named h other, found, Option.map_some]
  · exact (hookable.references other found r hr refers).1

theorem hookable_perform (op : Operation) : ((t.perform op).packetFilter start).Hookable chain := by
  constructor
  case hooks =>
    intro h
    obtain ⟨rs, rs', found, after, -, count⟩ := countP_perform word own named hookable op h
    obtain ⟨rs₀, found₀, few⟩ := hookable.hooks h
    obtain rfl : rs₀ = rs := Option.some.inj (found₀.symm.trans found)
    refine ⟨rs', after, ?_⟩
    rw [count]
    cases op with
    | enable => exact Nat.le_refl 1
    | disable => exact Nat.zero_le 1
    | forward | clear => exact few
  case references =>
    intro name rs' other after r hr refers
    by_cases hook : ∃ h : Hook, name = h.text
    · obtain ⟨h, rfl⟩ := hook
      obtain ⟨rs, rs'', found, after', mem, -⟩ := countP_perform word own named hookable op h
      obtain rfl : rs'' = rs' := Option.some.inj (after'.symm.trans after)
      refine ⟨?_, h, rfl⟩
      rcases mem r hr with rfl | hr
      · rfl
      · exact (hookable.references other found r hr refers).1
    · rw [rules_perform_elsewhere word named (not_exists.1 hook) other] at after
      exact hookable.references other after r hr refers

/-- A call that brings hooks to so many jumps, or finds them so and leaves them. -/
theorem hooked_perform {op : Operation} {n : Nat}
    (brings : (∀ i, op.jumps i = n) ∨ (t.packetFilter start).Hooked chain n ∧ op.jumps n = n) :
    ((t.perform op).packetFilter start).Hooked chain n := by
  intro h
  obtain ⟨rs, rs', found, after, -, count⟩ := countP_perform word own named hookable op h
  refine ⟨rs', after, count.trans ?_⟩
  rcases brings with always | ⟨hooked, leaves⟩
  · exact always _
  · obtain ⟨rs₀, found₀, before⟩ := hooked h
    obtain rfl : rs₀ = rs := Option.some.inj (found₀.symm.trans found)
    rw [before, leaves]

theorem rules_disable : (t.perform .disable).rules start = none := by
  subst named
  -- the table just before the chain is removed differs from the one behind it in the chain only
  let cut : List Effect := [.issue (.unhook .output), .issue (.unhook .prerouting), .issue .empty]
  let k := (cut.foldl apply t).packetFilter start
  have removed : (t.perform .disable).packetFilter start = k.exec (Command.destroy.arguments t.chain) := rfl
  have same {name : String} (other : name ≠ t.chain) :
      ((t.perform .disable).packetFilter start).rules name = k.rules name := by
    rw [removed, Command.rules_exec_of_ne word k .destroy other]
    exact Option.map_id'
  have hookable' := hookable_perform word own rfl hookable .disable
  have unhooked : ((t.perform .disable).packetFilter start).Hooked t.chain 0 :=
    hooked_perform word own rfl hookable (.inl fun _ => rfl)
  have emptied : ∀ rs, k.rules t.chain = some rs → rs = [] := by
    have flushed : (cut.foldl apply t).rules start = (t.rules start).map fun _ => [] :=
      rules_foldl word own start (by decide)
    intro rs found
    obtain ⟨_, -, rfl⟩ := Option.map_eq_some_iff.1 (flushed.symm.trans found)
    rfl
  have unreferenced : k.referenced t.chain = false := by
    refine Hookable.unreferenced ⟨fun h => ?_, fun {name rs} other found => ?_⟩ (fun h => ?_) emptied
    · exact same (h.text_ne own) ▸ hookable'.hooks h
    · exact hookable'.references other ((same other).trans found)
    · exact same (h.text_ne own) ▸ unhooked h
  have named : (t.perform .disable).chain = t.chain := rfl
  rw [rules, named, removed]
  exact Command.rules_exec_destroy word own emptied unreferenced

end step

section run

/-- Behind the last `enable` there is neither an `enable` nor a `disable`. -/
theorem exists_last_enable (before : List Operation) {after : List Operation} (up : .disable ∉ after) :
    ∃ before' after', .enable ∉ after' ∧ .disable ∉ after' ∧
      before ++ Operation.enable :: after = before' ++ .enable :: after' := by
  induction after using List.reverseRecOn with
  | nil => exact ⟨before, [], List.not_mem_nil, List.not_mem_nil, rfl⟩
  | append_singleton after op ih =>
    by_cases again : op = .enable
    · exact ⟨before ++ .enable :: after, [], List.not_mem_nil, List.not_mem_nil, by simp [again]⟩
    · rw [List.mem_append, not_or, List.mem_singleton] at up
      obtain ⟨before', after', last, up', split⟩ := ih up.1
      refine ⟨before', after' ++ [op], ?_, ?_, ?_⟩
      · simpa [last] using Ne.symm again
      · simpa [up'] using up.2
      · rw [← List.cons_append, ← List.append_assoc, split, List.append_assoc, List.cons_append]

variable {chain : String} (word : Text.IsWord chain) (own : chain ∉ builtIn) {start : NatTable}
variable (hookable : start.Hookable chain) {before after ops : List Operation}

include word own hookable

theorem hookable_performAll (ops : List Operation) :
    ((({ chain } : Redirector).performAll ops).packetFilter start).Hookable chain := by
  induction ops using List.reverseRecOn with
  | nil => exact hookable
  | append_singleton ops op ih =>
    rw [performAll_snoc]
    exact hookable_perform word own (chain_performAll ops _) ih op

/-- From a call that brings the hooks to so many jumps, through calls that leave them. -/
theorem hooked_performAll {n : Nat} {op : Operation} (brings : ∀ i, op.jumps i = n)
    (leave : ∀ op' ∈ after, op'.jumps n = n) (before : List Operation) :
    ((({ chain } : Redirector).performAll (before ++ op :: after)).packetFilter start).Hooked chain n := by
  have kept := hookable_performAll word own hookable
  induction after using List.reverseRecOn with
  | nil =>
    rw [performAll_snoc]
    exact hooked_perform word own (chain_performAll before _) (kept before) (.inl brings)
  | append_singleton after op' ih =>
    have hooked := ih fun op' hop => leave op' (List.mem_append_left _ hop)
    have left := leave op' (List.mem_append_right _ (List.mem_singleton_self _))
    rw [← List.cons_append, ← List.append_assoc, performAll_snoc]
    exact hooked_perform word own (chain_performAll _ _) (kept _) (.inr ⟨hooked, left⟩)

theorem rules_after_disable (down : .enable ∉ after) (before : List Operation) :
    (({ chain } : Redirector).performAll (before ++ .disable :: after)).rules start = none := by
  have disabled (ops : List Operation) :
      ((({ chain } : Redirector).performAll ops).perform .disable).rules start = none :=
    rules_disable word own (chain_performAll ops _) (hookable_performAll word own hookable ops)
  induction after using List.reverseRecOn with
  | nil =>
    rw [performAll_snoc]
    exact disabled before
  | append_singleton after op ih =>
    rw [List.mem_append, not_or, List.mem_singleton] at down
    have ih := ih down.1
    rw [← List.cons_append, ← List.append_assoc, performAll_snoc]
    by_cases again : op = .disable
    · rw [again]
      exact disabled (before ++ .disable :: after)
    · have named := chain_performAll (before ++ .disable :: after) { chain }
      rw [rules_perform (named.symm ▸ word) (named.symm ▸ own) start again, ih, Operation.edit_none (Ne.symm down.2)]

theorem hook_discipline (before after : List Operation) :
    (.disable ∉ after →
      let k := (({ chain } : Redirector).performAll (before ++ .enable :: after)).packetFilter start
      (∀ h : Hook, ∃ rs, k.rules h.text = some rs ∧ rs.filter (·.target? = some chain) = [Rule.jump chain]) ∧
        ∃ rs, k.rules chain = some (Rule.loopback :: rs) ∧ ∀ r ∈ rs, ∃ a port, r = Rule.redirect a port) ∧
    (.enable ∉ after →
      let k := (({ chain } : Redirector).performAll (before ++ .disable :: after)).packetFilter start
      k.referenced chain = false ∧ k.rules chain = none) := by
  constructor
  · intro up k
    have brings : ∀ i, Operation.enable.jumps i = 1 := fun _ => rfl
    have leave : ∀ op ∈ after, op.jumps 1 = 1 := by
      intro op hop
      cases op with
      | disable => exact absurd hop up
      | enable | forward | clear => rfl
    have hooked : k.Hooked chain 1 := hooked_performAll word own hookable brings leave before
    have kept : k.Hookable chain := hookable_performAll word own hookable _
    refine ⟨fun h => kept.filter_eq hooked h (h.text_ne own), ?_⟩
    -- the chain carries what was forwarded since the last `enable`
    obtain ⟨before', after', last, up', split⟩ := exists_last_enable before up
    obtain ⟨rs, found, perm⟩ := carries_performAll word own start before' last up'
    have named : (({ chain } : Redirector).performAll (before ++ .enable :: after)).chain = chain :=
      chain_performAll _ _
    rw [← split, rules, named] at found
    refine ⟨rs, found, fun r hr => ?_⟩
    obtain ⟨e, -, rfl⟩ := List.mem_map.1 (perm.subset hr)
    exact ⟨e.1, e.2, rfl⟩
  · intro down k
    have brings : ∀ i, Operation.disable.jumps i = 0 := fun _ => rfl
    have leave : ∀ op ∈ after, op.jumps 0 = 0 := by
      intro op hop
      cases op with
      | enable => exact absurd hop down
      | disable | forward | clear => rfl
    have hooked : k.Hooked chain 0 := hooked_performAll word own hookable brings leave before
    have named : (({ chain } : Redirector).performAll (before ++ .disable :: after)).chain = chain :=
      chain_performAll _ _
    have gone : k.rules chain = none := by
      have gone := rules_after_disable word own hookable down before
      rwa [rules, named] at gone
    have kept : k.Hookable chain := hookable_performAll word own hookable _
    refine ⟨kept.unreferenced hooked fun rs found => ?_, gone⟩
    rw [gone] at found
    cases found

end run

/-- One of two jumps and a rule in the chain are left of an earlier run. -/
def crashed : NatTable where
  chains := Dictionary.ofList [("INPUT", []), ("OUTPUT", [["-p", "tcp", "-j", "ACCEPT"], Rule.jump "SLIPWAY"]),
    ("POSTROUTING", []), ("PREROUTING", [Rule.jump "DOCKER"]), ("DOCKER", []), ("SLIPWAY", [["-j", "DROP"]])]

theorem hook_discipline_crashed :
    let web : Address := ⟨.tcp, ⟨10, 0, 0, 1⟩⟩
    let up := (({ chain := "SLIPWAY" } : Redirector).performAll
      ([.forward web 1, .enable] ++ .enable :: [.forward web 2])).packetFilter crashed
    let down := (({ chain := "SLIPWAY" } : Redirector).performAll
      ([.forward web 1, .enable] ++ .disable :: [.forward web 2])).packetFilter crashed
    crashed.Hookable "SLIPWAY" ∧
      (∀ h : Hook, ∃ rs, up.rules h.text = some rs ∧ rs.filter (·.target? = some "SLIPWAY") = [Rule.jump "SLIPWAY"]) ∧
      (∃ rs, up.rules "SLIPWAY" = some (Rule.loopback :: rs) ∧ ∀ r ∈ rs, ∃ a port, r = Rule.redirect a port) ∧
      down.referenced "SLIPWAY" = false ∧ down.rules "SLIPWAY" = none := by
  intro web up down
  have hookable : crashed.Hookable "SLIPWAY" := by
    constructor
    case hooks =>
      intro h
      cases h with
      | output => exact ⟨_, (by decide +kernel : crashed.rules "OUTPUT" =
          some [["-p", "tcp", "-j", "ACCEPT"], Rule.jump "SLIPWAY"]), by decide⟩
      | prerouting => exact ⟨_, (by decide +kernel : crashed.rules "PREROUTING" = some [Rule.jump "DOCKER"]), by decide⟩
    case references =>
      have listed : ∀ e ∈ crashed.chains.entries, e.1 ≠ "SLIPWAY" → ∀ r ∈ e.2, r.target? = some "SLIPWAY" →
          r = Rule.jump "SLIPWAY" ∧ e.1 = "OUTPUT" := by decide +kernel
      intro name rs other found r hr refers
      obtain ⟨jump, hook⟩ := listed (name, rs) (Dictionary.mem_entries_iff.2 found) other r hr refers
      exact ⟨jump, .output, hook⟩
  obtain ⟨enabled, disabled⟩ := hook_discipline (by decide) (by decide) hookable [.forward web 1, .enable]
    [.forward web 2]
  obtain ⟨hooked, bypass⟩ := enabled (by decide)
  exact ⟨hookable, hooked, bypass, disabled (by decide)⟩

end Redirector

end Switchyard
