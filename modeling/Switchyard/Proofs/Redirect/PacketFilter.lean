import Switchyard.Proofs.Redirect.Arguments
import Switchyard.Redirect.Redirector

/-!
The `nat` table of the packet filter, as far as the redirector's commands reach. Main statement: what one command makes
of the rules in the redirector's own chain.
-/
namespace Switchyard

/-- The target a rule jumps to. -/
def Rule.target? : Rule → Option String
  | "-j" :: target :: _ => some target
  | _ :: rest => target? rest
  | [] => none

/-- The rules of each chain, first to last. -/
structure NatTable where
  chains : Dictionary String (List Rule) := .empty
  deriving Inhabited

namespace NatTable

/-- Chains that the packet filter has of itself. -/
def builtIn : List String := ["PREROUTING", "INPUT", "OUTPUT", "POSTROUTING"]

def rules (k : NatTable) (chain : String) : Option (List Rule) := k.chains.find? chain

/-- The rules of a chain that redirect. A chain that does not exist has none. -/
def redirects (k : NatTable) (chain : String) : List Rule :=
  ((k.rules chain).getD []).filter (·.target? = some "REDIRECT")

/-- Whether some rule jumps to the chain. -/
def referenced (k : NatTable) (chain : String) : Bool :=
  k.chains.values.any (·.any (·.target? = some chain))

/-- A change of the rules of one chain, refused if there is no such chain or the change cannot be made. -/
def change? (k : NatTable) (chain : String) (f : List Rule → Option (List Rule)) : Option NatTable :=
  ((k.rules chain).bind f).map fun rs => ⟨k.chains.insert chain rs⟩

/-- `none` if the arguments are refused. -/
def run? (k : NatTable) : List String → Option NatTable
  | ["-N", chain] => if k.chains.contains chain then none else some ⟨k.chains.insert chain []⟩
  | ["-F", chain] => k.change? chain fun _ => some []
  | ["-X", chain] =>
    if k.rules chain = some [] ∧ chain ∉ builtIn ∧ k.referenced chain = false then some ⟨k.chains.erase chain⟩ else none
  | "-A" :: chain :: rule => k.change? chain fun rs => some (rs ++ [rule])
  | "-I" :: chain :: "1" :: rule => k.change? chain fun rs => some (rule :: rs)
  | "-D" :: chain :: rule => k.change? chain fun rs => if rule ∈ rs then some (rs.erase rule) else none
  | _ => none

/-- Arguments that are refused change nothing. -/
def exec (k : NatTable) (arguments : List String) : NatTable := (k.run? arguments).getD k

theorem rules_change? (k : NatTable) (chain : String) (f : List Rule → Option (List Rule)) (other : String) :
    ((k.change? chain f).getD k).rules other =
      if other = chain then (k.rules chain).map fun rs => (f rs).getD rs else k.rules other := by
  unfold change?
  cases found : k.rules chain with
  | none =>
    split
    case isTrue same => exact same ▸ found
    case isFalse => rfl
  | some rs =>
    rw [Option.bind_some, Option.map_some]
    cases changed : f rs with
    | none =>
      split
      case isTrue same => exact same ▸ found
      case isFalse => rfl
    | some rs' =>
      split
      case isTrue same => exact same ▸ Dictionary.find?_insert_self ..
      case isFalse differ => exact Dictionary.find?_insert_of_ne _ _ differ

theorem rules_create (k : NatTable) (chain : String) :
    (k.exec ["-N", chain]).rules chain = some ((k.rules chain).getD []) := by
  rw [exec, run?]
  split
  case isTrue present =>
    obtain ⟨rs, found⟩ := Option.isSome_iff_exists.1 present
    rw [Option.getD_none, rules, found, Option.getD_some]
  case isFalse absent =>
    have missing : k.rules chain = none := Option.not_isSome_iff_eq_none.1 absent
    rw [Option.getD_some, missing]
    exact Dictionary.find?_insert_self ..

end NatTable

namespace Command

open NatTable

/-- What a command other than `destroy` makes of the rules in its chain. -/
def edit : Command → Option (List Rule) → Option (List Rule)
  | .unhook _, rs | .hook _, rs | .destroy, rs => rs
  | .create, rs => some (rs.getD [])
  | .empty, rs => rs.map fun _ => []
  | .exempt, rs => rs.map (· ++ [Rule.loopback])
  | .append dest port, rs => rs.map (· ++ [Rule.redirect dest port])
  | .remove dest port, rs => rs.map (·.erase (Rule.redirect dest port))

variable {chain : String} (word : Text.IsWord chain) (own : chain ∉ NatTable.builtIn)

include word own

theorem rules_exec (k : NatTable) {c : Command} (keeps : c ≠ .destroy) :
    (k.exec (c.arguments chain)).rules chain = c.edit (k.rules chain) := by
  have elsewhere : ∀ h : Hook, chain ≠ h.text := fun h same => own (same ▸ by cases h <;> decide)
  rw [arguments_eq word]
  cases c with
  | create => exact rules_create k chain
  | destroy => exact absurd rfl keeps
  | unhook h =>
    refine (rules_change? k h.text _ chain).trans ?_
    rw [if_neg (elsewhere h), edit]
  | hook h =>
    refine (rules_change? k h.text _ chain).trans ?_
    rw [if_neg (elsewhere h), edit]
  | empty =>
    refine (rules_change? k chain _ chain).trans ?_
    rw [if_pos rfl]
    rfl
  | exempt =>
    refine (rules_change? k chain _ chain).trans ?_
    rw [if_pos rfl]
    rfl
  | append dest port =>
    refine (rules_change? k chain _ chain).trans ?_
    rw [if_pos rfl]
    rfl
  | remove dest port =>
    refine (rules_change? k chain _ chain).trans ?_
    rw [if_pos rfl, edit]
    congr 1
    funext rs
    split
    case isTrue => rfl
    case isFalse absent => exact (List.erase_of_not_mem absent).symm

end Command

end Switchyard
