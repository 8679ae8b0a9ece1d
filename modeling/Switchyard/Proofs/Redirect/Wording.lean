import Switchyard.Proofs.Configuration
import Switchyard.Proofs.Redirect.Ledger

/-!
The arguments of the commands on a configured chain. Main statement: under every chain name that the configuration
accepts, each call hands over the arguments meant, with the name as one of them, and no two commands have the same.
-/
namespace Switchyard

theorem Hook.text_inj {h h' : Hook} : h.text = h'.text ↔ h = h' := by
  cases h <;> cases h' <;> decide

namespace Rule

variable {chain chain' : String} {a : Address} {port : UInt16}

theorem jump_inj : jump chain = jump chain' ↔ chain = chain' := by
  simp [jump]

theorem redirect_ne_jump : redirect a port ≠ jump chain := by
  simp [redirect, jump]

theorem redirect_ne_loopback : redirect a port ≠ loopback := by
  simp [redirect, loopback]

end Rule

/-- The arguments that a call is meant to hand over, command by command, given the table at its start. -/
def Operation.meant (chain : String) (m : Mappings) : Operation → List (List String)
  | .enable =>
    [["-D", "OUTPUT", "-j", chain], ["-D", "PREROUTING", "-j", chain], ["-N", chain], ["-F", chain],
      ["-I", "OUTPUT", "1", "-j", chain], ["-I", "PREROUTING", "1", "-j", chain], "-A" :: chain :: Rule.loopback]
  | .disable => [["-D", "OUTPUT", "-j", chain], ["-D", "PREROUTING", "-j", chain], ["-F", chain], ["-X", chain]]
  | .clear dest => removal dest
  | .forward dest port => removal dest ++ ["-A" :: chain :: Rule.redirect dest port]
where
  /-- Under the port that the table knows. -/
  removal (dest : Address) : List (List String) :=
    (m.find? dest).toList.map fun port => "-D" :: chain :: Rule.redirect dest port

namespace Command

variable {chain chain' : String} {c c' : Command}

/-- Commands begin alike only with `-A` or `-D`, and there the rules behind the chain differ. -/
theorem argumentsFor_inj : c.argumentsFor chain = c'.argumentsFor chain' ↔ c = c' ∧ chain = chain' := by
  refine ⟨fun same => ?_, fun ⟨command, name⟩ => command ▸ name ▸ rfl⟩
  cases c <;> cases c' <;>
    simp_all [argumentsFor, Hook.text_inj, Rule.jump_inj, Rule.redirect_inj, Rule.redirect_ne_jump,
      Rule.redirect_ne_jump.symm, Rule.redirect_ne_loopback, Rule.redirect_ne_loopback.symm]

end Command

theorem Operation.arguments_commands {chain : String} (word : Text.IsWord chain) (m : Mappings) (op : Operation) :
    (op.commands m).map (Command.arguments chain) = op.meant chain m := by
  have named : Command.arguments chain = Command.argumentsFor chain := funext fun c => Command.arguments_eq word c
  have removed (dest : Address) : ((effects.removal m dest).filterMap Effect.command?).map
      (Command.argumentsFor chain) = meant.removal chain m dest := by
    rw [effects.removal, meant.removal]
    cases m.find? dest with
    | none => rfl
    | some port => rfl
  rw [named, commands]
  cases op with
  | enable => rfl
  | disable => rfl
  | clear dest => exact removed dest
  | forward dest port =>
    rw [effects, List.filterMap_append, List.map_append, removed]
    rfl

namespace Redirector

variable {lookup : String → Option String} {config : Configuration}

/-- Under an accepted chain name each call hands over the arguments meant; a command's are the name and what stands in
front of it and behind it. Equal arguments are those of one command on one chain. -/
theorem arguments_intact (accepted : Configuration.ofVariables lookup = .ok config) :
    (∀ (t t' : Redirector) (op : Operation), t.chain = config.chain → t.Performs [op] t' →
      t'.lines = t.lines ++ op.meant config.chain t.mappings) ∧
    (∀ c : Command, Text.words (c.line config.chain) = c.leading ++ [config.chain] ++ c.trailing) ∧
    ∀ lookup' config', Configuration.ofVariables lookup' = .ok config' → ∀ c c' : Command,
      c.arguments config.chain = c'.arguments config'.chain ↔ c = c' ∧ config.chain = config'.chain := by
  have word := Configuration.isWord_chain accepted
  refine ⟨fun t t' op named performed => ?_, fun c => ?_, fun lookup' config' accepted' c c' => ?_⟩
  · rw [performed.lines, named, Mappings.commands, Mappings.commands, List.append_nil,
      Operation.arguments_commands word]
  · have split := Command.arguments_eq word c
    rw [Command.argumentsFor_eq_append] at split
    exact split
  · rw [Command.arguments_eq word, Command.arguments_eq (Configuration.isWord_chain accepted'),
      Command.argumentsFor_inj]

/-- A chain name outside ASCII, with an option's dash in front. -/
def dashed : String → Option String
  | "SLIPWAY_CHAIN" => some "-Übergang→链"
  | _ => none

theorem arguments_intact_dashed :
    let config : Configuration := { chain := "-Übergang→链" }
    Configuration.ofVariables dashed = .ok config ∧
    (∀ (t t' : Redirector) (op : Operation), t.chain = config.chain → t.Performs [op] t' →
      t'.lines = t.lines ++ op.meant config.chain t.mappings) ∧
    (∀ c : Command, Text.words (c.line config.chain) = c.leading ++ [config.chain] ++ c.trailing) ∧
    ∀ lookup' config', Configuration.ofVariables lookup' = .ok config' → ∀ c c' : Command,
      c.arguments config.chain = c'.arguments config'.chain ↔ c = c' ∧ config.chain = config'.chain := by
  intro config
  have accepted : Configuration.ofVariables dashed = .ok config := by rfl
  exact ⟨accepted, arguments_intact accepted⟩

end Redirector

end Switchyard
