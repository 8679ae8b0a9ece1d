import Switchyard.Proofs.Net.Ipv4
import Switchyard.Redirect.Command

/-!
The arguments of a packet filter command, one by one. Main statement: a chain whose name is a word is named by one
argument, and the others are those written here.
-/
namespace Switchyard

theorem Protocol.text_inj {p q : Protocol} : p.text = q.text ↔ p = q := by
  cases p <;> cases q <;> decide

/-- What stands in a chain: matches, a target, and the options of both. -/
abbrev Rule := List String

namespace Rule

def jump (chain : String) : Rule := ["-j", chain]

/-- Loopback TCP goes back to the calling chain. -/
def loopback : Rule := ["-j", "RETURN", "--dest", "127.0.0.1/32", "-p", "tcp"]

def redirect (dest : Address) (port : UInt16) : Rule :=
  ["-j", "REDIRECT", "--dest", dest.ip.text ++ "/32", "-p", dest.proto.text, "--to-ports", toString port.toNat,
    "-m", "ttl", "!", "--ttl", toString Command.bypassTtl]

theorem redirect_inj {a b : Address} {p q : UInt16} : redirect a p = redirect b q ↔ a = b ∧ p = q := by
  refine ⟨fun same => ?_, fun ⟨ha, hp⟩ => ha ▸ hp ▸ rfl⟩
  simp only [redirect, List.cons.injEq, String.append_left_inj, Ipv4.text_inj, Protocol.text_inj, Text.toString_inj,
    UInt16.toNat_inj, true_and, and_true] at same
  obtain ⟨ip, proto, port⟩ := same
  have address : a = b := by
    cases a
    cases b
    rw [Address.mk.injEq]
    exact ⟨proto, ip⟩
  exact ⟨address, port⟩

end Rule

namespace Command

open Text

/-- The arguments for a chain whose name is a word. -/
def argumentsFor (chain : String) : Command → List String
  | .unhook h => "-D" :: h.text :: Rule.jump chain
  | .hook h => "-I" :: h.text :: "1" :: Rule.jump chain
  | .create => ["-N", chain]
  | .empty => ["-F", chain]
  | .destroy => ["-X", chain]
  | .exempt => "-A" :: chain :: Rule.loopback
  | .append dest port => "-A" :: chain :: Rule.redirect dest port
  | .remove dest port => "-D" :: chain :: Rule.redirect dest port

/-- The arguments before the name of the chain. -/
def leading : Command → List String
  | .unhook h => ["-D", h.text, "-j"]
  | .hook h => ["-I", h.text, "1", "-j"]
  | .create => ["-N"]
  | .empty => ["-F"]
  | .destroy => ["-X"]
  | .exempt | .append .. => ["-A"]
  | .remove .. => ["-D"]

/-- The arguments after it. -/
def trailing : Command → Rule
  | .exempt => Rule.loopback
  | .append dest port | .remove dest port => Rule.redirect dest port
  | _ => []

theorem argumentsFor_eq_append (chain : String) (c : Command) :
    c.argumentsFor chain = c.leading ++ [chain] ++ c.trailing := by
  cases c <;> rfl

theorem line_of_trailing_eq_nil (chain : String) {c : Command} (h : c.trailing = []) :
    c.line chain = " ".intercalate c.leading ++ " " ++ chain := by
  apply String.toList_inj.1
  cases c with
  | exempt => cases h
  | append => cases h
  | remove => cases h
  | _ => simp [line, leading, String.intercalate_cons_cons, String.toList_append]

theorem line_of_trailing_ne_nil (chain : String) {c : Command} (h : c.trailing ≠ []) :
    c.line chain = " ".intercalate c.leading ++ " " ++ chain ++ " " ++ " ".intercalate c.trailing := by
  apply String.toList_inj.1
  cases c with
  | exempt | append | remove =>
    simp [line, leading, trailing, redirectLine, Rule.loopback, Rule.redirect, String.intercalate_cons_cons,
      String.toList_append]
  | _ => exact absurd rfl h

theorem isWord_redirect (dest : Address) (port : UInt16) : ∀ w ∈ Rule.redirect dest port, IsWord w := by
  have mask : ∀ c ∈ "/32".toList, isBlank c = false := (by decide : IsWord "/32").2
  have dest' : IsWord (dest.ip.text ++ "/32") := (Ipv4.isWord_text dest.ip).append mask
  have proto : IsWord dest.proto.text := by cases dest.proto <;> decide
  have port' : IsWord (toString port.toNat) := isWord_toString _
  have ttl : IsWord (toString bypassTtl) := isWord_toString _
  have fixed : ∀ w ∈ ["-j", "REDIRECT", "--dest", "-p", "--to-ports", "-m", "ttl", "!", "--ttl"], IsWord w := by decide
  simp only [List.forall_mem_cons, List.not_mem_nil, false_imp_iff, implies_true, and_true] at fixed
  simp only [Rule.redirect, List.forall_mem_cons, List.not_mem_nil, false_imp_iff, implies_true, and_true, dest', proto,
    port', ttl, fixed]

theorem isWord_leading (c : Command) : ∀ w ∈ c.leading, IsWord w := by
  cases c with
  | unhook h | hook h => cases h <;> decide
  | _ => simp only [leading]; decide

theorem isWord_trailing (c : Command) : ∀ w ∈ c.trailing, IsWord w := by
  cases c with
  | exempt => decide
  | append dest port | remove dest port => exact isWord_redirect dest port
  | _ => exact List.forall_mem_nil _

/-- A name of several words is named by as many arguments. -/
theorem arguments_eq_append (chain : String) (c : Command) :
    c.arguments chain = c.leading ++ words chain ++ c.trailing := by
  have lead : words (" ".intercalate c.leading) = c.leading := words_intercalate (isWord_leading c)
  have trail : words (" ".intercalate c.trailing) = c.trailing := words_intercalate (isWord_trailing c)
  rw [arguments]
  by_cases bare : c.trailing = []
  · rw [line_of_trailing_eq_nil chain bare, words_append_blank, lead, bare, List.append_nil]
  · rw [line_of_trailing_ne_nil chain bare, words_append_blank, words_append_blank, lead, trail]

theorem arguments_eq {chain : String} (h : IsWord chain) (c : Command) : c.arguments chain = c.argumentsFor chain := by
  rw [arguments_eq_append, argumentsFor_eq_append, words_eq_singleton h]

end Command

end Switchyard
