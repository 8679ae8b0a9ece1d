import Switchyard.Dictionary
import Switchyard.Net.Ipv4
import Switchyard.Route.Basic

/-!
Packet filter commands on one chain of the `nat` table.
-/
namespace Switchyard

/-- Traffic of one protocol to one address. -/
structure Address where
  proto : Protocol
  ip : Ipv4
  deriving DecidableEq, Repr, Inhabited

namespace Address

/-- TCP before UDP, then by number. -/
def rank (a : Address) : Nat := (if a.proto = .tcp then 0 else UInt32.size) + a.ip.value

instance : LT Address := ⟨fun a b => a.rank < b.rank⟩

instance : DecidableLT Address := fun a b => inferInstanceAs (Decidable (a.rank < b.rank))

def text (a : Address) : String := a.proto.text ++ "/" ++ a.ip.text

theorem rank_inj : ∀ {a b : Address}, a.rank = b.rank → a = b := by
  intro ⟨p, w, x, y, z⟩ ⟨p', w', x', y', z'⟩ h
  have lt : ∀ u : UInt8, u.toNat < 256 := fun u => u.toNat_lt
  have := lt w; have := lt x; have := lt y; have := lt z
  have := lt w'; have := lt x'; have := lt y'; have := lt z'
  have same : ∀ {u v : UInt8}, u.toNat = v.toNat → u = v := UInt8.toNat_inj.1
  simp only [rank, Ipv4.value, UInt32.size] at h
  have hp : p = p' := by
    cases p <;> cases p' <;> simp at h ⊢ <;> omega
  subst hp
  have h1 : w = w' := same (by cases p <;> simp at h <;> omega)
  have h2 : x = x' := same (by cases p <;> simp at h <;> omega)
  have h3 : y = y' := same (by cases p <;> simp at h <;> omega)
  have h4 : z = z' := same (by cases p <;> simp at h <;> omega)
  simp [h1, h2, h3, h4]

instance order : KeyOrder Address where
  trans := Nat.lt_trans
  irrefl a := Nat.lt_irrefl a.rank
  connected h h' := rank_inj (Nat.le_antisymm (Nat.not_lt.1 h') (Nat.not_lt.1 h))

end Address

/-- The built-in chains from which packets come. -/
inductive Hook where
  | output
  | prerouting
  deriving DecidableEq, Repr

def Hook.text : Hook → String
  | .output => "OUTPUT"
  | .prerouting => "PREROUTING"

inductive Command where
  /-- Remove one jump from the hook to the chain. -/
  | unhook (hook : Hook)
  /-- Put a jump to the chain first in the hook. -/
  | hook (hook : Hook)
  | create
  | empty
  | destroy
  /-- Let loopback TCP pass. -/
  | exempt
  | append (dest : Address) (port : UInt16)
  | remove (dest : Address) (port : UInt16)
  deriving DecidableEq, Repr

namespace Command

/-- Packets with this time to live are let through, so that the proxy reaches the real endpoints. -/
def bypassTtl : Nat := 42

def redirectLine (op chain : String) (dest : Address) (port : UInt16) : String :=
  op ++ " " ++ chain ++ " -j REDIRECT --dest " ++ dest.ip.text ++ "/32 -p " ++ dest.proto.text ++ " --to-ports " ++
    toString port.toNat ++ " -m ttl ! --ttl " ++ toString bypassTtl

def line (chain : String) : Command → String
  | .unhook h => "-D " ++ h.text ++ " -j " ++ chain
  | .hook h => "-I " ++ h.text ++ " 1 -j " ++ chain
  | .create => "-N " ++ chain
  | .empty => "-F " ++ chain
  | .destroy => "-X " ++ chain
  | .exempt => "-A " ++ chain ++ " -j RETURN --dest 127.0.0.1/32 -p tcp"
  | .append dest port => redirectLine "-A" chain dest port
  | .remove dest port => redirectLine "-D" chain dest port

/-- The arguments handed over: the words of the line. -/
def arguments (chain : String) (c : Command) : List String := Text.words (c.line chain)

end Command

end Switchyard
