import Switchyard.Net.Ipv6

/-!
An address with a port: `1.2.3.4:80`, `[::1]:80`, `[fe80::1%2]:80`.
-/
namespace Switchyard

inductive SocketAddress where
  | v4 (ip : Ipv4) (port : UInt16)
  | v6 (ip : Ipv6) (scope : UInt32) (port : UInt16)
  deriving DecidableEq, Repr, Inhabited

namespace SocketAddress

/-- Digits of a number below `limit`; leading zeros are welcome. -/
def readNumber (limit : Nat) (s : List Char) : Option (Nat × List Char) :=
  let ds := s.takeWhile Char.isDigit
  if ds.isEmpty || limit ≤ Ipv4.decimal ds then none else some (Ipv4.decimal ds, s.dropWhile Char.isDigit)

def readPort : List Char → Option (UInt16 × List Char)
  | ':' :: r => (readNumber 65536 r).map fun (n, r) => (UInt16.ofNat n, r)
  | _ => none

def readScope (s : List Char) : UInt32 × List Char :=
  match s with
  | '%' :: r =>
    match readNumber 4294967296 r with
    | some (n, r) => (UInt32.ofNat n, r)
    | none => (0, s)
  | _ => (0, s)

def readV4 (s : List Char) : Option (SocketAddress × List Char) := do
  let (ip, s) ← Ipv4.read s
  let (port, s) ← readPort s
  return (.v4 ip port, s)

def readV6 : List Char → Option (SocketAddress × List Char)
  | '[' :: s => do
    let (ip, s) ← Ipv6.read s
    let (scope, s) := readScope s
    match s with
    | ']' :: s => do
      let (port, s) ← readPort s
      return (.v6 ip scope port, s)
    | _ => none
  | _ => none

def ofText? (s : String) : Option SocketAddress :=
  match (readV4 s.toList).or (readV6 s.toList) with
  | some (a, []) => some a
  | _ => none

def text : SocketAddress → String
  | .v4 ip port => ip.text ++ ":" ++ toString port.toNat
  | .v6 ip scope port =>
    "[" ++ ip.text ++ (if scope = 0 then "" else "%" ++ toString scope.toNat) ++ "]:" ++ toString port.toNat

end SocketAddress

end Switchyard
