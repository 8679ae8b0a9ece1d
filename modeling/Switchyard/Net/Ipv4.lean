/-!
IPv4 addresses in dotted form. Reading accepts exactly what writing produces.
-/
namespace Switchyard

structure Ipv4 where
  a : UInt8
  b : UInt8
  c : UInt8
  d : UInt8
  deriving DecidableEq, Repr, Inhabited

namespace Ipv4

/-- The address as a number; order follows it. -/
def value (i : Ipv4) : Nat := ((i.a.toNat * 256 + i.b.toNat) * 256 + i.c.toNat) * 256 + i.d.toNat

def text (i : Ipv4) : String :=
  toString i.a.toNat ++ "." ++ toString i.b.toNat ++ "." ++ toString i.c.toNat ++ "." ++ toString i.d.toNat

def decimal (ds : List Char) : Nat := ds.foldl (fun n c => n * 10 + (c.toNat - 48)) 0

/-- One to three digits with nothing before them, no needless zero, below 256. -/
def readOctet (s : List Char) : Option (UInt8 × List Char) :=
  let ds := s.takeWhile Char.isDigit
  if ds.isEmpty || 3 < ds.length || (ds.head? = some '0' && ds.length ≠ 1) || 256 ≤ decimal ds then none
  else some (UInt8.ofNat (decimal ds), s.dropWhile Char.isDigit)

def readDot : List Char → Option (List Char)
  | '.' :: r => some r
  | _ => none

/-- An address and what stands behind it. -/
def read (s : List Char) : Option (Ipv4 × List Char) := do
  let (a, s) ← readOctet s
  let (b, s) ← readOctet (← readDot s)
  let (c, s) ← readOctet (← readDot s)
  let (d, s) ← readOctet (← readDot s)
  return (⟨a, b, c, d⟩, s)

def ofText? (s : String) : Option Ipv4 :=
  match read s.toList with
  | some (i, []) => some i
  | _ => none

end Ipv4

end Switchyard
