import Switchyard.Net.Ipv4

/-!
IPv6 addresses: eight groups of sixteen bits, hexadecimal between colons, one run of zero groups left out.
-/
namespace Switchyard

structure Ipv6 where
  groups : List UInt16
  deriving DecidableEq, Repr, Inhabited

namespace Ipv6

def hexText (g : UInt16) : List Char := Nat.toDigits 16 g.toNat

def joinGroups (gs : List UInt16) : List Char := List.intercalate [':'] (gs.map hexText)

/-- Start and length of the zero runs that begin at place `i` or later. -/
def zeroRuns (i : Nat) : List UInt16 → List (Nat × Nat)
  | [] => []
  | g :: gs => if g = 0 then (i, 1 + (gs.takeWhile (· = 0)).length) :: zeroRuns (i + 1) gs else zeroRuns (i + 1) gs

/-- The first of the longest zero runs. -/
def longestZeros (gs : List UInt16) : Nat × Nat :=
  (zeroRuns 0 gs).foldl (fun best r => if best.2 < r.2 then r else best) (0, 0)

def embedded (hi lo : UInt16) : Ipv4 :=
  ⟨(hi >>> 8).toUInt8, hi.toUInt8, (lo >>> 8).toUInt8, lo.toUInt8⟩

/-- An IPv4 address mapped into IPv6 keeps its dots; two zero groups or more are left out, the longest run only. -/
def text (i : Ipv6) : String :=
  match i.groups with
  | [0, 0, 0, 0, 0, 0xFFFF, hi, lo] => "::ffff:" ++ (embedded hi lo).text
  | gs =>
    let (start, len) := longestZeros gs
    String.ofList <|
      if 1 < len then joinGroups (gs.take start) ++ [':', ':'] ++ joinGroups (gs.drop (start + len))
      else joinGroups gs

def hexDigit? (c : Char) : Option Nat :=
  if c.isDigit then some (c.toNat - 48)
  else if 'a' ≤ c && c ≤ 'f' then some (c.toNat - 87)
  else if 'A' ≤ c && c ≤ 'F' then some (c.toNat - 55)
  else none

/-- One to four hexadecimal digits. -/
def readGroup (s : List Char) : Option (UInt16 × List Char) :=
  let ds := s.takeWhile fun c => (hexDigit? c).isSome
  if ds.isEmpty || 4 < ds.length then none
  else
    some (UInt16.ofNat (ds.foldl (fun n c => n * 16 + (hexDigit? c).getD 0) 0),
      s.dropWhile fun c => (hexDigit? c).isSome)

/-- What stands behind the colon that separates a group from the one before; the first has none. -/
def behindColon (first : Bool) (s : List Char) : Option (List Char) :=
  if first then some s
  else match s with
    | ':' :: r => some r
    | _ => none

/-- As many as `room` groups, an IPv4 address counting for the last two. Says whether there was one. -/
def readGroups : Nat → Bool → List Char → List UInt16 × Bool × List Char
  | 0, _, s => ([], false, s)
  | room + 1, first, s =>
    let dotted := if room = 0 then none else (behindColon first s).bind Ipv4.read
    match dotted with
    | some (v, r) =>
      ([UInt16.ofNat (v.a.toNat * 256 + v.b.toNat), UInt16.ofNat (v.c.toNat * 256 + v.d.toNat)], true, r)
    | none =>
      match (behindColon first s).bind readGroup with
      | none => ([], false, s)
      | some (g, r) =>
        let (gs, dotted, r) := readGroups room false r
        (g :: gs, dotted, r)

def read (s : List Char) : Option (Ipv6 × List Char) :=
  let (head, dotted, r) := readGroups 8 true s
  if head.length = 8 then some (⟨head⟩, r)
  else if dotted then none
  else match r with
    | ':' :: ':' :: r =>
      let (tail, _, r) := readGroups (7 - head.length) true r
      some (⟨head ++ List.replicate (8 - head.length - tail.length) 0 ++ tail⟩, r)
    | _ => none

end Ipv6

end Switchyard
