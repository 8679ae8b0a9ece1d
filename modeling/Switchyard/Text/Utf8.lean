/-!
Bytes as characters. A byte that belongs to no character is kept as a place without one.
-/
namespace Switchyard.Text

def isContinuation (b : UInt8) : Bool := 0x80 ≤ b && b < 0xC0

def continuationBits (b : UInt8) : Nat := b.toNat - 0x80

/-- The first character of a byte list and what follows it. Only shortest forms count, and no surrogates. -/
def firstChar? : List UInt8 → Option (Char × List UInt8)
  | [] => none
  | a :: r =>
    if a < 0x80 then some (Char.ofNat a.toNat, r)
    else if 0xC2 ≤ a && a < 0xE0 then
      match r with
      | b :: r =>
        if isContinuation b then some (Char.ofNat ((a.toNat - 0xC0) * 64 + continuationBits b), r) else none
      | _ => none
    else if 0xE0 ≤ a && a < 0xF0 then
      match r with
      | b :: c :: r =>
        let n := ((a.toNat - 0xE0) * 64 + continuationBits b) * 64 + continuationBits c
        if isContinuation b && isContinuation c && 0x800 ≤ n && !(0xD800 ≤ n && n < 0xE000) then
          some (Char.ofNat n, r)
        else none
      | _ => none
    else if 0xF0 ≤ a && a < 0xF5 then
      match r with
      | b :: c :: d :: r =>
        let n := (((a.toNat - 0xF0) * 64 + continuationBits b) * 64 + continuationBits c) * 64 + continuationBits d
        if isContinuation b && isContinuation c && isContinuation d && 0x10000 ≤ n && n < 0x110000 then
          some (Char.ofNat n, r)
        else none
      | _ => none
    else none

/-- At most one place per byte. -/
def decodeFrom : Nat → List UInt8 → List (Option Char)
  | 0, _ => []
  | _ + 1, [] => []
  | fuel + 1, b :: bs =>
    match firstChar? (b :: bs) with
    | some (c, r) => some c :: decodeFrom fuel r
    | none => none :: decodeFrom fuel bs

def decodeBytes (bs : List UInt8) : List (Option Char) := decodeFrom bs.length bs

/-- `none` if some byte belongs to no character. -/
def ofBytes? (bs : List UInt8) : Option String := ((decodeBytes bs).mapM id).map String.ofList

end Switchyard.Text
