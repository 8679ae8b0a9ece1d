import Switchyard.Text.Utf8

/-!
Percent encoding in paths.
-/
namespace Switchyard.Http

def hexByte? (b : UInt8) : Option UInt8 :=
  if 48 ≤ b && b ≤ 57 then some (b - 48)
  else if 97 ≤ b && b ≤ 102 then some (b - 87)
  else if 65 ≤ b && b ≤ 70 then some (b - 55)
  else none

/-- A percent sign without two hexadecimal digits behind it stands for itself. -/
def percentDecode : List UInt8 → List UInt8
  | 37 :: h :: l :: r =>
    match hexByte? h, hexByte? l with
    | some h, some l => (h * 16 + l) :: percentDecode r
    | _, _ => 37 :: percentDecode (h :: l :: r)
  | b :: r => b :: percentDecode r
  | [] => []

/-- `none` if the bytes are no text. -/
def decodeSegment (s : String) : Option String := Text.ofBytes? (percentDecode s.toUTF8.toList)

end Switchyard.Http
