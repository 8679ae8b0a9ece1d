import Switchyard.Text.Hidden

/-!
Quoted texts: what a log or an error shows of a value, with nothing invisible left in it.
-/
namespace Switchyard.Text

/-- Lower case, no leading zero. -/
def hexDigits (n : Nat) : List Char := Nat.toDigits 16 n

def quoteChar (c : Char) : List Char :=
  match c with
  | '"' => ['\\', '"']
  | '\\' => ['\\', '\\']
  | '\t' => ['\\', 't']
  | '\n' => ['\\', 'n']
  | '\r' => ['\\', 'r']
  | '\x00' => ['\\', '0']
  | c => if isHidden c then ['\\', 'u', '\x7b'] ++ hexDigits c.toNat ++ ['\x7d'] else [c]

def quoted (s : String) : String := String.ofList ('"' :: s.toList.flatMap quoteChar ++ ['"'])

/-- Items between square brackets, a comma and a space between two of them. -/
def listed (items : List String) : String := "[" ++ ", ".intercalate items ++ "]"

end Switchyard.Text
