/-!
Natural numbers in decimal, read with an upper bound.
-/
namespace Switchyard.Text

inductive NaturalError where
  | empty
  | invalidDigit
  | tooLarge
  deriving DecidableEq, Repr

def NaturalError.message : NaturalError → String
  | .empty => "cannot parse integer from empty string"
  | .invalidDigit => "invalid digit found in string"
  | .tooLarge => "number too large to fit in target type"

def digit? (c : Char) : Option Nat := if c.isDigit then some (c.toNat - '0'.toNat) else none

/-- The first fault from the left decides: a digit too many is met before a bad digit behind it. -/
def readDigits (limit : Nat) (value : Nat) : List Char → Except NaturalError Nat
  | [] => .ok value
  | c :: r =>
    match digit? c with
    | none => .error .invalidDigit
    | some d => if limit ≤ value * 10 + d then .error .tooLarge else readDigits limit (value * 10 + d) r

/-- A number below `limit`; one plus sign may stand in front of the digits. -/
def readNatural (limit : Nat) (s : String) : Except NaturalError Nat :=
  match s.toList with
  | [] => .error .empty
  | '+' :: r => if r.isEmpty then .error .invalidDigit else readDigits limit 0 r
  | r => readDigits limit 0 r

end Switchyard.Text
