import Switchyard.Json.Printer
import Switchyard.Json.Reader

/-!
Literals: what is written for a text is read as that text, whatever characters it is made of.
-/
namespace Switchyard.Json

variable {c : Char} {done : List Char} {rest : Input} {n d : Nat}

/-- Written characters as input. -/
def given (cs : List Char) : Input := cs.map some

@[simp] theorem given_nil : given [] = [] := rfl

@[simp] theorem given_cons (c : Char) (cs : List Char) : given (c :: cs) = some c :: given cs := rfl

@[simp] theorem given_append (cs ds : List Char) : given (cs ++ ds) = given cs ++ given ds := List.map_append ..

/-! ### Code units -/

theorem hexValue_digitChar (h : d < 16) : hexValue (some d.digitChar) = some d := by
  have all : ∀ d < 16, hexValue (some d.digitChar) = some d := by decide
  exact all d h

theorem utf8Size_digitChar (h : d < 16) : d.digitChar.utf8Size = 1 := by
  have all : ∀ d < 16, d.digitChar.utf8Size = 1 := by decide
  exact all d h

theorem not_shortOfFour_codeUnit (n : Nat) (rest : Input) : shortOfFour (given (codeUnit n) ++ rest) = false := by
  have one (m : Nat) : (m % 16).digitChar.utf8Size = 1 := utf8Size_digitChar (Nat.mod_lt m (by omega))
  simp [codeUnit, shortOfFour, byteCount, one]

/-- Below the surrogates a code unit is a character. -/
theorem literalFrom_codeUnit (h : n < 0xD800) :
    literalFrom (.code none 3 0) done true (given (codeUnit n) ++ rest) =
      literalFrom .plain (Char.ofNat n :: done) true rest := by
  have digit (m : Nat) : hexValue (some (m % 16).digitChar) = some (m % 16) :=
    hexValue_digitChar (Nat.mod_lt m (by omega))
  have value : (((n / 4096) % 16 * 16 + (n / 256) % 16) * 16 + (n / 16) % 16) * 16 + n % 16 = n := by omega
  have low : isLowSurrogate n = false := by
    rw [isLowSurrogate, Bool.and_eq_false_iff]
    exact .inl (decide_eq_false (by omega))
  have high : isHighSurrogate n = false := by
    rw [isHighSurrogate, Bool.and_eq_false_iff]
    exact .inl (decide_eq_false (by omega))
  simp [codeUnit, literalFrom, digit, value, low, high]

/-! ### Characters -/

theorem literalFrom_escapeChar (c : Char) (done : List Char) (rest : Input) :
    literalFrom .plain done true (given (escapeChar c) ++ rest) = literalFrom .plain (c :: done) true rest := by
  unfold escapeChar
  split
  case h_8 noQuote noBackslash _ _ _ _ _ =>
    split
    next control =>
      have short : shortOfFour (given (codeUnit c.toNat) ++ rest) = false := not_shortOfFour_codeUnit _ _
      have unit : literalFrom (.code none 3 0) done true (given (codeUnit c.toNat) ++ rest) =
          literalFrom .plain (c :: done) true rest := by
        rw [literalFrom_codeUnit (by omega), Char.ofNat_toNat]
      rw [given_cons, given_cons, List.cons_append, List.cons_append, ← unit]
      simp [literalFrom, unescape, short]
    next graphic =>
      rw [given_cons, given_nil, List.cons_append, List.nil_append, literalFrom, if_neg noQuote, if_neg noBackslash,
        if_neg graphic]
  all_goals rfl

theorem literalFrom_flatMap (cs done : List Char) (rest : Input) :
    literalFrom .plain done true (given (cs.flatMap escapeChar ++ ['"']) ++ rest) =
      .ok (String.ofList (done.reverse ++ cs), rest) := by
  induction cs generalizing done with
  | nil => simp [literalFrom]
  | cons c cs ih =>
    rw [List.flatMap_cons, List.append_assoc, given_append, List.append_assoc, literalFrom_escapeChar, ih]
    simp

/-- Behind its opening quote. -/
theorem literalFrom_literal (s : String) (rest : Input) :
    literalFrom .plain [] true (given (s.toList.flatMap escapeChar ++ ['"']) ++ rest) = .ok (s, rest) := by
  rw [literalFrom_flatMap, List.reverse_nil, List.nil_append, String.ofList_toList]

end Switchyard.Json
