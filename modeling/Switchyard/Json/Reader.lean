/-!
Reading JSON into values of a known shape. The input is a list of characters in which `none` stands for a byte
that belongs to none; the first fault from the left is the one reported.
-/
namespace Switchyard.Json

/-- `malformed`: no JSON text goes on like this. `mismatched`: JSON of another shape than the one wanted.
`truncated`: the input ends too early. -/
inductive Fault where
  | malformed
  | mismatched
  | truncated
  deriving DecidableEq, Repr

abbrev Input := List (Option Char)

/-- A value and what stands behind it. -/
abbrev Reader (α : Type) := Input → Except Fault (α × Input)

def isSpace : Option Char → Bool
  | some c => c = ' ' || c = '\n' || c = '\t' || c = '\r'
  | none => false

def skipSpace (i : Input) : Input := i.dropWhile isSpace

def byteCount : Input → Nat
  | [] => 0
  | none :: r => byteCount r + 1
  | some c :: r => byteCount r + c.utf8Size

/-- Four hexadecimal digits are looked for only where four bytes are left. -/
def shortOfFour (i : Input) : Bool := byteCount (i.take 4) < 4

def hexValue : Option Char → Option Nat
  | none => none
  | some c =>
    if c.isDigit then some (c.toNat - 48)
    else if 'a' ≤ c && c ≤ 'f' then some (c.toNat - 87)
    else if 'A' ≤ c && c ≤ 'F' then some (c.toNat - 55)
    else none

def unescape : Char → Option Char
  | '"' => some '"'
  | '\\' => some '\\'
  | '/' => some '/'
  | 'b' => some '\x08'
  | 'f' => some '\x0c'
  | 'n' => some '\n'
  | 'r' => some '\r'
  | 't' => some '\t'
  | _ => none

def isHighSurrogate (n : Nat) : Bool := 0xD800 ≤ n && n ≤ 0xDBFF

def isLowSurrogate (n : Nat) : Bool := 0xDC00 ≤ n && n ≤ 0xDFFF

/-- Where inside a literal the reader stands. `high` is the first half of a surrogate pair. -/
inductive Place where
  | plain
  | escape
  | code (high : Option Nat) (left value : Nat)
  | pairSlash (high : Nat)
  | pairCode (high : Nat)

/-- Reads a literal behind its opening quote. A byte that belongs to no character counts only when the literal
ends, so any other fault in it comes first. -/
def literalFrom (place : Place) (done : List Char) (whole : Bool) : Input → Except Fault (String × Input)
  | [] => .error .truncated
  | s :: r =>
    match place, s with
    | .plain, none => literalFrom .plain done false r
    | .plain, some c =>
      if c = '"' then if whole then .ok (String.ofList done.reverse, r) else .error .malformed
      else if c = '\\' then literalFrom .escape done whole r
      else if c.toNat < 0x20 then .error .malformed
      else literalFrom .plain (c :: done) whole r
    | .escape, none => .error .malformed
    | .escape, some c =>
      match unescape c with
      | some d => literalFrom .plain (d :: done) whole r
      | none =>
        if c = 'u' then
          if shortOfFour r then .error .truncated else literalFrom (.code none 3 0) done whole r
        else .error .malformed
    | .code high left value, s =>
      match hexValue s with
      | none => .error .malformed
      | some d =>
        let value := value * 16 + d
        match left, high with
        | left + 1, high => literalFrom (.code high left value) done whole r
        | 0, none =>
          if isLowSurrogate value then .error .malformed
          else if isHighSurrogate value then literalFrom (.pairSlash value) done whole r
          else literalFrom .plain (Char.ofNat value :: done) whole r
        | 0, some h =>
          if isLowSurrogate value then
            literalFrom .plain (Char.ofNat ((h - 0xD800) * 0x400 + (value - 0xDC00) + 0x10000) :: done) whole r
          else .error .malformed
    | .pairSlash h, s => if s = some '\\' then literalFrom (.pairCode h) done whole r else .error .malformed
    | .pairCode h, s =>
      if s = some 'u' then
        if shortOfFour r then .error .truncated else literalFrom (.code (some h) 3 0) done whole r
      else .error .malformed

/-- As `literalFrom`, for a literal nobody looks at: surrogates need no partner and bytes no character. -/
def skipLiteralFrom (place : Place) : Input → Except Fault Input
  | [] => .error .truncated
  | s :: r =>
    match place with
    | .plain =>
      match s with
      | none => skipLiteralFrom .plain r
      | some c =>
        if c = '"' then .ok r
        else if c = '\\' then skipLiteralFrom .escape r
        else if c.toNat < 0x20 then .error .malformed
        else skipLiteralFrom .plain r
    | .code high (left + 1) v =>
      if (hexValue s).isSome then skipLiteralFrom (.code high left v) r else .error .malformed
    | .code _ 0 _ => if (hexValue s).isSome then skipLiteralFrom .plain r else .error .malformed
    | _ =>
      match s with
      | none => .error .malformed
      | some c =>
        if (unescape c).isSome then skipLiteralFrom .plain r
        else if c = 'u' then
          if shortOfFour r then .error .truncated else skipLiteralFrom (.code none 3 0) r
        else .error .malformed

def skipWord : List Char → Input → Except Fault Input
  | [], i => .ok i
  | _ :: _, [] => .error .truncated
  | c :: w, s :: r => if s = some c then skipWord w r else .error .malformed

def isDigit : Option Char → Bool
  | some c => c.isDigit
  | none => false

def digitsValue (ds : List (Option Char)) : Nat :=
  ds.foldl (fun n s => n * 10 + (hexValue s).getD 0) 0

/-- One digit or more. -/
def digits (atEnd : Fault) (i : Input) : Except Fault (List (Option Char) × Input) :=
  match i with
  | [] => .error atEnd
  | s :: _ => if isDigit s then .ok (i.takeWhile isDigit, i.dropWhile isDigit) else .error .malformed

/-- The number `mantissa * 10 ^ exponent`. -/
structure Magnitude where
  mantissa : Nat
  exponent : Int

/-- The least number that rounds to no finite double. -/
def doubleLimit : Nat := Nat.pow 2 1024 - Nat.pow 2 970

def Magnitude.isFinite (m : Magnitude) : Bool :=
  if m.mantissa = 0 then true
  else if 0 ≤ m.exponent then
    if 400 < m.exponent then false else m.mantissa * Nat.pow 10 m.exponent.toNat < doubleLimit
  else
    let down := (-m.exponent).toNat
    if (Nat.toDigits 10 m.mantissa).length ≤ down then true else m.mantissa < doubleLimit * Nat.pow 10 down

def fraction (atEnd : Fault) (i : Input) : Except Fault (List (Option Char) × Input) :=
  match i with
  | some '.' :: r => digits atEnd r
  | i => .ok ([], i)

def exponent (atEnd : Fault) (i : Input) : Except Fault (Int × Input) :=
  match i with
  | some c :: r =>
    if c = 'e' || c = 'E' then
      match r with
      | some '-' :: r => (digits atEnd r).map fun (ds, r) => (-(digitsValue ds : Int), r)
      | some '+' :: r => (digits atEnd r).map fun (ds, r) => ((digitsValue ds : Int), r)
      | r => (digits atEnd r).map fun (ds, r) => ((digitsValue ds : Int), r)
    else .ok (0, i)
  | i => .ok (0, i)

/-- A number behind its sign. What an early end of the input means differs: `atEnd` says. -/
def number (atEnd : Fault) (i : Input) : Except Fault (Magnitude × Input) := do
  let (whole, i) ← digits atEnd i
  if whole.head? = some (some '0') && whole.length ≠ 1 then throw .malformed
  let (part, i) ← fraction atEnd i
  let (exp, i) ← exponent atEnd i
  return (⟨digitsValue (whole ++ part), exp - part.length⟩, i)

/-- Skips a number that nobody looks at: an end in the middle of it is no early end, and any size is fine. -/
def skipNumber (i : Input) : Except Fault Input := (number .malformed i).map (·.2)

/-- What is wrong with the value ahead, which is not of the wanted shape: a scalar is read to its end first. -/
def mismatch : Input → Fault
  | some 'n' :: r => if let .error e := skipWord "ull".toList r then e else .mismatched
  | some 't' :: r => if let .error e := skipWord "rue".toList r then e else .mismatched
  | some 'f' :: r => if let .error e := skipWord "alse".toList r then e else .mismatched
  | some '"' :: r => if let .error e := literalFrom .plain [] true r then e else .mismatched
  | some '[' :: _ => .mismatched
  | some '\x7b' :: _ => .mismatched
  | some '-' :: r => scalar (number .truncated r)
  | s :: r => if isDigit s then scalar (number .truncated (s :: r)) else .malformed
  | [] => .malformed
where
  scalar : Except Fault (Magnitude × Input) → Fault
    | .error e => e
    | .ok (m, _) => if m.isFinite then .mismatched else .malformed

inductive Nest where
  | list
  | object
  deriving DecidableEq

def Nest.closer : Nest → Option Char
  | .list => some ']'
  | .object => some '\x7d'

/-- What comes next while values are skipped. -/
inductive Ahead where
  | value
  | opened
  | after

def skipKey (i : Input) : Except Fault Input :=
  match skipSpace i with
  | [] => .error .truncated
  | some '"' :: r =>
    match skipLiteralFrom .plain r with
    | .error e => .error e
    | .ok r =>
      match skipSpace r with
      | [] => .error .truncated
      | some ':' :: r => .ok r
      | _ => .error .malformed
  | _ => .error .malformed

def skipFirst (n : Nest) (i : Input) : Except Fault Input :=
  match n with
  | .list => .ok i
  | .object => skipKey i

/-- Skips with the brackets of `nest` open. Nesting may be as deep as the input is long. -/
def skipFrom : Nat → Ahead → List Nest → Input → Except Fault Input
  | 0, _, _, _ => .error .truncated
  | _ + 1, .after, [], i => .ok i
  | fuel + 1, .after, n :: nest, i =>
    match skipSpace i with
    | [] => .error .truncated
    | s :: r =>
      if s = some ',' then (skipFirst n r).bind (skipFrom fuel .value (n :: nest))
      else if s = n.closer then skipFrom fuel .after nest r
      else .error .malformed
  | fuel + 1, .opened, nest, i =>
    match nest, skipSpace i with
    | _, [] => .error .truncated
    | [], i => skipFrom fuel .value [] i
    | n :: nest, s :: r =>
      if s = n.closer then skipFrom fuel .after nest r
      else (skipFirst n (s :: r)).bind (skipFrom fuel .value (n :: nest))
  | fuel + 1, .value, nest, i =>
    match skipSpace i with
    | [] => .error .truncated
    | some 'n' :: r => (skipWord "ull".toList r).bind (skipFrom fuel .after nest)
    | some 't' :: r => (skipWord "rue".toList r).bind (skipFrom fuel .after nest)
    | some 'f' :: r => (skipWord "alse".toList r).bind (skipFrom fuel .after nest)
    | some '"' :: r => (skipLiteralFrom .plain r).bind (skipFrom fuel .after nest)
    | some '-' :: r => (skipNumber r).bind (skipFrom fuel .after nest)
    | some '[' :: r => skipFrom fuel .opened (.list :: nest) r
    | some '\x7b' :: r => skipFrom fuel .opened (.object :: nest) r
    | s :: r =>
      if isDigit s then (skipNumber (s :: r)).bind (skipFrom fuel .after nest) else .error .malformed

/-- Every second round takes a character. -/
def skipValue (i : Input) : Except Fault Input := skipFrom (2 * i.length + 2) .value [] i

def readText : Reader String := fun i =>
  match skipSpace i with
  | [] => .error .truncated
  | some '"' :: r => literalFrom .plain [] true r
  | i => .error (mismatch i)

/-- The end of a list or object whose last entry has been taken. -/
def readCloser (closer : Option Char) (i : Input) : Except Fault Input :=
  match skipSpace i with
  | [] => .error .truncated
  | s :: r => if s = closer then .ok r else .error .malformed

/-- Stands before an item: the rest if there is one, `none` before the closing bracket. -/
def nextItem (first : Bool) (i : Input) : Except Fault (Option Input) :=
  match skipSpace i with
  | [] => .error .truncated
  | s :: r =>
    if s = some ']' then .ok none
    else if first then .ok (some (s :: r))
    else if s = some ',' then
      match skipSpace r with
      | [] => .error .truncated
      | s :: r => if s = some ']' then .error .malformed else .ok (some (s :: r))
    else .error .malformed

def readItems {α : Type} (item : Reader α) : Nat → Bool → Reader (List α)
  | 0, _, _ => .error .truncated
  | fuel + 1, first, i =>
    match nextItem first i with
    | .error e => .error e
    | .ok none => (readCloser (some ']') i).map fun r => ([], r)
    | .ok (some r) => do
      let (x, r) ← item r
      let (xs, r) ← readItems item fuel false r
      return (x :: xs, r)

def readList {α : Type} (item : Reader α) : Reader (List α) := fun i =>
  match skipSpace i with
  | [] => .error .truncated
  | some '[' :: r => readItems item (r.length + 1) true r
  | i => .error (mismatch i)

/-- A field of a record that is being read into a value of type `σ`. -/
structure Field (σ : Type) where
  name : String
  read : σ → Reader σ

/-- A field that holds what `item` reads. -/
def Field.of {σ α : Type} (name : String) (item : Reader α) (set : σ → α → σ) : Field σ :=
  ⟨name, fun s i => (item i).map fun (x, r) => (set s x, r)⟩

/-- Stands before a key: the rest if there is one, `none` before the closing brace. -/
def nextKey (first : Bool) (i : Input) : Except Fault (Option Input) :=
  match skipSpace i with
  | [] => .error .truncated
  | s :: r =>
    if s = some '\x7d' then .ok none
    else if first then if s = some '"' then .ok (some r) else .error .malformed
    else if s = some ',' then
      match skipSpace r with
      | [] => .error .truncated
      | s :: r => if s = some '"' then .ok (some r) else .error .malformed
    else .error .malformed

def readColon (i : Input) : Except Fault Input :=
  match skipSpace i with
  | [] => .error .truncated
  | s :: r => if s = some ':' then .ok r else .error .malformed

/-- A field given twice is a fault as soon as its second name is read; fields of other names are skipped. -/
def readFields {σ : Type} (fields : List (Field σ)) : Nat → Bool → List String → σ → Reader σ
  | 0, _, _, _, _ => .error .truncated
  | fuel + 1, first, seen, s, i =>
    match nextKey first i with
    | .error e => .error e
    | .ok none => (readCloser (some '\x7d') i).map fun r => (s, r)
    | .ok (some r) => do
      let (key, r) ← literalFrom .plain [] true r
      match fields.find? (·.name = key) with
      | none =>
        let r ← skipValue (← readColon r)
        readFields fields fuel false seen s r
      | some f =>
        if seen.contains key then throw .mismatched
        let (s, r) ← f.read s (← readColon r)
        readFields fields fuel false (key :: seen) s r

/-- Fields by place; those behind the last one given keep what `s` says. -/
def readPlaces {σ : Type} (finish : σ → Except Fault Unit) : List (Field σ) → Bool → σ → Reader σ
  | [], _, s, i => do
    finish s
    return (s, ← readCloser (some ']') i)
  | f :: fields, first, s, i =>
    match nextItem first i with
    | .error e => .error e
    | .ok none => do
      finish s
      return (s, ← readCloser (some ']') i)
    | .ok (some r) => do
      let (s, r) ← f.read s r
      readPlaces finish fields false s r

/-- A record is an object or a list of its fields in order. `finish` refuses one that lacks a field. -/
def readRecord {σ : Type} (fields : List (Field σ)) (finish : σ → Except Fault Unit) (start : σ) : Reader σ :=
  fun i =>
    match skipSpace i with
    | [] => .error .truncated
    | some '[' :: r => readPlaces finish fields true start r
    | some '\x7b' :: r => do
      let (s, r) ← readFields fields (r.length + 1) true [] start r
      finish s
      return (s, r)
    | i => .error (mismatch i)

def chooseName {α : Type} (names : List (String × α)) (s : String) : Except Fault α :=
  match names.lookup s with
  | some a => .ok a
  | none => .error .mismatched

def readNull (i : Input) : Except Fault Input :=
  match skipSpace i with
  | [] => .error .truncated
  | some 'n' :: r => skipWord "ull".toList r
  | i => .error (mismatch i)

/-- One of several names, alone or as the key of an object that holds null. -/
def readChoice {α : Type} (names : List (String × α)) : Reader α := fun i =>
  match skipSpace i with
  | [] => .error .truncated
  | some '"' :: r => do
    let (s, r) ← literalFrom .plain [] true r
    return (← chooseName names s, r)
  | some '\x7b' :: r => do
    let (s, r) ← readText r
    let a ← chooseName names s
    let r ← readNull (← readColon r)
    return (a, ← readCloser (some '\x7d') r)
  | _ => .error .malformed

/-- The whole input is one value with nothing but space around it. -/
def readWhole {α : Type} (read : Reader α) (i : Input) : Except Fault α := do
  let (x, r) ← read i
  if (skipSpace r).isEmpty then return x else throw .malformed

def inputOf (s : String) : Input := s.toList.map some

def decode {α : Type} (read : Reader α) (s : String) : Except Fault α := readWhole read (inputOf s)

end Switchyard.Json
