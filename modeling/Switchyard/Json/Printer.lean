/-!
JSON values made of texts, lists and objects, and their two written forms: `compact` on one line and `pretty`
with two blanks per level.
-/
namespace Switchyard

/-- Fields stay in the order given. -/
inductive Json where
  | text (s : String)
  | list (items : List Json)
  | object (fields : List (String × Json))
  deriving Inhabited

namespace Json

/-- Four digits. -/
def codeUnit (n : Nat) : List Char :=
  [(n / 4096) % 16, (n / 256) % 16, (n / 16) % 16, n % 16].map Nat.digitChar

def escapeChar (c : Char) : List Char :=
  match c with
  | '"' => ['\\', '"']
  | '\\' => ['\\', '\\']
  | '\x08' => ['\\', 'b']
  | '\x0c' => ['\\', 'f']
  | '\n' => ['\\', 'n']
  | '\r' => ['\\', 'r']
  | '\t' => ['\\', 't']
  | c => if c.toNat < 0x20 then '\\' :: 'u' :: codeUnit c.toNat else [c]

def literal (s : String) : List Char := '"' :: s.toList.flatMap escapeChar ++ ['"']

mutual

def compactChars : Json → List Char
  | .text s => literal s
  | .list items => '[' :: compactItems items ++ [']']
  | .object fields => '\x7b' :: compactFields fields ++ ['\x7d']

def compactItems : List Json → List Char
  | [] => []
  | [v] => compactChars v
  | v :: rest => compactChars v ++ ',' :: compactItems rest

def compactFields : List (String × Json) → List Char
  | [] => []
  | [(k, v)] => literal k ++ ':' :: compactChars v
  | (k, v) :: rest => literal k ++ ':' :: compactChars v ++ ',' :: compactFields rest

end

def newline (depth : Nat) : List Char := '\n' :: List.replicate (2 * depth) ' '

mutual

def prettyChars (depth : Nat) : Json → List Char
  | .text s => literal s
  | .list [] => ['[', ']']
  | .list items => '[' :: prettyItems (depth + 1) items ++ newline depth ++ [']']
  | .object [] => ['\x7b', '\x7d']
  | .object fields => '\x7b' :: prettyFields (depth + 1) fields ++ newline depth ++ ['\x7d']

def prettyItems (depth : Nat) : List Json → List Char
  | [] => []
  | [v] => newline depth ++ prettyChars depth v
  | v :: rest => newline depth ++ prettyChars depth v ++ ',' :: prettyItems depth rest

def prettyFields (depth : Nat) : List (String × Json) → List Char
  | [] => []
  | [(k, v)] => newline depth ++ literal k ++ [':', ' '] ++ prettyChars depth v
  | (k, v) :: rest =>
    newline depth ++ literal k ++ [':', ' '] ++ prettyChars depth v ++ ',' :: prettyFields depth rest

end

def compact (v : Json) : String := String.ofList v.compactChars

def pretty (v : Json) : String := String.ofList (v.prettyChars 0)

end Json

end Switchyard
