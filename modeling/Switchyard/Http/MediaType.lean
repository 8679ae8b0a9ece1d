import Switchyard.Text.Blank

/-!
Media types as a content type header gives them: a type, a slash, a subtype, parameters behind semicolons.
-/
namespace Switchyard

structure MediaType where
  type : String
  subtype : String
  /-- What stands behind the last plus sign. -/
  suffix : Option String
  deriving DecidableEq, Repr

namespace MediaType

def isTokenChar (c : Char) : Bool := c.isAlphanum || "!#$%&'*+-.^_`|~".toList.contains c

/-- Printable ASCII. -/
def isQuotable (c : Char) : Bool := 32 ≤ c.toNat && c.toNat < 127

/-- Where among the parameters the reader stands. -/
inductive Place where
  | beforeName
  | name
  | valueStart
  | value
  | quotedStart
  | quoted
  | afterQuoted

/-- Whether a list of parameters, behind its first semicolon, is well formed. It may be empty, and it may end
behind a semicolon or blanks. -/
def parametersFrom : Place → List Char → Bool
  | .beforeName, [] => true
  | .name, [] => false
  | .valueStart, [] => true
  | .value, [] => true
  | .quotedStart, [] => false
  | .quoted, [] => false
  | .afterQuoted, [] => true
  | .beforeName, c :: r =>
    if c = ' ' then parametersFrom .beforeName r else isTokenChar c && parametersFrom .name r
  | .name, c :: r =>
    if c = '=' then parametersFrom .valueStart r else isTokenChar c && parametersFrom .name r
  | .valueStart, c :: r =>
    if c = '"' then parametersFrom .quotedStart r else isTokenChar c && parametersFrom .value r
  | .value, c :: r =>
    if c = ';' then parametersFrom .beforeName r else isTokenChar c && parametersFrom .value r
  | .quotedStart, c :: r => isQuotable c && parametersFrom .quoted r
  | .quoted, c :: r =>
    if c = '"' then parametersFrom .afterQuoted r
    else isQuotable c && parametersFrom .quoted r
  | .afterQuoted, c :: r =>
    if c = ';' then parametersFrom .beforeName r else c = ' ' && parametersFrom .afterQuoted r

/-- Cuts a subtype at its last plus sign, unless that is its first character. -/
def splitSuffix (s : List Char) : List Char × Option (List Char) :=
  let tail := (s.reverse.takeWhile (· ≠ '+')).reverse
  let head := s.take (s.length - tail.length - 1)
  if tail.length < s.length && head ≠ [] then (head, some tail) else (s, none)

/-- Letters are compared without case, so all are read as small ones. -/
def ofText? (s : String) : Option MediaType :=
  let lower (cs : List Char) : String := Text.lowerAscii (String.ofList cs)
  let cs := s.toList
  let main := cs.takeWhile (· ≠ '/')
  match cs.dropWhile (· ≠ '/') with
  | '/' :: r =>
    if main = [] || !main.all isTokenChar then none
    else
      let sub := r.takeWhile (· ≠ ';')
      let rest := r.dropWhile (· ≠ ';')
      let whole := sub.all isTokenChar && (match rest with
        | [] => true
        | _ :: params => sub ≠ [] && parametersFrom .beforeName params)
      if whole then
        let (head, suffix) := splitSuffix sub
        some ⟨lower main, lower head, suffix.map lower⟩
      else none
  | _ => none

/-- JSON, or a format written in it. -/
def isJson (m : MediaType) : Bool := m.type = "application" && (m.subtype = "json" || m.suffix = some "json")

end MediaType

end Switchyard
