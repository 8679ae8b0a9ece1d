import Switchyard.Text.Alphanumeric
import Switchyard.Text.Blank
import Switchyard.Text.Natural

/-!
Log filters: directives between commas, each a level, a target, a span in square brackets with fields in braces, or
several of these, and a level behind an equals sign.
-/
namespace Switchyard.LogFilter

inductive Error where
  | directive
  | level
  deriving DecidableEq, Repr

def Error.message : Error → String
  | directive => "invalid filter directive"
  | level =>
    "error parsing level filter: expected one of \"off\", \"error\", \"warn\", \"info\", \"debug\", \"trace\", " ++
      "or a number 0-5"

def levelNames : List String := ["off", "error", "warn", "info", "debug", "trace"]

/-- A level is a name in any case or a number up to five; nothing at all stands for all levels. -/
def isLevel (s : String) : Bool :=
  s = "" || levelNames.contains (Text.lowerAscii s) ||
    match Text.readNatural UInt64.size s with
    | .ok n => n ≤ 5
    | .error _ => false

/-- Where in a directive the reader stands. Numbers are places in bytes. -/
inductive Place where
  | start
  | levelOrTarget
  | span
  | field (start : Nat)
  | fields
  | target
  | level (start : Nat)

/-- The part of `s` from byte `start` on. -/
def dropBytes (s : List Char) (start : Nat) : List Char :=
  match s with
  | [] => []
  | c :: r => if start = 0 then c :: r else dropBytes r (start - c.utf8Size)

def startsName (c : Char) : Bool := c = '-' || c = ':' || c = '_' || Text.isAlphanumeric c

/-- Reads on at byte `i`; the answer is the place where the directive ends. -/
def scan (place : Place) (i : Nat) : List Char → Except Error Place
  | [] => .ok place
  | c :: r =>
    let next := i + c.utf8Size
    match place with
    | .start =>
      if c = '[' then scan .span next r
      else if startsName c then scan .levelOrTarget next r
      else .error .directive
    | .levelOrTarget =>
      if c = '=' then scan (.level next) next r
      else if c = '[' then scan .span next r
      else scan .levelOrTarget next r
    | .span =>
      if c = ']' then scan .target next r
      else if c = '\x7b' then scan (.field next) next r
      else scan .span next r
    | .field start =>
      if c = '\x7d' then if i = start then .error .directive else scan .fields next r
      else scan (.field start) next r
    | .fields => if c = ']' then scan .target next r else .error .directive
    | .target => if c = '=' then scan (.level next) next r else .error .directive
    | .level start => scan (.level start) next r

/-- Blanks around a directive are passed over, but places are still counted in it as given: behind leading blanks
a level is looked for too early. -/
def checkDirective (s : String) : Except Error Unit := do
  match ← scan .start 0 (Text.trim s).toList with
  | .levelOrTarget => return
  | .target => return
  | .level start =>
    if isLevel (String.ofList (dropBytes s.toList start)) then return else throw .level
  | _ => throw .directive

/-- The first directive that is wrong decides; an empty one is none. -/
def check (directives : String) : Except Error Unit :=
  (((directives.toList.splitOn ',').map String.ofList).filter (· ≠ "")).forM checkDirective

end Switchyard.LogFilter
