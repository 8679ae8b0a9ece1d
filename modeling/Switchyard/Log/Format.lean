import Switchyard.Text.Blank

/-!
How log records are written.
-/
namespace Switchyard

inductive LogFormat where
  | text
  | json
  | journald
  deriving DecidableEq, Repr, Inhabited

inductive LogError where
  | unknownFormat (s : String)
  | alreadyInitialized
  | invalidFilter (directives reason : String)
  deriving DecidableEq, Repr

def LogError.message : LogError → String
  | unknownFormat s => "unknown log format: " ++ s ++ " (expected: text|json|journald)"
  | alreadyInitialized => "logger already initialized"
  | invalidFilter directives reason => "invalid log filter `" ++ directives ++ "`: " ++ reason

namespace LogFormat

def name : LogFormat → String
  | text => "text"
  | json => "json"
  | journald => "journald"

/-- Blanks around the word and the case of its letters do not matter. -/
def ofText (s : String) : Except LogError LogFormat :=
  match Text.lowerAscii (Text.trim s) with
  | "text" | "plain" => .ok text
  | "json" => .ok json
  | "journald" | "journal" => .ok journald
  | _ => .error (.unknownFormat s)

/-- The format where none is asked for: that of the journal if the output goes there. -/
def preferred (journalStream : Bool) : LogFormat := if journalStream then journald else text

end LogFormat

end Switchyard
