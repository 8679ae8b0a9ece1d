/-!
Programs that run packet filter commands.
-/
namespace Switchyard

/-- What the system does with a program that is asked to run. -/
inductive ProgramFate where
  | exits (code : Nat)
  | missing
  | notAllowed
  deriving DecidableEq, Repr

structure RuleError where
  command : String
  reason : String
  deriving DecidableEq, Repr

def RuleError.message (e : RuleError) : String :=
  "rule command `" ++ e.command ++ "` failed: " ++ e.reason

/-- The command as it is reported: the program, the choice of the table, the arguments. -/
def ruleCommandText (program : String) (arguments : List String) : String :=
  program ++ " -t nat " ++ " ".intercalate arguments

/-- Programs known on every system; any other is taken as missing. -/
def ProgramFate.of : String → ProgramFate
  | "true" | "/bin/true" | "/usr/bin/true" => .exits 0
  | "false" | "/bin/false" | "/usr/bin/false" => .exits 1
  | "/" | "/dev/null" | "/dev" | "/tmp" | "/etc" | "/etc/passwd" | "/etc/hosts" | "/usr" | "/bin" | "." | ".." =>
    .notAllowed
  | _ => .missing

/-- A text with a NUL in it cannot be handed to a program. -/
def hasNul (s : String) : Bool := s.toList.contains '\x00'

def runRule (program : String) (arguments : List String) : Except RuleError Unit :=
  let refuse (reason : String) : Except RuleError Unit := .error ⟨ruleCommandText program arguments, reason⟩
  if (program :: arguments).any hasNul then refuse "spawn: nul byte found in provided data"
  else match ProgramFate.of program with
  | .exits 0 => .ok ()
  | .exits code => refuse ("exit code: " ++ toString code)
  | .missing => refuse "spawn: No such file or directory (os error 2)"
  | .notAllowed => refuse "spawn: Permission denied (os error 13)"

end Switchyard
