import Switchyard.Text.Blank

/-!
The suffixes with which an unqualified name is tried.
-/
namespace Switchyard

structure SearchPath where
  suffixes : List String := []
  deriving DecidableEq, Repr, Inhabited

namespace SearchPath

/-- A suffix without the dots around it; `none` if nothing is left. -/
def trimSuffix (s : String) : Option String :=
  match Text.stripWhile (· = '.') s.toList with
  | [] => none
  | cs => some (String.ofList cs)

/-- The name itself, then the name with each suffix. A final dot marks a name as complete. -/
def candidates (p : SearchPath) (name : String) : List String :=
  if name.toList.getLast? = some '.' then [name]
  else name :: (p.suffixes.filterMap trimSuffix).map fun s => name ++ "." ++ s

end SearchPath

end Switchyard
