import Switchyard.Log.Filter
import Switchyard.Log.Format

/-!
What the log shows and where it goes.
-/
namespace Switchyard

structure LogSettings where
  format : LogFormat := .text
  directives : String := "info,slipway.nat.iptables=warn"
  identifier : String := "slipwayd"
  targets : Bool := true
  deriving DecidableEq, Repr, Inhabited

namespace LogSettings

/-- A level alone leaves the packet filter commands at warnings; anything with an equals sign or a comma is taken
as the directives themselves. -/
def withLevel (s : LogSettings) (level : String) : LogSettings :=
  let level := Text.trim level
  if level.toList.any fun c => c = '=' || c = ',' then { s with directives := level }
  else { s with directives := level ++ ",slipway.nat.iptables=warn" }

/-- Starting the log a second time fails, but not before the filter has been looked at. -/
def restart (s : LogSettings) : LogError :=
  match LogFilter.check s.directives with
  | .ok () => .alreadyInitialized
  | .error e => .invalidFilter s.directives e.message

end LogSettings

end Switchyard
