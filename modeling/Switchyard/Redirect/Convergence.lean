import Switchyard.Redirect.Redirector
import Switchyard.Store

/-!
Bringing the redirector's table in line with the redirect routes of the store.
-/
namespace Switchyard

/-- Every redirect route sends its address to `port`. A route whose address is not IPv4 is passed over. -/
def wantedMappings (routes : List Route) (port : UInt16) : Mappings :=
  Dictionary.ofList (routes.filterMap fun r => (Ipv4.ofText? r.ip).map fun ip => (⟨r.proto, ip⟩, port))

/-- The calls that turn one table into another, and how many of them install and remove. -/
structure Convergence where
  removals : List Operation
  installs : List Operation

namespace Convergence

/-- An address already sent to its port is left alone. -/
def between (current wanted : Mappings) : Convergence where
  removals := (current.keys.filter fun a => !wanted.contains a).map .clear
  installs := (wanted.entries.filter fun (a, port) => current.find? a ≠ some port).map fun (a, port) =>
    .forward a port

def operations (c : Convergence) : List Operation := c.removals ++ c.installs

end Convergence

/-- A pass with nobody else acting. -/
def Redirector.converge (t : Redirector) (s : Store) (port : UInt16) : Convergence × Redirector :=
  let c := Convergence.between t.mappings (wantedMappings s.redirects port)
  (c, t.performAll c.operations)

end Switchyard
