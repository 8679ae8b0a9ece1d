import Switchyard.Json.Printer
import Switchyard.Json.Reader
import Switchyard.Route.Basic
import Switchyard.Route.SearchPath

/-!
The JSON forms of routes, tables and search paths. A text field that is empty is left out; reading puts it back.
-/
namespace Switchyard

def Protocol.names : List (String × Protocol) := [("tcp", .tcp), ("udp", .udp)]

def RouteAction.names : List (String × RouteAction) :=
  [("redirect", .redirect), ("dont_redirect", .dontRedirect)]

def Protocol.toJson (p : Protocol) : Json := .text p.text

def RouteAction.toJson (a : RouteAction) : Json := .text a.text

def Route.toJson (r : Route) : Json :=
  let given (k v : String) : List (String × Json) := if v = "" then [] else [(k, .text v)]
  .object (given "name" r.name ++ [("proto", r.proto.toJson)] ++ given "ip" r.ip ++ given "port" r.port ++
    given "target" r.target ++ [("action", r.action.toJson)])

def Table.toJson (t : Table) : Json :=
  .object [("name", .text t.name), ("routes", .list (t.routes.map Route.toJson))]

def SearchPath.toJson (p : SearchPath) : Json := .list (p.suffixes.map .text)

def Table.listToJson (ts : List Table) : Json := .list (ts.map Table.toJson)

namespace Json

def readProtocol : Reader Protocol := readChoice Protocol.names

def readAction : Reader RouteAction := readChoice RouteAction.names

def routeFields : List (Field Route) := [
  .of "name" readText fun r v => { r with name := v },
  .of "proto" readProtocol fun r v => { r with proto := v },
  .of "ip" readText fun r v => { r with ip := v },
  .of "port" readText fun r v => { r with port := v },
  .of "target" readText fun r v => { r with target := v },
  .of "action" readAction fun r v => { r with action := v }]

def readRoute : Reader Route := readRecord routeFields (fun _ => .ok ()) {}

/-- A table being read: its name may not have come yet. -/
structure TableDraft where
  name : Option String := none
  routes : List Route := []

def tableFields : List (Field TableDraft) := [
  .of "name" readText fun t v => { t with name := some v },
  .of "routes" (readList readRoute) fun t v => { t with routes := v }]

/-- Only the name of a table must be given. -/
def readTable : Reader Table := fun i =>
  (readRecord tableFields (fun t => if t.name.isSome then .ok () else .error .mismatched) {} i).map
    fun (t, r) => (⟨t.name.getD "", t.routes⟩, r)

def readTables : Reader (List Table) := readList readTable

def readSearchPath : Reader SearchPath := fun i => (readList readText i).map fun (ss, r) => (⟨ss⟩, r)

end Json

end Switchyard
