import Switchyard.Http.Message
import Switchyard.Metrics
import Switchyard.System

/-!
The control interface: what requests do to the store and the supervisor.
-/
namespace Switchyard.System

/-- Replaces every table of the list, or none if one of them has no name. -/
def updateTables (s : System) (tables : List Table) : Except ApiError System :=
  match tables.findIdx? (·.name = "") with
  | some i => .error (.invalidRequest ("table at index " ++ toString i ++ " has no name"))
  | none => .ok { s with store := tables.foldl Store.update s.store }

def renderTable (s : System) (name : String) : Except ApiError String :=
  match s.store.render name with
  | some text => .ok text
  | none => .error (.tableNotFound name)

/-- The place among the mailboxes from which metrics are kept. -/
def metricsBox : Nat := 1

def metrics (s : System) : Metrics :=
  match s.supervisor.mailboxes[metricsBox]? with
  | some m => .ofEvents (m.received.reverse.map (·.event))
  | none => {}

open Http

def answer (s : System) : Except ApiError (Response × System) → Response × System
  | .ok (r, s) => (r, s)
  | .error e => (.ofError e, s)

def postTables (s : System) (r : Request) : Response × System :=
  s.answer do
    let tables ← r.readBody Json.readTables
    return (.empty, ← s.updateTables tables)

/-- The name in the path says nothing of where the tables of a body go, but it has to be a text. -/
def onTable (s : System) (r : Request) (name : String) : Response × System :=
  match r.method with
  | "POST" => s.postTables r
  | "DELETE" => (.empty, { s with store := (s.store.delete name).2 })
  | _ => s.answer do
    let text ← s.renderTable name
    return (.json (text ++ "\n"), s)

/-- A request whose method the resource has. -/
def onResource (s : System) (r : Request) : Resource → Response × System
  | .tables =>
    if r.method = "POST" then s.postTables r else (.json (Table.listToJson s.store.allTables).compact, s)
  | .table segment =>
    match decodeSegment segment with
    | some name => s.onTable r name
    | none => (.plain 400 "Invalid URL: Invalid UTF-8 in `name`", s)
  | .search =>
    if r.method = "POST" then
      s.answer do
        let path ← r.readBody Json.readSearchPath
        return (.empty, { s with store := s.store.setSearch path })
    else (.json s.store.search.toJson.compact, s)
  | .shutdown => (.plain 200 "Goodbye!\n", s.onSupervisor (·.shutdown))
  | .metrics => ({ status := 200, contentType := some Metrics.contentType, body := s.metrics.exposition }, s)

def http (s : System) (r : Request) : Response × System :=
  match Resource.ofTarget? r.target with
  | none => (.notFound, s)
  | some resource =>
    if resource.methods.contains r.method then
      let (response, s) := s.onResource r resource
      (if r.method = "HEAD" then response.headOnly else response, s)
    else (.methodNotAllowed resource, s)

end Switchyard.System
