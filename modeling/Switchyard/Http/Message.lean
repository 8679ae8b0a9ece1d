import Switchyard.Http.MediaType
import Switchyard.Http.Percent
import Switchyard.Route.Json

/-!
Requests and responses, and the resources that paths name.
-/
namespace Switchyard

inductive ApiError where
  | invalidRequest (reason : String)
  | tableNotFound (name : String)
  deriving DecidableEq, Repr

def ApiError.message : ApiError → String
  | invalidRequest reason => "invalid request: " ++ reason
  | tableNotFound name => "table not found: " ++ name

namespace Http

structure Request where
  method : String
  target : String
  contentType : Option String := none
  body : List UInt8 := []
  deriving Repr

structure Response where
  status : Nat
  contentType : Option String := none
  allow : Option String := none
  body : String := ""
  deriving DecidableEq, Repr

inductive Resource where
  | tables
  /-- The name as the path has it. -/
  | table (segment : String)
  | search
  | shutdown
  | metrics
  deriving DecidableEq, Repr

namespace Resource

/-- Cuts scheme and authority from a target that has them. -/
def relativeTarget (target : List Char) : List Char :=
  match target.dropWhile (· ≠ ':') with
  | ':' :: '/' :: '/' :: r => if target.head? = some '/' then target else r.dropWhile fun c => !"/?#".toList.contains c
  | _ => target

/-- A path is compared as it stands; only a table's name is decoded, and it must not be empty. -/
def ofTarget? (target : String) : Option Resource :=
  let path := (relativeTarget target.toList).takeWhile fun c => c ≠ '?' && c ≠ '#'
  match (path.splitOn '/').map String.ofList with
  | ["", "api", "tables"] => some .tables
  | ["", "api", "tables", name] => if name = "" then none else some (.table name)
  | ["", "api", "search"] => some .search
  | ["", "api", "shutdown"] => some .shutdown
  | ["", "metrics"] => some .metrics
  | _ => none

/-- What may be asked of a resource, in the order in which it is advertised. -/
def methods : Resource → List String
  | .tables => ["GET", "HEAD", "POST"]
  | .table _ => ["GET", "HEAD", "POST", "DELETE"]
  | .search => ["GET", "HEAD", "POST"]
  | .shutdown => ["POST"]
  | .metrics => ["GET", "HEAD"]

end Resource

namespace Response

def empty : Response := ⟨200, none, none, ""⟩

def json (text : String) : Response := ⟨200, some "application/json", none, text⟩

def plain (status : Nat) (text : String) : Response := ⟨status, some "text/plain; charset=utf-8", none, text⟩

def notFound : Response := ⟨404, none, none, ""⟩

def methodNotAllowed (r : Resource) : Response := ⟨405, none, some (",".intercalate r.methods), ""⟩

def ofError (e : ApiError) : Response where
  status := match e with
    | .invalidRequest _ => 400
    | .tableNotFound _ => 404
  contentType := some "application/json"
  body := (Json.object [("error", .text e.message)]).compact

/-- The answer to a request for the head alone. -/
def headOnly (r : Response) : Response := { r with body := "" }

end Response

/-- Bodies of more bytes are refused. -/
def bodyLimit : Nat := 2097152

def faultMessage : Json.Fault → String
  | .malformed => "Failed to parse the request body as JSON"
  | .truncated => "Failed to parse the request body as JSON"
  | .mismatched => "Failed to deserialize the JSON body into the target type"

def Request.isJson (r : Request) : Bool := (r.contentType.bind MediaType.ofText?).any (·.isJson)

/-- The body as a value. The header is looked at before the body. -/
def Request.readBody {α : Type} (r : Request) (read : Json.Reader α) : Except ApiError α :=
  if !r.isJson then .error (.invalidRequest "Expected request with `Content-Type: application/json`")
  else if bodyLimit < r.body.length then
    .error (.invalidRequest "Failed to buffer the request body: length limit exceeded")
  else
    (Json.readWhole read (Text.decodeBytes r.body)).mapError fun f => .invalidRequest (faultMessage f)

end Http

end Switchyard
