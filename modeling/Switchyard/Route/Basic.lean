import Switchyard.Text.Blank

/-!
Routes: a name, a virtual address or both, and what becomes of traffic to them.
-/
namespace Switchyard

inductive Protocol where
  | tcp
  | udp
  deriving DecidableEq, Repr, Inhabited

def Protocol.text : Protocol → String
  | .tcp => "tcp"
  | .udp => "udp"

/-- Blanks around the word and the case of its letters do not matter. -/
def Protocol.ofText? (s : String) : Option Protocol :=
  match Text.lowerAscii (Text.trim s) with
  | "tcp" => some .tcp
  | "udp" => some .udp
  | _ => none

/-- What is said of a text that names no protocol. -/
def Protocol.unknownMessage (s : String) : String := "unknown protocol: " ++ s ++ " (expected: tcp|udp)"

inductive RouteAction where
  | redirect
  | dontRedirect
  deriving DecidableEq, Repr, Inhabited

def RouteAction.text : RouteAction → String
  | .redirect => "redirect"
  | .dontRedirect => "dont_redirect"

structure Route where
  name : String := ""
  proto : Protocol := .tcp
  ip : String := ""
  port : String := ""
  target : String := ""
  action : RouteAction := .redirect
  deriving DecidableEq, Repr, Inhabited

namespace Route

/-- A name as it is compared: without final dots, ASCII letters in lower case. -/
def canonicalName (s : String) : List Char := (Text.stripEnd (· = '.') s.toList).map Char.toLower

/-- A route without a name answers to none, not even to the empty one. -/
def matchesName (r : Route) (name : String) : Bool :=
  r.name ≠ "" && canonicalName r.name = canonicalName name

def isRedirect (r : Route) : Bool := r.action = .redirect && r.ip ≠ ""

end Route

structure Table where
  name : String
  routes : List Route := []
  deriving DecidableEq, Repr, Inhabited

namespace Table

def lookup (t : Table) (name : String) : Option Route := t.routes.find? (·.matchesName name)

/-- Addresses are compared as texts. -/
def lookupIp (t : Table) (ip : String) : Option Route := t.routes.find? (·.ip = ip)

def redirects (t : Table) : List Route := t.routes.filter (·.isRedirect)

end Table

end Switchyard
