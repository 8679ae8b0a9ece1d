import Switchyard.Log.Record
import Switchyard.Log.Settings
import Switchyard.Net.SocketAddress
import Switchyard.Text.Natural
import Switchyard.Text.Quoted

/-!
The configuration, read from named variables.
-/
namespace Switchyard

inductive ConfigError where
  | invalid (key value reason : String)
  | log (e : LogError)
  deriving DecidableEq, Repr

def ConfigError.message : ConfigError → String
  | invalid key value reason => key ++ "=" ++ Text.quoted value ++ ": " ++ reason
  | log e => e.message

structure Configuration where
  chain : String := "SLIPWAY"
  apiAddress : SocketAddress := .v4 ⟨127, 0, 0, 1⟩ 0
  proxyPort : UInt16 := 1234
  openFiles : Nat := 999999
  eventQueue : Nat := Journal.defaultCapacity
  log : LogSettings := {}
  deriving Repr, Inhabited

namespace Configuration

/-- A chain name is one word: it becomes one argument of a command. -/
def isChainName (s : String) : Bool := s ≠ "" && !s.toList.any Text.isBlank

def readChain (s : String) : Except String String :=
  if isChainName s then .ok s else .error "chain name must be a single non-empty word"

/-- Blanks around a value do not matter. -/
def readAddress (s : String) : Except String SocketAddress :=
  match SocketAddress.ofText? (Text.trim s) with
  | some a => .ok a
  | none => .error "invalid socket address syntax"

def readBelow (limit : Nat) (s : String) : Except String Nat :=
  (Text.readNatural limit (Text.trim s)).mapError (·.message)

/-- The value of a variable, or `fallback` if it is not set. -/
def setting {α : Type} (lookup : String → Option String) (key : String)
    (read : String → Except String α) (fallback : α) : Except ConfigError α :=
  match lookup key with
  | none => .ok fallback
  | some value => (read value).mapError fun reason => .invalid key value reason

def readFormat (lookup : String → Option String) : Except ConfigError LogFormat :=
  match lookup "SLIPWAY_LOG_FORMAT" with
  | some s => (LogFormat.ofText s).mapError .log
  | none => .ok (.preferred (lookup "JOURNAL_STREAM").isSome)

/-- The first variable that is wrong decides, in this order. -/
def ofVariables (lookup : String → Option String) : Except ConfigError Configuration := do
  let d : Configuration := {}
  let chain ← setting lookup "SLIPWAY_CHAIN" readChain d.chain
  let apiAddress ← setting lookup "SLIPWAY_API_ADDR" readAddress d.apiAddress
  let port ← setting lookup "SLIPWAY_PROXY_PORT" (readBelow UInt16.size) d.proxyPort.toNat
  let openFiles ← setting lookup "SLIPWAY_NOFILE" (readBelow UInt64.size) d.openFiles
  let eventQueue ← setting lookup "SLIPWAY_EVENT_QUEUE" (readBelow UInt64.size) d.eventQueue
  let log := match lookup "SLIPWAY_LOG_LEVEL" with
    | some level => d.log.withLevel level
    | none => d.log
  let format ← readFormat lookup
  return { chain, apiAddress, proxyPort := UInt16.ofNat port, openFiles, eventQueue, log := { log with format } }

end Configuration

end Switchyard
