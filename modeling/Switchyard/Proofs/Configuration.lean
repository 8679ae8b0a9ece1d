import Switchyard.Configuration
import Switchyard.Proofs.Json.Refusal
import Switchyard.Proofs.Text.Words

/-!
What an accepted configuration is made of. Main statement: the chain of an accepted configuration is named by a word.
-/
namespace Switchyard.Configuration

variable {lookup : String → Option String} {c : Configuration}

/-- Each setting of an accepted configuration is what its own variable says, or the fallback. -/
structure Accepted (lookup : String → Option String) (c : Configuration) : Prop where
  chain : setting lookup "SLIPWAY_CHAIN" readChain ({} : Configuration).chain = .ok c.chain
  apiAddress : setting lookup "SLIPWAY_API_ADDR" readAddress ({} : Configuration).apiAddress = .ok c.apiAddress
  proxyPort : ∃ port, setting lookup "SLIPWAY_PROXY_PORT" (readBelow UInt16.size)
    ({} : Configuration).proxyPort.toNat = .ok port ∧ c.proxyPort = UInt16.ofNat port
  openFiles : setting lookup "SLIPWAY_NOFILE" (readBelow UInt64.size) ({} : Configuration).openFiles = .ok c.openFiles
  eventQueue : setting lookup "SLIPWAY_EVENT_QUEUE" (readBelow UInt64.size) ({} : Configuration).eventQueue =
    .ok c.eventQueue
  format : readFormat lookup = .ok c.log.format

theorem accepted_of_eq_ok (h : ofVariables lookup = .ok c) : Accepted lookup c := by
  obtain ⟨_, chain, h⟩ := of_bind_eq_ok h
  obtain ⟨_, apiAddress, h⟩ := of_bind_eq_ok h
  obtain ⟨port, proxyPort, h⟩ := of_bind_eq_ok h
  obtain ⟨_, openFiles, h⟩ := of_bind_eq_ok h
  obtain ⟨_, eventQueue, h⟩ := of_bind_eq_ok h
  obtain ⟨_, format, h⟩ := of_bind_eq_ok h
  cases h
  exact ⟨chain, apiAddress, ⟨port, proxyPort, rfl⟩, openFiles, eventQueue, format⟩

theorem setting_eq_ok {α : Type} {key : String} {read : String → Except String α} {fallback a : α}
    (h : setting lookup key read fallback = .ok a) :
    lookup key = none ∧ a = fallback ∨ ∃ value, lookup key = some value ∧ read value = .ok a := by
  unfold setting at h
  split at h
  next unset =>
    cases h
    exact .inl ⟨unset, rfl⟩
  next value set =>
    cases read' : read value with
    | error reason =>
      rw [read'] at h
      cases h
    | ok b =>
      rw [read'] at h
      cases h
      exact .inr ⟨value, set, read'⟩

theorem readBelow_eq_ok {limit n : Nat} {s : String} (h : readBelow limit s = .ok n) :
    Text.readNatural limit (Text.trim s) = .ok n := by
  unfold readBelow at h
  cases natural : Text.readNatural limit (Text.trim s) with
  | error e =>
    rw [natural] at h
    cases h
  | ok m =>
    rw [natural] at h
    cases h
    rfl

/-- Names are refused by the same notion of blanks by which commands are split. -/
theorem isChainName_iff {s : String} : isChainName s = true ↔ Text.IsWord s := by
  simp [isChainName, Text.IsWord]

theorem isWord_chain (h : ofVariables lookup = .ok c) : Text.IsWord c.chain := by
  rcases setting_eq_ok (accepted_of_eq_ok h).chain with ⟨_, fallback⟩ | ⟨value, _, read⟩
  · rw [fallback]
    decide
  · unfold readChain at read
    split at read
    next word =>
      cases read
      exact isChainName_iff.1 word
    next => cases read

end Switchyard.Configuration
