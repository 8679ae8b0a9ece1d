import Switchyard.Proofs.Configuration
import Switchyard.Proofs.Text.Decimal
import Switchyard.Startup

/-!
Which configurations give a supervisor. Main statement: exactly those that keep room for no more events waiting to be
logged than a channel can hold. Being accepted is not enough, since there an upper bound is missing.
-/
namespace Switchyard

/-- The most that a channel can be asked to hold. -/
def largestChannel : Nat := (UInt64.size - 1) >>> 3

/-- What is relied on in whatever makes channels: which capacities it refuses, and that it makes the others as asked. -/
structure Channels (channel : Nat → Option Mailbox) : Prop where
  refuses_iff : ∀ n, channel n = none ↔ n = 0 ∨ largestChannel < n
  fresh : ∀ {n m}, channel n = some m → m = { capacity := n }

variable {channel : Nat → Option Mailbox} {lookup : String → Option String} {c : Configuration}

theorem Channels.eq_ite (h : Channels channel) (n : Nat) :
    channel (Mailbox.ofCapacity n).capacity = if n ≤ largestChannel then some (.ofCapacity n) else none := by
  have room : 1 ≤ largestChannel := by decide
  have refused := h.refuses_iff (max n 1)
  split
  case isTrue within =>
    have accepted : channel (max n 1) ≠ none := fun none => by
      have := refused.1 none
      omega
    obtain ⟨m, made⟩ := Option.ne_none_iff_exists'.1 accepted
    exact made.trans (congrArg some (h.fresh made))
  case isFalse above => exact refused.2 (.inr (by omega))

namespace Supervisor

/-- A single queue that cannot be made is enough. -/
theorem build_eq_ite (h : Channels channel) (backoff : Backoff) (capacities : List Nat) :
    build channel backoff capacities =
      if ∀ n ∈ capacities, n ≤ largestChannel then some { backoff, mailboxes := capacities.map .ofCapacity }
      else none := by
  have made : capacities.mapM (fun n => channel (Mailbox.ofCapacity n).capacity) =
      if ∀ n ∈ capacities, n ≤ largestChannel then some (capacities.map .ofCapacity) else none := by
    induction capacities with
    | nil => rfl
    | cons n ns ih =>
      rw [List.mapM_cons, h.eq_ite, ih]
      have both : (∀ m ∈ n :: ns, m ≤ largestChannel) ↔ n ≤ largestChannel ∧ ∀ m ∈ ns, m ≤ largestChannel :=
        List.forall_mem_cons
      by_cases within : n ≤ largestChannel
      · by_cases rest : ∀ m ∈ ns, m ≤ largestChannel
        · rw [if_pos within, if_pos rest, if_pos (both.2 ⟨within, rest⟩)]
          rfl
        · rw [if_pos within, if_neg rest, if_neg fun all => rest (both.1 all).2]
          rfl
      · rw [if_neg within, if_neg fun all => within (both.1 all).1]
        rfl
  rw [build, made]
  split <;> rfl

end Supervisor

namespace Configuration

/-- The variables, with another text for one of them. -/
def withVariable (lookup : String → Option String) (key text : String) : String → Option String :=
  fun k => if k = key then some text else lookup k

theorem supervisor_eq_ite (h : Channels channel) (c : Configuration) :
    c.supervisor channel =
      if c.eventQueue ≤ largestChannel then
        some { mailboxes := [.ofCapacity c.eventQueue, .ofCapacity Metrics.queueCapacity] }
      else none := by
  have raised : Mailbox.ofCapacity c.journal.capacity = .ofCapacity c.eventQueue := by
    simp [Mailbox.ofCapacity, journal, Journal.ofCapacity]
  have metrics : Metrics.queueCapacity ≤ largestChannel := by decide
  have journal : c.journal.capacity ≤ largestChannel ↔ c.eventQueue ≤ largestChannel := by
    have room : 1 ≤ largestChannel := by decide
    show max c.eventQueue 1 ≤ largestChannel ↔ _
    omega
  rw [supervisor, Supervisor.build_eq_ite h]
  simp only [List.forall_mem_cons, List.not_mem_nil, false_imp_iff, implies_true, and_true, metrics, journal,
    List.map_cons, List.map_nil, raised]

theorem eventQueue_of_accepted (accepted : ofVariables lookup = .ok c) :
    lookup "SLIPWAY_EVENT_QUEUE" = none ∧ c.eventQueue = Journal.defaultCapacity ∨
      ∃ text, lookup "SLIPWAY_EVENT_QUEUE" = some text ∧
        Text.readNatural UInt64.size (Text.trim text) = .ok c.eventQueue := by
  rcases setting_eq_ok (accepted_of_eq_ok accepted).eventQueue with unset | ⟨text, set, read⟩
  · exact .inl unset
  · exact .inr ⟨text, set, readBelow_eq_ok read⟩

theorem eventQueue_lt (accepted : ofVariables lookup = .ok c) : c.eventQueue < UInt64.size := by
  rcases eventQueue_of_accepted accepted with ⟨_, fallback⟩ | ⟨text, _, read⟩
  · rw [fallback]
    decide
  · exact Text.lt_of_readNatural (by decide) read

/-- What the variable has to say so that the room is too much. -/
theorem largestChannel_lt_eventQueue_iff (accepted : ofVariables lookup = .ok c) :
    largestChannel < c.eventQueue ↔ ∃ text n, lookup "SLIPWAY_EVENT_QUEUE" = some text ∧
      Text.readNatural UInt64.size (Text.trim text) = .ok n ∧ largestChannel < n := by
  rcases eventQueue_of_accepted accepted with ⟨unset, fallback⟩ | ⟨text, set, read⟩
  · have few : ¬ largestChannel < c.eventQueue := by
      rw [fallback]
      decide
    refine iff_of_false few ?_
    rintro ⟨text, n, set, _⟩
    cases unset.symm.trans set
  · constructor
    · intro above
      exact ⟨text, c.eventQueue, set, read, above⟩
    · rintro ⟨text', n, set', read', above⟩
      cases set.symm.trans set'
      cases read.symm.trans read'
      exact above

/-- Whatever the other variables say, every number that can be written is accepted. -/
theorem ofVariables_withVariable (accepted : ofVariables lookup = .ok c) {n : Nat} (small : n < UInt64.size) :
    ofVariables (withVariable lookup "SLIPWAY_EVENT_QUEUE" (toString n)) = .ok { c with eventQueue := n } := by
  generalize changed : withVariable lookup "SLIPWAY_EVENT_QUEUE" (toString n) = lookup'
  have same {key : String} (other : key ≠ "SLIPWAY_EVENT_QUEUE") : lookup' key = lookup key := by
    rw [← changed]
    exact if_neg other
  have kept {α : Type} {key : String} (other : key ≠ "SLIPWAY_EVENT_QUEUE") (read : String → Except String α)
      (fallback : α) : setting lookup' key read fallback = setting lookup key read fallback := by
    rw [setting, setting, same other]
  have queue (fallback : Nat) : setting lookup' "SLIPWAY_EVENT_QUEUE" (readBelow UInt64.size) fallback = .ok n := by
    have there : lookup' "SLIPWAY_EVENT_QUEUE" = some (toString n) := by
      rw [← changed]
      exact if_pos rfl
    have read : readBelow UInt64.size (toString n) = .ok n := by
      unfold readBelow
      rw [Text.trim_of_isWord (Text.isWord_toString n), Text.readNatural_toString small]
      rfl
    simp only [setting, there, read]
    rfl
  have format : readFormat lookup' = readFormat lookup := by
    rw [readFormat, readFormat, same (by decide), same (by decide)]
  obtain ⟨_, chain, h⟩ := of_bind_eq_ok accepted
  obtain ⟨_, address, h⟩ := of_bind_eq_ok h
  obtain ⟨_, port, h⟩ := of_bind_eq_ok h
  obtain ⟨_, files, h⟩ := of_bind_eq_ok h
  obtain ⟨_, _, h⟩ := of_bind_eq_ok h
  obtain ⟨_, written, h⟩ := of_bind_eq_ok h
  cases h
  rw [ofVariables, kept (by decide), chain, kept (by decide), address, kept (by decide), port, kept (by decide),
    files, queue, same (by decide), format, written]
  rfl

/-- The room asked for in the queue of the journal is never nothing, but only the numbers that can be written bound it.
There is no supervisor exactly if that is more than a channel can hold; and no such number is refused. -/
theorem supervisor_of_accepted (h : Channels channel) (accepted : ofVariables lookup = .ok c) :
    let room := (Mailbox.ofCapacity c.journal.capacity).capacity
    1 ≤ room ∧ room < UInt64.size ∧
    (room ≤ largestChannel →
      ∃ s, c.supervisor channel = some s ∧ s.mailboxes.map (·.capacity) = [room, Metrics.queueCapacity]) ∧
    (largestChannel < room → c.supervisor channel = none) ∧
    (largestChannel < room ↔ ∃ text n, lookup "SLIPWAY_EVENT_QUEUE" = some text ∧
      Text.readNatural UInt64.size (Text.trim text) = .ok n ∧ largestChannel < n) ∧
    ∀ n, largestChannel < n → n < UInt64.size →
      ∃ c', ofVariables (withVariable lookup "SLIPWAY_EVENT_QUEUE" (toString n)) = .ok c' ∧
        c'.supervisor channel = none := by
  intro room
  have raised : room = max c.eventQueue 1 := by simp [room, Mailbox.ofCapacity, journal, Journal.ofCapacity]
  have below := eventQueue_lt accepted
  have one : 1 ≤ largestChannel := by decide
  have size : 1 < UInt64.size := by decide
  have above : largestChannel < room ↔ largestChannel < c.eventQueue := by omega
  have made := supervisor_eq_ite h c
  refine ⟨by omega, by omega, fun within => ?_, fun beyond => ?_, ?_, fun n beyond small => ?_⟩
  · rw [if_pos (by omega)] at made
    refine ⟨_, made, ?_⟩
    rw [raised]
    rfl
  · rwa [if_neg (by omega)] at made
  · rw [above]
    exact largestChannel_lt_eventQueue_iff accepted
  · refine ⟨{ c with eventQueue := n }, ofVariables_withVariable accepted small, ?_⟩
    rw [supervisor_eq_ite h]
    exact if_neg (Nat.not_le.2 beyond)

/-- Channels as they are relied on. -/
def channelOf (n : Nat) : Option Mailbox :=
  if n = 0 ∨ largestChannel < n then none else some { capacity := n }

theorem channels_channelOf : Channels channelOf where
  refuses_iff n := by
    unfold channelOf
    split
    case isTrue refused => exact iff_of_true rfl refused
    case isFalse made => exact iff_of_false nofun made
  fresh {n m} made := by
    obtain ⟨_, same⟩ := Option.ite_none_left_eq_some.1 made
    exact (Option.some.inj same).symm

/-- The largest number with which there is a supervisor. -/
def filled : String → Option String
  | "SLIPWAY_EVENT_QUEUE" => some " +2305843009213693951\t"
  | _ => none

theorem supervisor_of_accepted_filled :
    let c : Configuration := { eventQueue := 2305843009213693951 }
    let room := (Mailbox.ofCapacity c.journal.capacity).capacity
    Channels channelOf ∧ ofVariables filled = .ok c ∧ room = largestChannel ∧
    1 ≤ room ∧ room < UInt64.size ∧
    (room ≤ largestChannel →
      ∃ s, c.supervisor channelOf = some s ∧ s.mailboxes.map (·.capacity) = [room, Metrics.queueCapacity]) ∧
    (largestChannel < room → c.supervisor channelOf = none) ∧
    (largestChannel < room ↔ ∃ text n, filled "SLIPWAY_EVENT_QUEUE" = some text ∧
      Text.readNatural UInt64.size (Text.trim text) = .ok n ∧ largestChannel < n) ∧
    ∀ n, largestChannel < n → n < UInt64.size →
      ∃ c', ofVariables (withVariable filled "SLIPWAY_EVENT_QUEUE" (toString n)) = .ok c' ∧
        c'.supervisor channelOf = none := by
  intro c
  have accepted : ofVariables filled = .ok c := by rfl
  have whole : (Mailbox.ofCapacity c.journal.capacity).capacity = largestChannel := by decide
  exact ⟨channels_channelOf, accepted, whole, supervisor_of_accepted channels_channelOf accepted⟩

/-- One more than a channel can hold. -/
def overfull : String → Option String
  | "SLIPWAY_EVENT_QUEUE" => some "2305843009213693952"
  | _ => none

theorem overfull_accepted : ∃ c, ofVariables overfull = .ok c ∧
    ¬ (Mailbox.ofCapacity c.journal.capacity).capacity ≤ largestChannel ∧ c.supervisor channelOf = none := by
  refine ⟨{ eventQueue := 2305843009213693952 }, by rfl, by decide, ?_⟩
  rw [supervisor_eq_ite channels_channelOf]
  exact if_neg (by decide)

end Configuration

end Switchyard
