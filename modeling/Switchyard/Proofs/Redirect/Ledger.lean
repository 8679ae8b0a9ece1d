import Switchyard.Proofs.Redirect.Arguments
import Switchyard.Proofs.Redirect.Chain
import Switchyard.Proofs.Redirect.Passes

/-!
The lines that the redirector has issued, read as a ledger. Main statement: the redirects of an address are put in and
taken out in turn, each with the port it was put in with, and the table holds the one that is not taken out.
-/
namespace Switchyard

/-- How the redirects of an address begin, whatever the port. -/
def Rule.redirectOf (a : Address) : Rule :=
  ["-j", "REDIRECT", "--dest", a.ip.text ++ "/32", "-p", a.proto.text]

theorem Rule.redirectOf_prefix {a b : Address} {port : UInt16} : redirectOf a <+: redirect b port ↔ b = a := by
  simp only [redirectOf, redirect, List.cons_prefix_cons, List.nil_prefix, and_true, true_and, String.append_left_inj,
    Ipv4.text_inj, Protocol.text_inj]
  cases a
  cases b
  rw [Address.mk.injEq, and_comm, eq_comm, @eq_comm _ _ (_ : Ipv4)]

/-- The address that a command begins or ceases to redirect. -/
def Command.dest? : Command → Option Address
  | .append dest _ | .remove dest _ => some dest
  | _ => none

namespace Ledger

/-- The line that puts a redirect into the chain. -/
def opening (chain : String) (a : Address) (port : UInt16) : List String :=
  "-A" :: (Text.words chain ++ Rule.redirect a port)

/-- The line that takes it out. -/
def closing (chain : String) (a : Address) (port : UInt16) : List String :=
  "-D" :: (Text.words chain ++ Rule.redirect a port)

/-- Whether a line is about a redirect of the address in the chain. -/
def concerns (chain : String) (a : Address) (line : List String) : Bool :=
  (Text.words chain ++ Rule.redirectOf a).isPrefixOf line.tail

variable {chain : String} {a b : Address} {m : Mappings}

theorem arguments_append (chain : String) (a : Address) (port : UInt16) :
    (Command.append a port).arguments chain = opening chain a port := Command.arguments_eq_append chain _

theorem arguments_remove (chain : String) (a : Address) (port : UInt16) :
    (Command.remove a port).arguments chain = closing chain a port := Command.arguments_eq_append chain _

theorem opening_inj {p q : UInt16} : opening chain a p = opening chain a q ↔ p = q := by
  rw [opening, opening, List.cons.injEq, List.append_cancel_left_eq, Rule.redirect_inj]
  simp

theorem opening_ne_closing {p q : UInt16} : opening chain a p ≠ closing chain b q := by
  simp [opening, closing]

/-- A line says by itself which address it is about, whatever the chain is called. -/
theorem concerns_arguments (chain : String) (a : Address) (c : Command) :
    concerns chain a (c.arguments chain) = decide (c.dest? = some a) := by
  rw [Bool.eq_iff_iff, decide_eq_true_iff, concerns, List.isPrefixOf_iff_prefix, Command.arguments_eq_append]
  -- with nothing behind the name of the chain there are too few words
  have short {before : List String} (few : before.length ≤ 3) :
      ¬ Text.words chain ++ Rule.redirectOf a <+: before ++ Text.words chain := fun front => by
    have longer := front.length_le
    have six : (Rule.redirectOf a).length = 6 := rfl
    rw [List.length_append, List.length_append] at longer
    omega
  cases c with
  | unhook h =>
    have few : [h.text, "-j"].length ≤ 3 := by simp
    simpa [Command.leading, Command.trailing, Command.dest?] using short few
  | hook h =>
    have few : [h.text, "1", "-j"].length ≤ 3 := by simp
    simpa [Command.leading, Command.trailing, Command.dest?] using short few
  | append dest port | remove dest port =>
    simpa [Command.leading, Command.trailing, Command.dest?] using Rule.redirectOf_prefix
  | exempt => simp [Command.leading, Command.trailing, Command.dest?, Rule.redirectOf, Rule.loopback]
  | create | empty | destroy =>
    have few : ([] : List String).length ≤ 3 := Nat.zero_le 3
    simpa [Command.leading, Command.trailing, Command.dest?] using short few

/-- The commands about an address: each redirect but the last is put in and taken out, and the last is the one held. -/
def Balanced (a : Address) (cs : List Command) (held : Option UInt16) : Prop :=
  ∃ past : List UInt16, cs.filter (·.dest? = some a) =
    past.flatMap (fun p => [.append a p, .remove a p]) ++ held.toList.map (.append a)

namespace Balanced

variable {cs cs' : List Command} {held : Option UInt16} {port : UInt16} {op : Operation}

theorem start (a : Address) : Balanced a [] none := ⟨[], rfl⟩

theorem other (h : Balanced a cs held) (apart : ∀ c ∈ cs', c.dest? ≠ some a) : Balanced a (cs ++ cs') held := by
  obtain ⟨past, listed⟩ := h
  have none : cs'.filter (·.dest? = some a) = [] := by simpa using apart
  exact ⟨past, by rw [List.filter_append, none, List.append_nil, listed]⟩

theorem append (h : Balanced a cs none) (port : UInt16) : Balanced a (cs ++ [.append a port]) (some port) := by
  obtain ⟨past, listed⟩ := h
  refine ⟨past, ?_⟩
  rw [List.filter_append, listed]
  simp [Command.dest?]

theorem remove (h : Balanced a cs (some port)) : Balanced a (cs ++ [.remove a port]) none := by
  obtain ⟨past, listed⟩ := h
  refine ⟨past ++ [port], ?_⟩
  rw [List.filter_append, listed]
  simp [Command.dest?]

theorem removal (h : Balanced a cs (m.find? a)) (dest : Address) :
    Balanced a (cs ++ (Operation.effects.removal m dest).filterMap Effect.command?) ((m.erase dest).find? a) := by
  rw [Operation.effects.removal, Dictionary.find?_erase]
  cases found : m.find? dest with
  | none =>
    rw [List.filterMap_nil, List.append_nil]
    split
    case isTrue same =>
      subst same
      exact found ▸ h
    case isFalse => exact h
  | some port =>
    have only : [Effect.forget dest, .issue (.remove dest port)].filterMap Effect.command? = [.remove dest port] := rfl
    rw [only]
    split
    case isTrue same =>
      subst same
      exact (found ▸ h).remove
    case isFalse differ => exact h.other (by simpa [Command.dest?] using Ne.symm differ)

/-- A call keeps the balance. -/
theorem perform (h : Balanced a cs (m.find? a)) (up : op ≠ .disable) :
    Balanced a (cs ++ op.commands m) ((m.perform op).find? a) := by
  cases op with
  | disable => exact absurd rfl up
  | enable => exact h.other (by simp [Operation.commands, Operation.effects, Effect.command?, Command.dest?])
  | clear dest =>
    rw [Mappings.perform_clear]
    exact h.removal dest
  | forward dest port =>
    have calls : Operation.commands m (.forward dest port) =
        (Operation.effects.removal m dest).filterMap Effect.command? ++ [.append dest port] := by
      rw [Operation.commands, Operation.effects, List.filterMap_append]
      rfl
    have cleared := h.removal dest
    rw [calls, ← List.append_assoc, Mappings.perform_forward, Dictionary.find?_insert]
    rw [Dictionary.find?_erase] at cleared
    split at cleared
    case isTrue same =>
      subst same
      rw [if_pos rfl]
      exact cleared.append port
    case isFalse differ =>
      rw [if_neg differ]
      exact cleared.other (by simpa [Command.dest?] using Ne.symm differ)

/-- From an empty table, and as long as the chain is not taken down. -/
theorem performAll {ops : List Operation} (up : .disable ∉ ops) :
    Balanced a (Mappings.commands .empty ops) ((Mappings.performAll .empty ops).find? a) := by
  induction ops using List.reverseRecOn with
  | nil => exact start a
  | append_singleton ops op ih =>
    rw [List.mem_append, not_or, List.mem_singleton] at up
    rw [Mappings.commands_snoc, Mappings.performAll_snoc]
    exact (ih up.1).perform (Ne.symm up.2)

/-- The same of the lines. -/
theorem lines (h : Balanced a cs held) (chain : String) :
    ∃ past : List UInt16, (cs.map (Command.arguments chain)).filter (concerns chain a) =
      past.flatMap (fun p => [opening chain a p, closing chain a p]) ++ held.toList.map (opening chain a) := by
  obtain ⟨past, listed⟩ := h
  refine ⟨past, ?_⟩
  have about : concerns chain a ∘ Command.arguments chain = fun c => decide (c.dest? = some a) :=
    funext (concerns_arguments chain a)
  rw [List.filter_map, about, listed, List.map_append, List.map_flatMap, List.map_map]
  simp [Function.comp_def, arguments_append, arguments_remove]

end Balanced

/-- In such a ledger the last line opens the entry that is held, or closes the last that was. -/
theorem getLast?_eq_opening_iff (past : List UInt16) (held : Option UInt16) (port : UInt16) :
    (past.flatMap (fun p => [opening chain a p, closing chain a p]) ++ held.toList.map (opening chain a)).getLast? =
      some (opening chain a port) ↔ held = some port := by
  cases held with
  | some p => simp [opening_inj]
  | none =>
    induction past using List.reverseRecOn with
    | nil => simp
    | append_singleton past p ih => simp [opening_ne_closing.symm]

end Ledger

namespace Redirector

/-- The lines issued, oldest first. -/
def lines (t : Redirector) : List (List String) := (t.issued.map fun c => c.1.arguments t.chain).reverse

variable {t t' : Redirector} {es : List Effect} {ops : List Operation} {a : Address}

theorem Applies.chain (h : t.Applies es t') : t'.chain = t.chain := by
  induction h with
  | done => rfl
  | verdict _ _ ih => exact ih
  | apply _ ih => exact ih.trans (chain_apply _ _)

theorem Performs.chain (h : t.Performs ops t') : t'.chain = t.chain := by
  induction h with
  | done => rfl
  | call first _ ih => exact ih.trans first.chain

/-- Whatever is refused. -/
theorem Performs.lines (h : t.Performs ops t') :
    t'.lines = t.lines ++ (t.mappings.commands ops).map (Command.arguments t.chain) := by
  obtain ⟨new, issued, commands⟩ := h.issued
  have named : new.map (fun c => c.1.arguments t.chain) = (new.map Prod.fst).map (Command.arguments t.chain) := by
    rw [List.map_map]
    rfl
  rw [Redirector.lines, Redirector.lines, h.chain, issued, List.map_append, named, commands, List.map_reverse,
    List.reverse_append, List.reverse_reverse]

/-- A table is empty at first, and again when the chain has been taken down. -/
theorem Performs.mappings_down {chain : String} (h : ({ chain } : Redirector).Performs ops t)
    (down : ∀ op ∈ ops.getLast?, op = .disable) : t.mappings = .empty := by
  rw [h.mappings]
  cases ops using List.reverseRecOn with
  | nil => rfl
  | append_singleton ops op =>
    rw [down op (by simp), Mappings.performAll_snoc, Mappings.perform_disable]

theorem ledger_exact {chain : String} {before after : List Operation} {t₀ t : Redirector}
    (down : ∀ op ∈ before.getLast?, op = .disable) (up : .disable ∉ after)
    (earlier : ({ chain } : Redirector).Performs before t₀) (later : t₀.Performs after t) :
    (∃ since, t.lines = t₀.lines ++ since ∧ ∀ a,
      (∃ past : List UInt16, since.filter (Ledger.concerns chain a) =
        past.flatMap (fun p => [Ledger.opening chain a p, Ledger.closing chain a p]) ++
          (t.mappings.find? a).toList.map (Ledger.opening chain a)) ∧
      ∀ p, t.mappings.find? a = some p ↔
        (since.filter (Ledger.concerns chain a)).getLast? = some (Ledger.opening chain a p)) ∧
    (∀ a t', t.mappings.find? a = none → t.Performs [.clear a] t' → t'.lines = t.lines) ∧
    ∀ t₀' t', ({ chain } : Redirector).Performs before t₀' → t₀'.Performs after t' →
      t'.lines = t.lines ∧ t'.mappings = t.mappings := by
  have empty := earlier.mappings_down down
  have named : t₀.chain = chain := earlier.chain
  refine ⟨⟨_, later.lines, fun a => ?_⟩, fun a t' absent clearing => ?_, fun t₀' t' earlier' later' => ?_⟩
  · have balanced : Ledger.Balanced a (t₀.mappings.commands after) (t.mappings.find? a) := by
      rw [later.mappings, empty]
      exact Ledger.Balanced.performAll up
    obtain ⟨past, listed⟩ := balanced.lines chain
    rw [named]
    refine ⟨⟨past, listed⟩, fun p => ?_⟩
    rw [listed, Ledger.getLast?_eq_opening_iff]
  · have nothing : t.mappings.commands [.clear a] = [] := by
      simp [Mappings.commands, Operation.commands, Operation.effects, Operation.effects.removal, absent]
    rw [clearing.lines, nothing, List.map_nil, List.append_nil]
  · have named' : t₀'.chain = chain := earlier'.chain
    rw [later'.lines, later.lines, earlier'.lines, earlier.lines, later'.mappings, later.mappings, earlier'.mappings,
      earlier.mappings, named, named']
    exact ⟨rfl, rfl⟩

/-- One address under both protocols, behind a `disable`, with the packet filter refusing from the second call on. -/
theorem ledger_exact_refused :
    let web : Address := ⟨.tcp, ⟨10, 0, 0, 1⟩⟩
    let dns : Address := ⟨.udp, ⟨10, 0, 0, 1⟩⟩
    ∃ t₀ t since, ({ chain := "SLIPWAY" } : Redirector).Performs [.forward web 9, .disable] t₀ ∧
      t₀.Performs [.forward web 1, .forward dns 3, .forward web 2, .clear dns, .clear dns] t ∧
      t.issued.map Prod.snd = [false, false, false, false, true, true, true, true, true, true] ∧
      t.lines = t₀.lines ++ since ∧
      (since.filter (Ledger.concerns "SLIPWAY" web)).getLast? = some (Ledger.opening "SLIPWAY" web 2) ∧
      ∃ past : List UInt16, since.filter (Ledger.concerns "SLIPWAY" dns) =
        past.flatMap fun p => [Ledger.opening "SLIPWAY" dns p, Ledger.closing "SLIPWAY" dns p] := by
  intro web dns
  let t₀ := ({ chain := "SLIPWAY" } : Redirector).performAll [.forward web 9, .disable]
  have earlier : Performs { chain := "SLIPWAY" } _ t₀ := performs_performAll _ _
  obtain ⟨t, later, verdicts, held, absent⟩ : ∃ t, t₀.Performs _ t ∧
      t.issued.map Prod.snd = [false, false, false, false, true, true, true, true, true, true] ∧
      t.mappings.find? web = some 2 ∧ t.mappings.find? dns = none :=
    ⟨_, .call (applies_foldl ((Operation.forward web 1).effects _) _)
      (.call (.verdict true (applies_foldl ((Operation.forward dns 3).effects _) _))
        (performs_performAll [.forward web 2, .clear dns, .clear dns] _)), by decide +kernel⟩
  obtain ⟨⟨since, listed, ledger⟩, -⟩ := ledger_exact (by simp) (by simp) earlier later
  obtain ⟨past, closed⟩ := (ledger dns).1
  rw [absent, Option.toList_none, List.map_nil, List.append_nil] at closed
  exact ⟨_, t, since, earlier, later, verdicts, listed, ((ledger web).2 2).1 held, past, closed⟩

end Redirector

end Switchyard
