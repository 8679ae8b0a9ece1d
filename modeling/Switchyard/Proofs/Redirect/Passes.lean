import Mathlib.Data.Set.Card
import Switchyard.Proofs.Redirect.Convergence

/-!
Passes during which the packet filter refuses whichever commands it likes. Main statement: the pass leaves the mappings
that the routes ask for, counts what it changes, issues commands only for what it counts, and leaves nothing to do for a
second one.
-/
namespace Switchyard

namespace Operation

/-- The address a call is about. -/
def dest? : Operation → Option Address
  | .forward dest _ | .clear dest => some dest
  | .enable | .disable => none

end Operation

def Effect.command? : Effect → Option Command
  | .issue c => some c
  | _ => none

/-- The commands of a call, given the table at its start. -/
def Operation.commands (m : Mappings) (op : Operation) : List Command := (op.effects m).filterMap Effect.command?

namespace Mappings

/-- The commands of calls, oldest first, given the table at the start of the first. -/
def commands (m : Mappings) : List Operation → List Command
  | [] => []
  | op :: ops => op.commands m ++ commands (m.perform op) ops

variable {m m' : Mappings} {op : Operation} {ops : List Operation} {a b : Address}

/-- A call looks up its own address only. -/
theorem effects_congr (about : op.dest? = some a) (same : m'.find? a = m.find? a) : op.effects m' = op.effects m := by
  cases op with
  | enable => cases about
  | disable => cases about
  | clear dest =>
    cases about
    rw [Operation.effects, Operation.effects, Operation.effects.removal, Operation.effects.removal, same]
  | forward dest port =>
    cases about
    rw [Operation.effects, Operation.effects, Operation.effects.removal, Operation.effects.removal, same]

theorem find?_perform_of_ne (about : op.dest? = some b) (other : a ≠ b) : (m.perform op).find? a = m.find? a := by
  cases op with
  | enable => cases about
  | disable => cases about
  | clear dest =>
    cases about
    rw [perform_clear, Dictionary.find?_erase_of_ne _ other]
  | forward dest port =>
    cases about
    rw [perform_forward, Dictionary.find?_insert_of_ne _ _ other]

theorem commands_append (m : Mappings) (ops ops' : List Operation) :
    m.commands (ops ++ ops') = m.commands ops ++ (m.performAll ops).commands ops' := by
  induction ops generalizing m with
  | nil => rfl
  | cons op ops ih =>
    rw [List.cons_append, commands, commands, ih, List.append_assoc]
    rfl

theorem commands_snoc (m : Mappings) (ops : List Operation) (op : Operation) :
    m.commands (ops ++ [op]) = m.commands ops ++ op.commands (m.performAll ops) := by
  rw [commands_append, commands, commands, List.append_nil]

/-- Calls about different addresses do not see each other. -/
theorem commands_of_apart (about : ∀ op ∈ ops, op.dest?.isSome) (apart : (ops.map Operation.dest?).Nodup) :
    m.commands ops = ops.flatMap (·.commands m) := by
  induction ops generalizing m with
  | nil => rfl
  | cons op ops ih =>
    obtain ⟨named, about⟩ := List.forall_mem_cons.1 about
    obtain ⟨fresh, apart⟩ := List.nodup_cons.1 apart
    have unseen : ops.flatMap (·.commands (m.perform op)) = ops.flatMap (·.commands m) := by
      refine List.flatMap_congr fun op' hop => ?_
      obtain ⟨b, hb⟩ := Option.isSome_iff_exists.1 named
      obtain ⟨a, ha⟩ := Option.isSome_iff_exists.1 (about op' hop)
      have other : a ≠ b := fun same => fresh (hb ▸ same ▸ ha ▸ List.mem_map_of_mem hop)
      rw [Operation.commands, Operation.commands, effects_congr ha (find?_perform_of_ne hb other)]
    rw [commands, ih about apart, unseen, List.flatMap_cons]

end Mappings

namespace Redirector

/-- The parts of a call, one after the other. Before any of them the packet filter may begin or cease to refuse. -/
inductive Applies : Redirector → List Effect → Redirector → Prop
  | done {t : Redirector} : Applies t [] t
  | verdict {t t' : Redirector} {es : List Effect} (refusing : Bool) (h : Applies { t with refusing } es t') :
      Applies t es t'
  | apply {t t' : Redirector} {e : Effect} {es : List Effect} (h : Applies (t.apply e) es t') : Applies t (e :: es) t'

/-- Calls, one after the other, with nobody else calling. -/
inductive Performs : Redirector → List Operation → Redirector → Prop
  | done {t : Redirector} : Performs t [] t
  | call {t t' t'' : Redirector} {op : Operation} {ops : List Operation}
      (first : Applies t (op.effects t.mappings) t') (rest : Performs t' ops t'') : Performs t (op :: ops) t''

/-- A pass with nobody else calling. -/
def Converges (t : Redirector) (s : Store) (port : UInt16) (t' : Redirector) : Prop :=
  t.Performs (t.converge s port).1.operations t'

variable {t t' t'' : Redirector} {es : List Effect} {ops : List Operation} {s : Store} {port : UInt16} {a : Address}

theorem applies_foldl (es : List Effect) (t : Redirector) : t.Applies es (es.foldl apply t) := by
  induction es generalizing t with
  | nil => exact .done
  | cons e es ih => exact .apply (ih _)

theorem performs_performAll (ops : List Operation) (t : Redirector) : t.Performs ops (t.performAll ops) := by
  induction ops generalizing t with
  | nil => exact .done
  | cons op ops ih => exact .call (applies_foldl _ t) (ih _)

/-- The pass that is made when the packet filter does not change its mind. -/
theorem converges_converge (t : Redirector) (s : Store) (port : UInt16) :
    t.Converges s port (t.converge s port).2 := performs_performAll _ t

/-! ### What refusals cannot change -/

theorem Applies.mappings (h : t.Applies es t') : t'.mappings = es.foldl Mappings.apply t.mappings := by
  induction h with
  | done => rfl
  | verdict _ _ ih => exact ih
  | apply _ ih => rw [ih, mappings_apply, List.foldl_cons]

theorem Applies.issued (h : t.Applies es t') :
    ∃ new, t'.issued = new ++ t.issued ∧ new.map Prod.fst = (es.filterMap Effect.command?).reverse := by
  induction h with
  | done => exact ⟨[], rfl, rfl⟩
  | verdict _ _ ih => exact ih
  | @apply t t' e es _ ih =>
    obtain ⟨new, issued, commands⟩ := ih
    cases e with
    | issue c =>
      refine ⟨new ++ [(c, !t.refusing)], ?_, ?_⟩
      · rw [issued, List.append_assoc]
        rfl
      · have first : (Effect.issue c).command? = some c := rfl
        rw [List.map_append, commands, List.filterMap_cons_some first, List.reverse_cons]
        rfl
    | _ => exact ⟨new, issued, commands⟩

theorem Performs.mappings (h : t.Performs ops t') : t'.mappings = t.mappings.performAll ops := by
  induction h with
  | done => rfl
  | call first _ ih =>
    rw [ih, first.mappings]
    rfl

theorem Performs.issued (h : t.Performs ops t') :
    ∃ new, t'.issued = new ++ t.issued ∧ new.map Prod.fst = (t.mappings.commands ops).reverse := by
  induction h with
  | done => exact ⟨[], rfl, rfl⟩
  | @call t t' t'' op ops first _ ih =>
    obtain ⟨before, issued, commands⟩ := first.issued
    obtain ⟨after, issued', commands'⟩ := ih
    have table : t'.mappings = t.mappings.perform op := first.mappings
    refine ⟨after ++ before, by rw [issued', issued, List.append_assoc], ?_⟩
    rw [List.map_append, commands', commands, table, Mappings.commands, List.reverse_append]
    rfl

end Redirector

/-- The store asks for this address to be redirected. -/
def Store.Wants (s : Store) (a : Address) : Prop :=
  ∃ table ∈ s.allTables, ∃ r ∈ table.routes, r.action = .redirect ∧ r.proto = a.proto ∧ Ipv4.ofText? r.ip = some a.ip

namespace Store

variable {s : Store} {a : Address} {port p : UInt16}

theorem wants_iff : s.Wants a ↔ ∃ r ∈ s.redirects, r.proto = a.proto ∧ Ipv4.ofText? r.ip = some a.ip := by
  have given {r : Route} {ip : Ipv4} (read : Ipv4.ofText? r.ip = some ip) : r.ip ≠ "" := by
    intro none
    rw [none] at read
    cases read
  constructor
  · rintro ⟨table, ht, r, hr, action, proto, read⟩
    refine ⟨r, List.mem_flatMap.2 ⟨table, ht, List.mem_filter.2 ⟨hr, ?_⟩⟩, proto, read⟩
    simp [Route.isRedirect, action, given read]
  · rintro ⟨r, hr, proto, read⟩
    obtain ⟨table, ht, hr⟩ := List.mem_flatMap.1 hr
    obtain ⟨hr, redirect⟩ := List.mem_filter.1 hr
    exact ⟨table, ht, r, hr, of_decide_eq_true (Bool.and_eq_true_iff.1 redirect).1, proto, read⟩

theorem find?_wanted : (wantedMappings s.redirects port).find? a = some p ↔ p = port ∧ s.Wants a := by
  rw [find?_wantedMappings, wants_iff]

theorem contains_wanted : (wantedMappings s.redirects port).contains a = true ↔ s.Wants a := by
  rw [Dictionary.contains, Option.isSome_iff_exists]
  constructor
  · rintro ⟨p, held⟩
    exact (find?_wanted.1 held).2
  · intro wants
    exact ⟨port, find?_wanted.2 ⟨rfl, wants⟩⟩

end Store

namespace Convergence

variable {current wanted : Mappings} {a : Address} {p : UInt16}

theorem removals_eq : (between current wanted).removals =
    (current.keys.filter fun a => !wanted.contains a).map .clear := rfl

theorem installs_eq : (between current wanted).installs =
    (wanted.entries.filter fun e => current.find? e.1 ≠ some e.2).map fun e => .forward e.1 e.2 := rfl

theorem dest?_operations : (between current wanted).operations.map Operation.dest? =
    (current.keys.filter (fun a => !wanted.contains a) ++
      (wanted.entries.filter fun e => current.find? e.1 ≠ some e.2).map Prod.fst).map some := by
  rw [operations, removals_eq, installs_eq, List.map_append, List.map_append, List.map_map, List.map_map, List.map_map]
  rfl

/-- What is removed is not wanted, and what is installed is. -/
theorem nodup_operations : ((between current wanted).operations.map Operation.dest?).Nodup := by
  rw [dest?_operations]
  refine List.Nodup.map (Option.some_injective _) (List.nodup_append'.2 ⟨current.nodup_keys.filter _, ?_, ?_⟩)
  · exact wanted.nodup_keys.sublist (List.filter_sublist.map _)
  · intro a removed installed
    obtain ⟨e, he, rfl⟩ := List.mem_map.1 installed
    have unwanted : wanted.contains e.1 = false := by simpa using (List.mem_filter.1 removed).2
    have known : e.1 ∈ wanted.keys := List.mem_map_of_mem (List.mem_of_mem_filter he)
    exact Bool.eq_false_iff.1 unwanted (Dictionary.contains_iff_mem_keys.2 known)

theorem about_operations : ∀ op ∈ (between current wanted).operations, op.dest?.isSome := by
  intro op hop
  have mem := List.mem_map_of_mem (f := Operation.dest?) hop
  rw [dest?_operations] at mem
  obtain ⟨a, _, about⟩ := List.mem_map.1 mem
  rw [← about]
  rfl

/-- A command of a pass takes away a mapping that is not wanted as it is, or puts one that is wanted and not there. -/
theorem mem_commands {c : Command} (h : c ∈ (between current wanted).operations.flatMap (·.commands current)) :
    (∃ a p, c = .remove a p ∧ current.find? a = some p ∧ wanted.find? a ≠ some p) ∨
      ∃ a p, c = .append a p ∧ wanted.find? a = some p ∧ current.find? a ≠ some p := by
  have removal {dest : Address} (mem : c ∈ (Operation.effects.removal current dest).filterMap Effect.command?) :
      ∃ p, c = .remove dest p ∧ current.find? dest = some p := by
    rw [Operation.effects.removal] at mem
    split at mem
    next p held =>
      have only : c = .remove dest p := by simpa [Effect.command?, eq_comm] using mem
      exact ⟨p, only, held⟩
    next => cases mem
  obtain ⟨op, hop, mem⟩ := List.mem_flatMap.1 h
  rw [operations, removals_eq, installs_eq, List.mem_append, List.mem_map, List.mem_map] at hop
  rcases hop with ⟨a, ha, rfl⟩ | ⟨⟨a, p⟩, he, rfl⟩
  · obtain ⟨p, rfl, held⟩ := removal mem
    have unwanted : wanted.contains a = false := by simpa using (List.mem_filter.1 ha).2
    refine .inl ⟨a, p, rfl, held, fun want => ?_⟩
    rw [Dictionary.contains, want] at unwanted
    cases unwanted
  · obtain ⟨entry, wrong⟩ := List.mem_filter.1 he
    have want : wanted.find? a = some p := Dictionary.mem_entries_iff.1 entry
    have wrong : current.find? a ≠ some p := of_decide_eq_true wrong
    rw [Operation.commands, Operation.effects, List.filterMap_append, List.mem_append] at mem
    rcases mem with mem | mem
    · obtain ⟨q, rfl, held⟩ := removal mem
      refine .inl ⟨a, q, rfl, held, fun same => wrong ?_⟩
      rw [held, ← same, want]
    · have only : c = .append a p := by simpa [Effect.command?, eq_comm] using mem
      exact .inr ⟨a, p, only, want, wrong⟩

end Convergence

namespace Redirector

variable {t t' t'' : Redirector} {s : Store} {port : UInt16}

theorem length_installs (t : Redirector) (s : Store) (port : UInt16) :
    (t.converge s port).1.installs.length = {a | s.Wants a ∧ t.mappings.find? a ≠ some port}.ncard := by
  have once := (wantedMappings s.redirects port).nodup_keys.sublist
    ((List.filter_sublist (p := fun e => t.mappings.find? e.1 ≠ some e.2)).map Prod.fst)
  rw [converge, Convergence.installs_eq, List.length_map, ← List.length_map Prod.fst]
  refine (ncard_of_nodup once fun a => ?_).symm
  simp only [List.mem_map, List.mem_filter, decide_eq_true_eq, Prod.exists, exists_and_right, exists_eq_right,
    Dictionary.mem_entries_iff, Store.find?_wanted]
  constructor
  · rintro ⟨p, ⟨rfl, wants⟩, wrong⟩
    exact ⟨wants, wrong⟩
  · rintro ⟨wants, wrong⟩
    exact ⟨port, ⟨rfl, wants⟩, wrong⟩

theorem length_removals (t : Redirector) (s : Store) (port : UInt16) :
    (t.converge s port).1.removals.length = {a | a ∈ t.mappings.keys ∧ ¬ s.Wants a}.ncard := by
  rw [converge, Convergence.removals_eq, List.length_map]
  refine (ncard_of_nodup (t.mappings.nodup_keys.filter _) fun a => ?_).symm
  have wanted : (wantedMappings s.redirects port).contains a = true ↔ s.Wants a := Store.contains_wanted
  rw [List.mem_filter, Bool.not_eq_true', ← wanted, Bool.not_eq_true]

theorem Converges.mappings (h : t.Converges s port t') : t'.mappings = wantedMappings s.redirects port :=
  (Performs.mappings h).trans (Mappings.performAll_between _ _)

theorem Converges.issued (h : t.Converges s port t') : ∃ new, t'.issued = new ++ t.issued ∧
    ∀ c ∈ new.map Prod.fst,
      (∃ a p, c = .remove a p ∧ t.mappings.find? a = some p ∧ ¬ (p = port ∧ s.Wants a)) ∨
        ∃ a, c = .append a port ∧ s.Wants a ∧ t.mappings.find? a ≠ some port := by
  obtain ⟨new, issued, commands⟩ := Performs.issued h
  refine ⟨new, issued, fun c hc => ?_⟩
  rw [commands, List.mem_reverse, converge,
    Mappings.commands_of_apart Convergence.about_operations Convergence.nodup_operations] at hc
  rcases Convergence.mem_commands hc with ⟨a, p, rfl, held, unwanted⟩ | ⟨a, p, rfl, want, wrong⟩
  · exact .inl ⟨a, p, rfl, held, fun want => unwanted (Store.find?_wanted.2 want)⟩
  · obtain ⟨rfl, wants⟩ := Store.find?_wanted.1 want
    exact .inr ⟨a, rfl, wants, wrong⟩

/-- Between a table and itself there is nothing to do. -/
theorem converge_of_mappings (h : t.mappings = wantedMappings s.redirects port) :
    (t.converge s port).1 = ⟨[], []⟩ := by
  have nothing : Convergence.between t.mappings t.mappings = ⟨[], []⟩ := by
    rw [Convergence.between, Convergence.mk.injEq, List.map_eq_nil_iff, List.map_eq_nil_iff]
    constructor
    · refine List.filter_eq_nil_iff.2 fun a known => ?_
      simp [Dictionary.contains_iff_mem_keys.2 known]
    · refine List.filter_eq_nil_iff.2 fun e entry => ?_
      simp [Dictionary.mem_entries_iff.1 entry]
  rw [converge, ← h, nothing]

/-- Whatever the table held and whichever commands are refused. -/
theorem pass_exact (h : t.Converges s port t') :
    (∀ a p, t'.mappings.find? a = some p ↔ p = port ∧ s.Wants a) ∧
    (t.converge s port).1.installs.length = {a | s.Wants a ∧ t.mappings.find? a ≠ some port}.ncard ∧
    (t.converge s port).1.removals.length = {a | a ∈ t.mappings.keys ∧ ¬ s.Wants a}.ncard ∧
    (∃ new, t'.issued = new ++ t.issued ∧ ∀ c ∈ new.map Prod.fst,
      (∃ a p, c = .remove a p ∧ t.mappings.find? a = some p ∧ ¬ (p = port ∧ s.Wants a)) ∨
        ∃ a, c = .append a port ∧ s.Wants a ∧ t.mappings.find? a ≠ some port) ∧
    (t'.converge s port).1.installs.length = 0 ∧ (t'.converge s port).1.removals.length = 0 ∧
    ∀ t'', t'.Converges s port t'' → t'' = t' := by
  have idle := converge_of_mappings h.mappings
  refine ⟨fun a p => ?_, length_installs t s port, length_removals t s port, h.issued, ?_, ?_, fun t'' second => ?_⟩
  · rw [h.mappings, Store.find?_wanted]
  · rw [idle]
    rfl
  · rw [idle]
    rfl
  · rw [Converges, idle] at second
    cases second
    rfl

/-- One mapping to another port, one that is not wanted, and one that is right. -/
def leftovers : Redirector where
  chain := "SLIPWAY"
  mappings := Dictionary.ofList
    [(⟨.tcp, ⟨10, 0, 0, 1⟩⟩, 1), (⟨.tcp, ⟨10, 0, 0, 3⟩⟩, 15000), (⟨.udp, ⟨10, 0, 0, 9⟩⟩, 15000)]

/-- Addresses repeated, one that is not to be redirected, and one that is not IPv4. -/
def overlapping : Store :=
  (({} : Store).update { name := "t", routes := [{ ip := "10.0.0.1" }, { ip := "10.0.0.3" }, { ip := "::1" }] }).update
    { name := "u", routes := [{ ip := "10.0.0.2", proto := .udp }, { ip := "10.0.0.1" },
      { ip := "10.0.0.4", action := .dontRedirect }] }

/-- The first command is refused, and the others are not. -/
theorem pass_exact_refused : ∃ t', leftovers.Converges overlapping 15000 t' ∧
    t'.issued = [(.append ⟨.udp, ⟨10, 0, 0, 2⟩⟩ 15000, true), (.append ⟨.tcp, ⟨10, 0, 0, 1⟩⟩ 15000, true),
      (.remove ⟨.tcp, ⟨10, 0, 0, 1⟩⟩ 1, true), (.remove ⟨.udp, ⟨10, 0, 0, 9⟩⟩ 15000, false)] ∧
    (∀ a p, t'.mappings.find? a = some p ↔ p = 15000 ∧ overlapping.Wants a) ∧
    {a | overlapping.Wants a ∧ leftovers.mappings.find? a ≠ some 15000}.ncard = 2 ∧
    {a | a ∈ leftovers.mappings.keys ∧ ¬ overlapping.Wants a}.ncard = 1 ∧
    ∀ t'', t'.Converges overlapping 15000 t'' → t'' = t' := by
  have calls : (leftovers.converge overlapping 15000).1 = ⟨[.clear ⟨.udp, ⟨10, 0, 0, 9⟩⟩],
      [.forward ⟨.tcp, ⟨10, 0, 0, 1⟩⟩ 15000, .forward ⟨.udp, ⟨10, 0, 0, 2⟩⟩ 15000]⟩ := by
    have evaluated : (leftovers.converge overlapping 15000).1.removals = [.clear ⟨.udp, ⟨10, 0, 0, 9⟩⟩] ∧
        (leftovers.converge overlapping 15000).1.installs =
          [.forward ⟨.tcp, ⟨10, 0, 0, 1⟩⟩ 15000, .forward ⟨.udp, ⟨10, 0, 0, 2⟩⟩ 15000] := by decide +kernel
    rw [← evaluated.1, ← evaluated.2]
  obtain ⟨t', pass, issued⟩ : ∃ t', leftovers.Converges overlapping 15000 t' ∧
      t'.issued = [(.append ⟨.udp, ⟨10, 0, 0, 2⟩⟩ 15000, true), (.append ⟨.tcp, ⟨10, 0, 0, 1⟩⟩ 15000, true),
        (.remove ⟨.tcp, ⟨10, 0, 0, 1⟩⟩ 1, true), (.remove ⟨.udp, ⟨10, 0, 0, 9⟩⟩ 15000, false)] := by
    simp only [Converges, calls]
    exact ⟨_, .call (.verdict true (applies_foldl _ _))
      (.call (.verdict false (applies_foldl _ _)) (performs_performAll _ _)), by decide +kernel⟩
  obtain ⟨table, installs, removals, _, _, _, second⟩ := pass_exact pass
  rw [calls] at installs removals
  exact ⟨t', pass, issued, table, installs.symm, removals.symm, second⟩

end Redirector

end Switchyard
