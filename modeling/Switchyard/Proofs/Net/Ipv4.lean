import Mathlib.Data.List.Induction
import Switchyard.Net.Ipv4
import Switchyard.Proofs.Text.Words

/-!
IPv4 addresses read back. Main statement: a text is read as an address exactly when it is what is written for that
address, so no two addresses are written alike.
-/
namespace Switchyard.Ipv4

theorem decimal_toDigits (n : Nat) : decimal (Nat.toDigits 10 n) = n := by
  have same : ∀ ds : List Char, ∀ init, ds.foldl (fun n c => n * 10 + (c.toNat - 48)) init =
      Nat.ofDigitChars 10 ds init := by
    intro ds
    induction ds with
    | nil => intro init; rfl
    | cons d ds ih =>
      intro init
      rw [List.foldl_cons, ih, Nat.ofDigitChars_cons, Nat.mul_comm]
      rfl
  rw [decimal, same, Nat.ofDigitChars_ten_toDigits]

/-- Only zero is written with a zero in front. -/
theorem head?_toDigits (n : Nat) (h : (Nat.toDigits 10 n).head? = some '0') : (Nat.toDigits 10 n).length = 1 := by
  induction n using Nat.strongRecOn with
  | ind n ih =>
    by_cases small : n < 10
    · rw [Nat.toDigits_of_lt_base small]
      rfl
    · exfalso
      rw [Nat.toDigits_of_base_le (by decide) (Nat.le_of_not_lt small)] at h
      have front : (Nat.toDigits 10 (n / 10)).head? = some '0' := by
        obtain ⟨d, ds, digits⟩ := List.exists_cons_of_ne_nil (Nat.toDigits_ne_nil (n := n / 10) (b := 10))
        rw [digits] at h ⊢
        exact h
      have single := ih (n / 10) (by omega) front
      -- a single digit in front is that of `n / 10` itself, which is not zero
      have digit : n / 10 < 10 := by
        have short := (Nat.length_toDigits_le_iff (by decide) (by decide)).1 (Nat.le_of_eq single)
        simpa using short
      have value := decimal_toDigits (n / 10)
      rw [Nat.toDigits_of_lt_base digit] at front value
      rw [List.head?_cons, Option.some.injEq] at front
      rw [front] at value
      have zero : n / 10 = 0 := value.symm
      omega

/-- What an octet written in decimal is accepted for. -/
theorem octet_toDigits (u : UInt8) :
    let ds := Nat.toDigits 10 u.toNat
    (ds.isEmpty || 3 < ds.length || (ds.head? = some '0' && ds.length ≠ 1) || 256 ≤ decimal ds) = false := by
  have small : u.toNat < 256 := u.toNat_lt
  have nonempty : (Nat.toDigits 10 u.toNat).isEmpty = false := by simp [Nat.toDigits_ne_nil]
  have short : (Nat.toDigits 10 u.toNat).length ≤ 3 :=
    (Nat.length_toDigits_le_iff (by decide) (by decide)).2 (by omega)
  have plain : ¬ (Nat.toDigits 10 u.toNat).head? = some '0' ∨ ¬ (Nat.toDigits 10 u.toNat).length ≠ 1 :=
    Decidable.not_and_iff_not_or_not.1 fun h => h.2 (head?_toDigits _ h.1)
  simp only [nonempty, decimal_toDigits, Bool.false_or, Bool.or_eq_false_iff, Bool.and_eq_false_iff,
    decide_eq_false_iff_not]
  exact ⟨⟨by omega, plain⟩, by omega⟩

theorem readOctet_toDigits (u : UInt8) {rest : List Char} (stop : ∀ c ∈ rest.head?, c.isDigit = false) :
    readOctet (Nat.toDigits 10 u.toNat ++ rest) = some (u, rest) := by
  have digits : ∀ c ∈ Nat.toDigits 10 u.toNat, c.isDigit = true := fun c hc =>
    Nat.isDigit_of_mem_toDigits (by decide) (by decide) hc
  have taken : (Nat.toDigits 10 u.toNat ++ rest).takeWhile Char.isDigit = Nat.toDigits 10 u.toNat := by
    rw [List.takeWhile_append_of_pos digits]
    cases rest with
    | nil => simp
    | cons c rest => simp [stop c rfl]
  have dropped : (Nat.toDigits 10 u.toNat ++ rest).dropWhile Char.isDigit = rest := by
    rw [List.dropWhile_append_of_pos digits]
    cases rest with
    | nil => rfl
    | cons c rest => simp [stop c rfl]
  have accepted := octet_toDigits u
  simp only [readOctet, taken, dropped]
  rw [if_neg (Bool.eq_false_iff.1 accepted), decimal_toDigits, UInt8.ofNat_toNat]

/-- An octet, a dot, and the rest. -/
theorem readOctet_dot (u : UInt8) (rest : List Char) :
    readOctet (Nat.toDigits 10 u.toNat ++ '.' :: rest) = some (u, '.' :: rest) := by
  refine readOctet_toDigits u fun c hc => ?_
  cases hc
  rfl

theorem toList_text (i : Ipv4) : i.text.toList = Nat.toDigits 10 i.a.toNat ++ '.' :: (Nat.toDigits 10 i.b.toNat ++
    '.' :: (Nat.toDigits 10 i.c.toNat ++ '.' :: Nat.toDigits 10 i.d.toNat)) := by
  have dot : ".".toList = ['.'] := rfl
  simp only [text, Nat.toString_eq_repr, String.toList_append, Nat.toList_repr, dot, List.append_assoc,
    List.cons_append, List.nil_append]

theorem read_text (i : Ipv4) : read i.text.toList = some (i, []) := by
  have last : readOctet (Nat.toDigits 10 i.d.toNat) = some (i.d, []) := by
    have whole : readOctet (Nat.toDigits 10 i.d.toNat ++ []) = some (i.d, []) := readOctet_toDigits i.d nofun
    rwa [List.append_nil] at whole
  simp only [read, toList_text, readOctet_dot, readDot, last, Option.bind_eq_bind, Option.bind_some]
  rfl

theorem ofText?_text (i : Ipv4) : ofText? i.text = some i := by
  rw [ofText?, read_text]

/-! ### Nothing else is read -/

theorem digitChar_of_isDigit {c : Char} (h : c.isDigit = true) : Nat.digitChar (c.toNat - 48) = c := by
  obtain ⟨low, high⟩ := Char.isDigit_iff_toNat.1 h
  have low : 48 ≤ c.toNat := low
  have high : c.toNat ≤ 57 := high
  refine Char.toNat_inj.1 ?_
  rw [Nat.toNat_digitChar_of_lt_ten (by omega)]
  omega

theorem decimal_snoc (ds : List Char) (c : Char) : decimal (ds ++ [c]) = 10 * decimal ds + (c.toNat - 48) := by
  rw [decimal, List.foldl_append, ← decimal, Nat.mul_comm]
  rfl

/-- Digits without a needless zero in front are those of their number. -/
theorem toDigits_decimal {ds : List Char} (digits : ∀ c ∈ ds, c.isDigit = true) (nonempty : ds ≠ [])
    (plain : ds.head? = some '0' → ds.length = 1) : Nat.toDigits 10 (decimal ds) = ds := by
  induction ds using List.reverseRecOn with
  | nil => exact absurd rfl nonempty
  | append_singleton ds c ih =>
    obtain ⟨digits, last⟩ := List.forall_mem_append.1 digits
    have last := last c List.mem_cons_self
    have small : c.toNat - 48 < 10 := by
      have high : c.toNat ≤ 57 := (Char.isDigit_iff_toNat.1 last).2
      omega
    cases ds with
    | nil =>
      have single : decimal ([] ++ [c]) = c.toNat - 48 := by rw [decimal_snoc]; exact Nat.zero_add _
      rw [single, Nat.toDigits_of_lt_base small, digitChar_of_isDigit last]
      rfl
    | cons d ds =>
      have front : d ≠ '0' := fun zero => by simp [zero] at plain
      have front' : (d :: ds).head? ≠ some '0' := fun zero => front (Option.some.inj zero)
      have before := ih digits (List.cons_ne_nil d ds) fun zero => absurd zero front'
      -- the digits before the last one are those of a number that is not zero
      have positive : 0 < decimal (d :: ds) := by
        refine Nat.pos_of_ne_zero fun zero => front' ?_
        rw [← before, zero]
        rfl
      rw [decimal_snoc, ← Nat.toDigits_append_toDigits (by decide) positive small, before,
        Nat.toDigits_of_lt_base small, digitChar_of_isDigit last]

theorem readOctet_eq_some {s rest : List Char} {u : UInt8} (h : readOctet s = some (u, rest)) :
    s = Nat.toDigits 10 u.toNat ++ rest := by
  obtain ⟨accepted, h⟩ := Option.ite_none_left_eq_some.1 h
  cases h
  simp only [Bool.or_eq_true, Bool.and_eq_true, List.isEmpty_iff, decide_eq_true_eq, not_or, not_and, Nat.not_le,
    Decidable.not_not] at accepted
  obtain ⟨⟨⟨nonempty, _⟩, plain⟩, small⟩ := accepted
  have digits : ∀ c ∈ s.takeWhile Char.isDigit, c.isDigit = true := List.all_eq_true.1 List.all_takeWhile
  rw [UInt8.toNat_ofNat_of_lt' small, toDigits_decimal digits nonempty plain, List.takeWhile_append_dropWhile]

theorem readDot_eq_some {s rest : List Char} (h : readDot s = some rest) : s = '.' :: rest := by
  unfold readDot at h
  split at h
  next =>
    cases h
    rfl
  next => cases h

theorem read_eq_some {s rest : List Char} {i : Ipv4} (h : read s = some (i, rest)) : s = i.text.toList ++ rest := by
  obtain ⟨⟨a, r₁⟩, first, h⟩ := Option.bind_eq_some_iff.1 h
  obtain ⟨s₁, dot₁, h⟩ := Option.bind_eq_some_iff.1 h
  obtain ⟨⟨b, r₂⟩, second, h⟩ := Option.bind_eq_some_iff.1 h
  obtain ⟨s₂, dot₂, h⟩ := Option.bind_eq_some_iff.1 h
  obtain ⟨⟨c, r₃⟩, third, h⟩ := Option.bind_eq_some_iff.1 h
  obtain ⟨s₃, dot₃, h⟩ := Option.bind_eq_some_iff.1 h
  obtain ⟨⟨d, r₄⟩, fourth, h⟩ := Option.bind_eq_some_iff.1 h
  cases h
  rw [readOctet_eq_some first, readDot_eq_some dot₁, readOctet_eq_some second, readDot_eq_some dot₂,
    readOctet_eq_some third, readDot_eq_some dot₃, readOctet_eq_some fourth, toList_text]
  simp only [List.append_assoc, List.cons_append]

theorem ofText?_eq_some_iff {s : String} {i : Ipv4} : ofText? s = some i ↔ s = i.text := by
  refine ⟨fun h => ?_, fun h => h ▸ ofText?_text i⟩
  unfold ofText? at h
  split at h
  next found =>
    cases h
    have written := read_eq_some found
    rw [List.append_nil] at written
    exact String.toList_inj.1 written
  next => cases h

theorem text_inj {i j : Ipv4} : i.text = j.text ↔ i = j := by
  refine ⟨fun same => Option.some.inj ?_, congrArg text⟩
  rw [← ofText?_text i, same, ofText?_text]

theorem isWord_text (i : Ipv4) : Text.IsWord i.text := by
  have number := fun u : UInt8 => Text.isWord_toString u.toNat
  have dot : ∀ c ∈ ".".toList, Text.isBlank c = false := (by decide : Text.IsWord ".").2
  have octet (u : UInt8) : ∀ c ∈ (toString u.toNat).toList, Text.isBlank c = false := (number u).2
  exact ((((((number i.a).append dot).append (octet _)).append dot).append (octet _)).append dot).append (octet _)

end Switchyard.Ipv4
