import Switchyard.Proofs.Text.Stripping

/-!
Words set apart by single blanks are read back as they are.
-/
namespace Switchyard.Text

/-- Not empty and without a blank. -/
def IsWord (s : String) : Prop := s ≠ "" ∧ ∀ c ∈ s.toList, isBlank c = false

instance (s : String) : Decidable (IsWord s) :=
  -- not by trying every character there is
  have : Decidable (∀ c ∈ s.toList, isBlank c = false) := List.decidableBAll _ _
  inferInstanceAs (Decidable (_ ∧ _))

theorem IsWord.append {s t : String} (hs : IsWord s) (ht : ∀ c ∈ t.toList, isBlank c = false) : IsWord (s ++ t) := by
  refine ⟨fun none => hs.1 (String.append_eq_empty_iff.1 none).1, fun c hc => ?_⟩
  rw [String.toList_append, List.mem_append] at hc
  exact hc.elim (hs.2 c) (ht c)

theorem trim_of_isWord {s : String} (h : IsWord s) : trim s = s := by
  rw [trim, stripWhile_none h.2, String.ofList_toList]

theorem isBlank_of_isDigit {c : Char} (h : c.isDigit = true) : isBlank c = false := by
  have low : 48 ≤ c.toNat := (Char.isDigit_iff_toNat.1 h).1
  have high : c.toNat ≤ 57 := (Char.isDigit_iff_toNat.1 h).2
  simp only [isBlank, Bool.or_eq_false_iff, Bool.and_eq_false_iff, decide_eq_false_iff_not]
  omega

theorem isWord_toString (n : Nat) : IsWord (toString n) := by
  refine ⟨Nat.repr_ne_empty, fun c hc => isBlank_of_isDigit ?_⟩
  rw [Nat.toString_eq_repr, Nat.toList_repr] at hc
  exact Nat.isDigit_of_mem_toDigits (by decide) (by decide) hc

theorem toString_inj {m n : Nat} : toString m = toString n ↔ m = n := by
  refine ⟨fun same => ?_, congrArg toString⟩
  have digits : Nat.toDigits 10 m = Nat.toDigits 10 n := by
    rw [← Nat.toList_repr, ← Nat.toList_repr, ← Nat.toString_eq_repr, ← Nat.toString_eq_repr, same]
  rw [← Nat.ofDigitChars_ten_toDigits (n := m), digits, Nat.ofDigitChars_ten_toDigits]

theorem wordsFrom_append {begun w : List Char} (h : ∀ c ∈ w, isBlank c = false) (rest : List Char) :
    wordsFrom begun (w ++ rest) = wordsFrom (w.reverse ++ begun) rest := by
  induction w generalizing begun with
  | nil => rfl
  | cons c w ih =>
    obtain ⟨first, h⟩ := List.forall_mem_cons.1 h
    rw [List.cons_append, wordsFrom, first, if_neg Bool.false_ne_true, ih h]
    simp

/-- A blank ends a word whatever stands before it. -/
theorem wordsFrom_append_blank (begun s : List Char) {c : Char} (blank : isBlank c = true) (rest : List Char) :
    wordsFrom begun (s ++ c :: rest) = wordsFrom begun s ++ wordsFrom [] rest := by
  induction s generalizing begun with
  | nil =>
    simp only [List.nil_append, wordsFrom, blank, if_true]
    split <;> rfl
  | cons d s ih =>
    rw [List.cons_append, wordsFrom, wordsFrom]
    split
    case isTrue =>
      split
      case isTrue => exact ih []
      case isFalse => rw [ih, List.cons_append]
    case isFalse => exact ih (d :: begun)

theorem words_append_blank (s t : String) : words (s ++ " " ++ t) = words s ++ words t := by
  have space : " ".toList = [' '] := rfl
  rw [words, String.toList_append, String.toList_append, space, List.append_assoc, List.singleton_append,
    wordsFrom_append_blank _ _ rfl, List.map_append]
  rfl

theorem wordsFrom_word {s : String} (h : IsWord s) : wordsFrom [] s.toList = [s.toList] := by
  have read : wordsFrom [] (s.toList ++ []) = _ := wordsFrom_append h.2 []
  rw [List.append_nil, List.append_nil] at read
  rw [read, wordsFrom, if_neg (by simp [h.1]), List.reverse_reverse]

theorem words_eq_singleton {s : String} (h : IsWord s) : words s = [s] := by
  rw [words, wordsFrom_word h, List.map_singleton, String.ofList_toList]

theorem words_intercalate {ws : List String} (h : ∀ w ∈ ws, IsWord w) : words (" ".intercalate ws) = ws := by
  induction ws with
  | nil => rfl
  | cons w ws ih =>
    obtain ⟨first, h⟩ := List.forall_mem_cons.1 h
    cases ws with
    | nil => rw [String.intercalate_singleton, words_eq_singleton first]
    | cons w' ws =>
      rw [String.intercalate_cons_cons, words_append_blank, words_eq_singleton first, ih h, List.singleton_append]

end Switchyard.Text
