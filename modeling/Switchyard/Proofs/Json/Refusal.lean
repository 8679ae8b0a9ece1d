import Mathlib.Data.List.DropRight
import Mathlib.Data.List.Infix
import Mathlib.Data.List.TakeWhile
import Switchyard.Proofs.Json.RoundTrip

/-!
What readers refuse. A reader settles a value by what it takes, so more input behind it changes nothing. Main
statements: what is left of an accepted list when some of it is cut off is refused, and so is a list with a value of
another shape at any place.
-/
namespace Switchyard

theorem of_bind_eq_ok {ε α β : Type} {x : Except ε α} {f : α → Except ε β} {b : β} (h : x >>= f = .ok b) :
    ∃ a, x = .ok a ∧ f a = .ok b := by
  cases x with
  | error e => cases h
  | ok a => exact ⟨a, rfl, h⟩

theorem of_map_eq_ok {ε α β : Type} {x : Except ε α} {f : α → β} {b : β} (h : x.map f = .ok b) :
    ∃ a, x = .ok a ∧ f a = b := by
  cases x with
  | error e => cases h
  | ok a => exact ⟨a, rfl, Except.ok.inj h⟩

namespace Json

variable {α σ : Type} {i r r' t : Input} {s : Option Char}

/-! ### Symbols -/

theorem byteCount_append (i t : Input) : byteCount (i ++ t) = byteCount i + byteCount t := by
  induction i with
  | nil => simp [byteCount]
  | cons s i ih => cases s <;> simp [byteCount, ih] <;> omega

theorem shortOfFour_append (t : Input) (h : ¬ shortOfFour i = true) : shortOfFour (i ++ t) = false := by
  simp only [shortOfFour, List.take_append, byteCount_append, decide_eq_true_eq, decide_eq_false_iff_not] at *
  omega

theorem literalFrom_append {place done whole} {v : String} (h : literalFrom place done whole i = .ok (v, r)) :
    r <:+ i ∧ ∀ t, literalFrom place done whole (i ++ t) = .ok (v, r ++ t) := by
  fun_induction literalFrom place done whole i
  case case3 =>
    cases h
    exact ⟨List.suffix_cons _ _, fun _ => rfl⟩
  -- a symbol is a fault, or the literal goes on behind it
  all_goals first
    | cases h
    | rename_i ih
      obtain ⟨suffix, extend⟩ := ih h
      exact ⟨suffix.trans (List.suffix_cons _ _), fun t => by simp +zetaDelta [literalFrom, shortOfFour_append, *]⟩

theorem skipLiteralFrom_append {place} (h : skipLiteralFrom place i = .ok r) :
    r <:+ i ∧ ∀ t, skipLiteralFrom place (i ++ t) = .ok (r ++ t) := by
  fun_induction skipLiteralFrom place i
  case case3 =>
    cases h
    exact ⟨List.suffix_cons _ _, fun _ => rfl⟩
  all_goals first
    | cases h
    | rename_i ih
      obtain ⟨suffix, extend⟩ := ih h
      exact ⟨suffix.trans (List.suffix_cons _ _), fun t => by simp [skipLiteralFrom, shortOfFour_append, *]⟩

theorem skipWord_append {w : List Char} (h : skipWord w i = .ok r) :
    r <:+ i ∧ ∀ t, skipWord w (i ++ t) = .ok (r ++ t) := by
  fun_induction skipWord w i
  case case1 =>
    cases h
    exact ⟨List.suffix_refl _, fun t => by rw [skipWord]⟩
  case case3 ih =>
    obtain ⟨suffix, extend⟩ := ih h
    exact ⟨suffix.trans (List.suffix_cons _ _), fun t => by simp [skipWord, extend]⟩
  all_goals cases h

theorem dropWhile_append {p : Option Char → Bool} (h : i.dropWhile p ≠ []) (t : Input) :
    (i ++ t).takeWhile p = i.takeWhile p ∧ (i ++ t).dropWhile p = i.dropWhile p ++ t := by
  have left : (i.dropWhile p).isEmpty = false := by simpa using h
  constructor
  · have short : (i.takeWhile p).length ≠ i.length := fun all => h (by
      have whole := List.takeWhile_append_dropWhile (p := p) (l := i)
      have len := congrArg List.length whole
      rw [List.length_append, all] at len
      exact List.length_eq_zero_iff.1 (by omega))
    rw [List.takeWhile_append, if_neg short]
  · rw [List.dropWhile_append, left, if_neg Bool.false_ne_true]

theorem suffix_of_skipSpace (h : skipSpace i = r) : r <:+ i := h ▸ List.dropWhile_suffix _

theorem skipSpace_append (h : skipSpace i = s :: r) : r <:+ i ∧ ∀ t, skipSpace (i ++ t) = s :: (r ++ t) := by
  have left : skipSpace i ≠ [] := by simp [h]
  refine ⟨(List.suffix_cons s r).trans (suffix_of_skipSpace h), fun t => ?_⟩
  exact (dropWhile_append left t).2.trans (by rw [← skipSpace, h]; rfl)

/-- With more behind the input, `read'` takes what `read` takes, unless that was all there was. -/
def Extends (read read' : Reader α) : Prop :=
  ∀ ⦃i x r⦄, read i = .ok (x, r) → r <:+ i ∧ ∀ t, r ≠ [] → read' (i ++ t) = .ok (x, r ++ t)

/-- The same of what skips. -/
def Skips (skip skip' : Input → Except Fault Input) : Prop :=
  ∀ ⦃i r⦄, skip i = .ok r → r <:+ i ∧ ∀ t, r ≠ [] → skip' (i ++ t) = .ok (r ++ t)

/-- What is read is settled by what is taken, if something is left. -/
abbrev Local (read : Reader α) : Prop := Extends read read

abbrev LocalSkip (skip : Input → Except Fault Input) : Prop := Skips skip skip

/-- Where a symbol has been taken and the rest is skipped by `next`. -/
theorem Skips.behind {next next' skip' : Input → Except Fault Input} (h : Skips next next') (suffix : r' <:+ i)
    (ok : next r' = .ok r) (same : ∀ t, skip' (i ++ t) = next' (r' ++ t)) :
    r <:+ i ∧ ∀ t, r ≠ [] → skip' (i ++ t) = .ok (r ++ t) :=
  ⟨(h ok).1.trans suffix, fun t left => (same t).trans ((h ok).2 t left)⟩

theorem Skips.bind {f f' g g' : Input → Except Fault Input} (hf : Skips f f') (hg : Skips g g') :
    Skips (fun i => (f i).bind g) fun i => (f' i).bind g' := by
  intro i r h
  obtain ⟨r₁, first, h⟩ := of_bind_eq_ok h
  obtain ⟨suffix, extend⟩ := hf first
  obtain ⟨suffix', extend'⟩ := hg h
  refine ⟨suffix'.trans suffix, fun t left => ?_⟩
  have left₁ : r₁ ≠ [] := fun none => left (List.suffix_nil.1 (none ▸ suffix'))
  simp only [extend t left₁, Except.bind, extend' t left]

theorem local_digits (atEnd : Fault) : Local (digits atEnd) := by
  intro i x r h
  unfold digits at h
  split at h
  · cases h
  · split at h
    case isFalse => cases h
    case isTrue digit =>
      cases h
      refine ⟨List.dropWhile_suffix _, fun t left => ?_⟩
      obtain ⟨taken, rest⟩ := dropWhile_append left t
      rw [← taken, ← rest, List.cons_append, digits, if_pos digit]

theorem local_fraction (atEnd : Fault) : Local (fraction atEnd) := by
  intro i x r h
  unfold fraction at h
  split at h
  next i r' =>
    obtain ⟨suffix, extend⟩ := local_digits atEnd h
    exact ⟨suffix.trans (List.suffix_cons _ _), extend⟩
  next i other =>
    cases h
    refine ⟨List.suffix_refl _, fun t left => ?_⟩
    obtain ⟨s, r, rfl⟩ := List.exists_cons_of_ne_nil left
    unfold fraction
    split
    next heq =>
      cases heq
      exact absurd rfl (other _)
    next => rfl

theorem ne_nil_of_suffix (h : r <:+ i) (left : r ≠ []) : i ≠ [] := fun none =>
  left (List.suffix_nil.1 (none ▸ h))

theorem Extends.map {β : Type} {read : Reader α} (h : Local read) (g : α → β) :
    Local fun i => (read i).map fun (x, r) => (g x, r) := by
  intro i x r ok
  obtain ⟨⟨x', r'⟩, read', same⟩ := of_map_eq_ok ok
  cases same
  obtain ⟨suffix, extend⟩ := h read'
  exact ⟨suffix, fun t left => by simp only [extend t left, Except.map]⟩

theorem local_exponent (atEnd : Fault) : Local (exponent atEnd) := by
  have signed (g : List (Option Char) → Int) := Extends.map (local_digits atEnd) g
  intro i x r h
  unfold exponent at h
  split at h
  next c r' =>
    split at h
    case isTrue mark =>
      have more : r' <:+ some c :: r' := List.suffix_cons _ _
      split at h
      next r₁ =>
        obtain ⟨suffix, extend⟩ := signed (fun ds => -(digitsValue ds : Int)) h
        exact ⟨suffix.trans ((List.suffix_cons _ _).trans more), fun t left => by
          simp [exponent, mark, ← extend t left]⟩
      next r₁ =>
        obtain ⟨suffix, extend⟩ := signed (fun ds => (digitsValue ds : Int)) h
        exact ⟨suffix.trans ((List.suffix_cons _ _).trans more), fun t left => by
          simp [exponent, mark, ← extend t left]⟩
      next minus plus =>
        obtain ⟨suffix, extend⟩ := signed (fun ds => (digitsValue ds : Int)) h
        refine ⟨suffix.trans more, fun t left => ?_⟩
        obtain ⟨s, r'', rfl⟩ := List.exists_cons_of_ne_nil (ne_nil_of_suffix suffix left)
        have extended := extend t left
        simp only [List.cons_append] at extended ⊢
        rw [← extended]
        simp only [exponent, mark, if_true]
        split
        next heq => cases heq; exact absurd rfl (minus _)
        next heq => cases heq; exact absurd rfl (plus _)
        next => rfl
    case isFalse plain =>
      cases h
      exact ⟨List.suffix_refl _, fun t _ => by simp only [List.cons_append, exponent, if_neg plain]⟩
  next other =>
    cases h
    refine ⟨List.suffix_refl _, fun t left => ?_⟩
    obtain ⟨s, r, rfl⟩ := List.exists_cons_of_ne_nil left
    cases s with
    | none => rfl
    | some c => exact absurd rfl (other c r)

theorem local_number (atEnd : Fault) : Local (number atEnd) := by
  intro i x r h
  unfold number at h
  obtain ⟨⟨whole, r₁⟩, whole', h⟩ := of_bind_eq_ok h
  dsimp only at h
  split at h
  case isTrue => cases h
  case isFalse led =>
    obtain ⟨⟨part, r₂⟩, part', h⟩ := of_bind_eq_ok h
    obtain ⟨⟨exp, r₃⟩, exp', h⟩ := of_bind_eq_ok h
    cases h
    obtain ⟨suffix₁, extend₁⟩ := local_digits atEnd whole'
    obtain ⟨suffix₂, extend₂⟩ := local_fraction atEnd part'
    obtain ⟨suffix₃, extend₃⟩ := local_exponent atEnd exp'
    refine ⟨suffix₃.trans (suffix₂.trans suffix₁), fun t left => ?_⟩
    have left₂ := ne_nil_of_suffix suffix₃ left
    have left₁ := ne_nil_of_suffix suffix₂ left₂
    simp only [number, extend₁ t left₁, extend₂ t left₂, extend₃ t left, bind, Except.bind, pure, Except.pure, led]
    rfl

theorem localSkip_skipNumber : LocalSkip skipNumber := by
  intro i r h
  obtain ⟨⟨m, r'⟩, read, same⟩ := of_map_eq_ok h
  cases same
  obtain ⟨suffix, extend⟩ := local_number _ read
  exact ⟨suffix, fun t left => by rw [skipNumber, extend t left]; rfl⟩

theorem localSkip_readCloser (closer : Option Char) : LocalSkip (readCloser closer) := by
  intro i r h
  unfold readCloser at h
  split at h
  next => cases h
  next s r' ahead =>
    split at h
    case isFalse => cases h
    case isTrue closes =>
      cases h
      obtain ⟨suffix, extend⟩ := skipSpace_append ahead
      exact ⟨suffix, fun t _ => by simp only [readCloser, extend t, closes, if_true]⟩

theorem localSkip_readColon : LocalSkip readColon := localSkip_readCloser (some ':')

theorem localSkip_skipKey : LocalSkip skipKey := by
  intro i r h
  unfold skipKey at h
  split at h
  next => cases h
  next r₁ ahead =>
    obtain ⟨suffix, extend⟩ := skipSpace_append ahead
    split at h
    next => cases h
    next r₂ literal =>
      obtain ⟨suffix', extend'⟩ := skipLiteralFrom_append literal
      split at h
      next => cases h
      next r₃ ahead' =>
        cases h
        obtain ⟨suffix'', extend''⟩ := skipSpace_append ahead'
        refine ⟨suffix''.trans (suffix'.trans suffix), fun t _ => ?_⟩
        simp only [skipKey, extend t, extend' t, extend'' t]
      next => cases h
  next => cases h

theorem localSkip_skipFirst (n : Nest) : LocalSkip (skipFirst n) := by
  cases n with
  | list =>
    intro i r h
    cases h
    exact ⟨List.suffix_refl _, fun t _ => rfl⟩
  | object => exact localSkip_skipKey

theorem localSkip_word (w : List Char) : LocalSkip (skipWord w) := fun _ _ h =>
  ⟨(skipWord_append h).1, fun t _ => (skipWord_append h).2 t⟩

theorem localSkip_literal : LocalSkip (skipLiteralFrom .plain) := fun _ _ h =>
  ⟨(skipLiteralFrom_append h).1, fun t _ => (skipLiteralFrom_append h).2 t⟩

/-- More fuel makes no difference either. -/
theorem skips_skipFrom {fuel fuel' : Nat} (enough : fuel ≤ fuel') (a : Ahead) (nest : List Nest) :
    Skips (skipFrom fuel a nest) (skipFrom fuel' a nest) := by
  induction fuel generalizing fuel' a nest with
  | zero =>
    intro i r h
    cases h
  | succ fuel ih =>
    obtain ⟨fuel', rfl⟩ := Nat.exists_eq_add_one_of_ne_zero (Nat.ne_of_gt (Nat.lt_of_lt_of_le fuel.succ_pos enough))
    have ih := @ih fuel' (Nat.le_of_succ_le_succ enough)
    intro i r h
    cases a with
    | after =>
      cases nest with
      | nil =>
        cases h
        exact ⟨List.suffix_refl _, fun t _ => rfl⟩
      | cons n nest =>
        rw [skipFrom] at h
        split at h
        next => cases h
        next s r₁ ahead =>
          obtain ⟨suffix, extend⟩ := skipSpace_append ahead
          split at h
          case isTrue comma =>
            exact ((localSkip_skipFirst n).bind (ih .value (n :: nest))).behind suffix h fun t => by
              simp only [skipFrom, extend t, if_pos comma]
          case isFalse comma =>
            split at h
            case isTrue close =>
              exact (ih .after nest).behind suffix h fun t => by
                simp only [skipFrom, extend t, if_neg comma, if_pos close]
            case isFalse => cases h
    | opened =>
      cases ahead : skipSpace i with
      | nil => simp [skipFrom, ahead] at h
      | cons s r₁ =>
        have whole := suffix_of_skipSpace ahead
        obtain ⟨suffix, extend⟩ := skipSpace_append ahead
        cases nest with
        | nil =>
          simp only [skipFrom, ahead] at h
          exact (ih .value []).behind whole h fun t => by simp only [skipFrom, extend t, List.cons_append]
        | cons n nest =>
          simp only [skipFrom, ahead] at h
          split at h
          case isTrue close =>
            exact (ih .after nest).behind suffix h fun t => by simp only [skipFrom, extend t, if_pos close]
          case isFalse close =>
            exact ((localSkip_skipFirst n).bind (ih .value (n :: nest))).behind whole h fun t => by
              simp only [skipFrom, extend t, if_neg close, List.cons_append]
    | value =>
      unfold skipFrom at h
      split at h
      next => cases h
      next r₁ ahead =>
        obtain ⟨suffix, extend⟩ := skipSpace_append ahead
        exact ((localSkip_word _).bind (ih .after nest)).behind suffix h fun t => by simp only [skipFrom, extend t]
      next r₁ ahead =>
        obtain ⟨suffix, extend⟩ := skipSpace_append ahead
        exact ((localSkip_word _).bind (ih .after nest)).behind suffix h fun t => by simp only [skipFrom, extend t]
      next r₁ ahead =>
        obtain ⟨suffix, extend⟩ := skipSpace_append ahead
        exact ((localSkip_word _).bind (ih .after nest)).behind suffix h fun t => by simp only [skipFrom, extend t]
      next r₁ ahead =>
        obtain ⟨suffix, extend⟩ := skipSpace_append ahead
        exact (localSkip_literal.bind (ih .after nest)).behind suffix h fun t => by simp only [skipFrom, extend t]
      next r₁ ahead =>
        obtain ⟨suffix, extend⟩ := skipSpace_append ahead
        exact (localSkip_skipNumber.bind (ih .after nest)).behind suffix h fun t => by simp only [skipFrom, extend t]
      next r₁ ahead =>
        obtain ⟨suffix, extend⟩ := skipSpace_append ahead
        exact (ih .opened (.list :: nest)).behind suffix h fun t => by simp only [skipFrom, extend t]
      next r₁ ahead =>
        obtain ⟨suffix, extend⟩ := skipSpace_append ahead
        exact (ih .opened (.object :: nest)).behind suffix h fun t => by simp only [skipFrom, extend t]
      next s r₁ _ _ _ _ _ _ _ ahead =>
        obtain ⟨suffix, extend⟩ := skipSpace_append ahead
        split at h
        case isTrue digit =>
          have number := localSkip_skipNumber.bind (ih .after nest)
          exact number.behind (suffix_of_skipSpace ahead) h fun t => by
            unfold skipFrom
            rw [extend t]
            split <;> simp_all
        case isFalse => cases h

theorem localSkip_skipValue : LocalSkip skipValue := by
  intro i r h
  refine ⟨(skips_skipFrom (Nat.le_refl _) .value [] h).1, fun t left => ?_⟩
  have enough : 2 * i.length + 2 ≤ 2 * (i ++ t).length + 2 := by
    rw [List.length_append]
    omega
  exact (skips_skipFrom enough .value [] h).2 t left

theorem local_literal : Local (literalFrom .plain [] true) := fun _ _ _ h =>
  ⟨(literalFrom_append h).1, fun t _ => (literalFrom_append h).2 t⟩

theorem local_readText : Local readText := by
  intro i x r h
  unfold readText at h
  split at h
  next => cases h
  next r₁ ahead =>
    obtain ⟨suffix, extend⟩ := skipSpace_append ahead
    obtain ⟨suffix', extend'⟩ := local_literal h
    exact ⟨suffix'.trans suffix, fun t left => by simp only [readText, extend t, extend' t left]⟩
  next => cases h

theorem localSkip_readNull : LocalSkip readNull := by
  intro i r h
  unfold readNull at h
  split at h
  next => cases h
  next r₁ ahead =>
    obtain ⟨suffix, extend⟩ := skipSpace_append ahead
    exact (localSkip_word "ull".toList).behind suffix h fun t => by simp only [readNull, extend t]
  next => cases h

theorem local_readChoice (names : List (String × α)) : Local (readChoice names) := by
  intro i x r h
  unfold readChoice at h
  split at h
  next => cases h
  next r₁ ahead =>
    obtain ⟨suffix, extend⟩ := skipSpace_append ahead
    obtain ⟨⟨text, r₂⟩, read, h⟩ := of_bind_eq_ok h
    obtain ⟨a, chosen, h⟩ := of_bind_eq_ok h
    cases h
    obtain ⟨suffix', extend'⟩ := local_literal read
    refine ⟨suffix'.trans suffix, fun t left => ?_⟩
    simp only [readChoice, extend t, extend' t left, chosen, bind, Except.bind, pure, Except.pure]
  next r₁ ahead =>
    obtain ⟨suffix, extend⟩ := skipSpace_append ahead
    obtain ⟨⟨text, r₂⟩, read, h⟩ := of_bind_eq_ok h
    obtain ⟨a, chosen, h⟩ := of_bind_eq_ok h
    obtain ⟨r₃, colon, h⟩ := of_bind_eq_ok h
    obtain ⟨r₄, null, h⟩ := of_bind_eq_ok h
    obtain ⟨r₅, closed, h⟩ := of_bind_eq_ok h
    cases h
    obtain ⟨suffix₂, extend₂⟩ := local_readText read
    obtain ⟨suffix₃, extend₃⟩ := localSkip_readColon colon
    obtain ⟨suffix₄, extend₄⟩ := localSkip_readNull null
    obtain ⟨suffix₅, extend₅⟩ := localSkip_readCloser _ closed
    refine ⟨suffix₅.trans (suffix₄.trans (suffix₃.trans (suffix₂.trans suffix))), fun t left => ?_⟩
    have left₄ := ne_nil_of_suffix suffix₅ left
    have left₃ := ne_nil_of_suffix suffix₄ left₄
    have left₂ := ne_nil_of_suffix suffix₃ left₃
    simp only [readChoice, extend t, extend₂ t left₂, chosen, extend₃ t left₃, extend₄ t left₄, extend₅ t left, bind,
      Except.bind, pure, Except.pure]
  next => cases h

theorem nextItem_append {first : Bool} {o : Option Input} (h : nextItem first i = .ok o) :
    (∀ r, o = some r → r <:+ i) ∧ ∀ t, nextItem first (i ++ t) = .ok (o.map (· ++ t)) := by
  unfold nextItem at h
  split at h
  next => cases h
  next s r ahead =>
    have whole := suffix_of_skipSpace ahead
    obtain ⟨suffix, extend⟩ := skipSpace_append ahead
    split at h
    case isTrue close =>
      cases h
      exact ⟨nofun, fun t => by simp only [nextItem, extend t, if_pos close, Option.map_none]⟩
    case isFalse close =>
      split at h
      case isTrue begins =>
        cases h
        refine ⟨fun r same => Option.some.inj same ▸ whole, fun t => ?_⟩
        simp only [nextItem, extend t, if_neg close, if_pos begins, Option.map_some, List.cons_append]
      case isFalse begins =>
        split at h
        case isFalse => cases h
        case isTrue comma =>
          split at h
          next => cases h
          next s' r' ahead' =>
            have whole' := (suffix_of_skipSpace ahead').trans suffix
            obtain ⟨-, extend'⟩ := skipSpace_append ahead'
            split at h
            case isTrue => cases h
            case isFalse close' =>
              cases h
              refine ⟨fun r same => Option.some.inj same ▸ whole', fun t => ?_⟩
              simp only [nextItem, extend t, if_neg close, if_neg begins, if_pos comma, extend' t, if_neg close',
                Option.map_some, List.cons_append]

theorem nextKey_append {first : Bool} {o : Option Input} (h : nextKey first i = .ok o) :
    (∀ r, o = some r → r <:+ i) ∧ ∀ t, nextKey first (i ++ t) = .ok (o.map (· ++ t)) := by
  unfold nextKey at h
  split at h
  next => cases h
  next s r ahead =>
    obtain ⟨suffix, extend⟩ := skipSpace_append ahead
    split at h
    case isTrue close =>
      cases h
      exact ⟨nofun, fun t => by simp only [nextKey, extend t, if_pos close, Option.map_none]⟩
    case isFalse close =>
      split at h
      case isTrue begins =>
        split at h
        case isFalse => cases h
        case isTrue quote =>
          cases h
          refine ⟨fun r same => Option.some.inj same ▸ suffix, fun t => ?_⟩
          simp only [nextKey, extend t, if_neg close, if_pos begins, if_pos quote, Option.map_some]
      case isFalse begins =>
        split at h
        case isFalse => cases h
        case isTrue comma =>
          split at h
          next => cases h
          next s' r' ahead' =>
            obtain ⟨suffix', extend'⟩ := skipSpace_append ahead'
            split at h
            case isFalse => cases h
            case isTrue quote =>
              cases h
              refine ⟨fun r same => Option.some.inj same ▸ suffix'.trans suffix, fun t => ?_⟩
              simp only [nextKey, extend t, if_neg close, if_neg begins, if_pos comma, extend' t, if_pos quote,
                Option.map_some]

theorem readCloser_append {closer : Option Char} (h : readCloser closer i = .ok r) :
    closer :: r <:+ i ∧ ∀ t, readCloser closer (i ++ t) = .ok (r ++ t) := by
  unfold readCloser at h
  split at h
  next => cases h
  next s r' ahead =>
    split at h
    case isFalse => cases h
    case isTrue closes =>
      cases h
      refine ⟨closes ▸ suffix_of_skipSpace ahead, fun t => ?_⟩
      simp only [readCloser, (skipSpace_append ahead).2 t, if_pos closes]

/-- The closing bracket is taken, so nothing need be left. -/
theorem readItems_append {item : Reader α} (h : Local item) {fuel fuel' : Nat} (enough : fuel ≤ fuel') {first : Bool}
    {xs : List α} (ok : readItems item fuel first i = .ok (xs, r)) :
    some ']' :: r <:+ i ∧ ∀ t, readItems item fuel' first (i ++ t) = .ok (xs, r ++ t) := by
  induction fuel generalizing fuel' first i xs with
  | zero => cases ok
  | succ fuel ih =>
    obtain ⟨fuel', rfl⟩ := Nat.exists_eq_add_one_of_ne_zero (Nat.ne_of_gt (Nat.lt_of_lt_of_le fuel.succ_pos enough))
    rw [readItems] at ok
    split at ok
    next => cases ok
    next ahead =>
      obtain ⟨r', closed, same⟩ := of_map_eq_ok ok
      cases same
      obtain ⟨suffix, extend⟩ := readCloser_append closed
      refine ⟨suffix, fun t => ?_⟩
      rw [readItems, (nextItem_append ahead).2 t]
      simp only [Option.map_none, extend t, Except.map]
    next r₁ ahead =>
      obtain ⟨⟨x, r₂⟩, read, ok⟩ := of_bind_eq_ok ok
      obtain ⟨⟨xs', r₃⟩, rest, ok⟩ := of_bind_eq_ok ok
      cases ok
      obtain ⟨found, extend₁⟩ := nextItem_append ahead
      obtain ⟨suffix₂, extend₂⟩ := h read
      obtain ⟨suffix₃, extend₃⟩ := ih (Nat.le_of_succ_le_succ enough) rest
      have left : r₂ ≠ [] := ne_nil_of_suffix suffix₃ (List.cons_ne_nil _ _)
      refine ⟨suffix₃.trans (suffix₂.trans (found r₁ rfl)), fun t => ?_⟩
      rw [readItems, extend₁ t]
      simp only [Option.map_some, extend₂ t left, extend₃ t, bind, Except.bind, pure, Except.pure]

theorem readList_append {item : Reader α} (h : Local item) {xs : List α} (ok : readList item i = .ok (xs, r)) :
    some ']' :: r <:+ i ∧ ∀ t, readList item (i ++ t) = .ok (xs, r ++ t) := by
  unfold readList at ok
  split at ok
  next => cases ok
  next r₁ ahead =>
    obtain ⟨suffix, extend⟩ := skipSpace_append ahead
    have enough (t : Input) : r₁.length + 1 ≤ (r₁ ++ t).length + 1 := by
      rw [List.length_append]
      omega
    refine ⟨(readItems_append h (Nat.le_refl _) ok).1.trans suffix, fun t => ?_⟩
    simp only [readList, extend t, (readItems_append h (enough t) ok).2 t]
  next => cases ok

theorem local_readList {item : Reader α} (h : Local item) : Local (readList item) := fun _ _ _ ok =>
  ⟨(List.suffix_cons _ _).trans (readList_append h ok).1, fun t _ => (readList_append h ok).2 t⟩

variable {fields : List (Field σ)}

theorem local_of (name : String) {item : Reader α} (h : Local item) (set : σ → α → σ) (s : σ) :
    Local ((Field.of name item set).read s) := Extends.map h (set s)

theorem extends_readFields (h : ∀ f ∈ fields, ∀ s, Local (f.read s)) {fuel fuel' : Nat} (enough : fuel ≤ fuel')
    (first : Bool) (seen : List String) (s : σ) :
    Extends (readFields fields fuel first seen s) (readFields fields fuel' first seen s) := by
  induction fuel generalizing fuel' first seen s with
  | zero =>
    intro i x r ok
    cases ok
  | succ fuel ih =>
    obtain ⟨fuel', rfl⟩ := Nat.exists_eq_add_one_of_ne_zero (Nat.ne_of_gt (Nat.lt_of_lt_of_le fuel.succ_pos enough))
    have ih := @ih fuel' (Nat.le_of_succ_le_succ enough)
    intro i x r ok
    rw [readFields] at ok
    split at ok
    next => cases ok
    next ahead =>
      obtain ⟨r', closed, same⟩ := of_map_eq_ok ok
      cases same
      obtain ⟨suffix, extend⟩ := localSkip_readCloser _ closed
      refine ⟨suffix, fun t left => ?_⟩
      rw [readFields, (nextKey_append ahead).2 t]
      simp only [Option.map_none, extend t left, Except.map]
    next r₁ ahead =>
      obtain ⟨found, extend₁⟩ := nextKey_append ahead
      obtain ⟨⟨key, r₂⟩, read, ok⟩ := of_bind_eq_ok ok
      obtain ⟨suffix₂, extend₂⟩ := local_literal read
      have suffix₂ := suffix₂.trans (found r₁ rfl)
      dsimp only at ok
      split at ok
      next unknown =>
        obtain ⟨r₃, colon, ok⟩ := of_bind_eq_ok ok
        obtain ⟨r₄, value, ok⟩ := of_bind_eq_ok ok
        obtain ⟨suffix₃, extend₃⟩ := localSkip_readColon colon
        obtain ⟨suffix₄, extend₄⟩ := localSkip_skipValue value
        obtain ⟨suffix₅, extend₅⟩ := ih false seen s ok
        refine ⟨suffix₅.trans (suffix₄.trans (suffix₃.trans suffix₂)), fun t left => ?_⟩
        have left₄ := ne_nil_of_suffix suffix₅ left
        have left₃ := ne_nil_of_suffix suffix₄ left₄
        have left₂ := ne_nil_of_suffix suffix₃ left₃
        rw [readFields, extend₁ t]
        simp only [Option.map_some, extend₂ t left₂, unknown, extend₃ t left₃, extend₄ t left₄, extend₅ t left, bind,
          Except.bind]
      next f known =>
        split at ok
        case isTrue => cases ok
        case isFalse fresh =>
          obtain ⟨r₃, colon, ok⟩ := of_bind_eq_ok ok
          obtain ⟨⟨s', r₄⟩, value, ok⟩ := of_bind_eq_ok ok
          obtain ⟨suffix₃, extend₃⟩ := localSkip_readColon colon
          obtain ⟨suffix₄, extend₄⟩ := h f (List.mem_of_find?_eq_some known) s value
          obtain ⟨suffix₅, extend₅⟩ := ih false (key :: seen) s' ok
          refine ⟨suffix₅.trans (suffix₄.trans (suffix₃.trans suffix₂)), fun t left => ?_⟩
          have left₄ := ne_nil_of_suffix suffix₅ left
          have left₃ := ne_nil_of_suffix suffix₄ left₄
          have left₂ := ne_nil_of_suffix suffix₃ left₃
          rw [readFields, extend₁ t]
          simp only [Option.map_some, extend₂ t left₂, known, if_neg fresh, extend₃ t left₃, extend₄ t left₄,
            extend₅ t left, bind, Except.bind]

theorem local_readPlaces (h : ∀ f ∈ fields, ∀ s, Local (f.read s)) (finish : σ → Except Fault Unit) (first : Bool)
    (s : σ) : Local (readPlaces finish fields first s) := by
  induction fields generalizing first s with
  | nil =>
    intro i x r ok
    obtain ⟨u, finished, ok⟩ := of_bind_eq_ok ok
    obtain ⟨r', closed, ok⟩ := of_bind_eq_ok ok
    cases ok
    obtain ⟨suffix, extend⟩ := localSkip_readCloser _ closed
    refine ⟨suffix, fun t left => ?_⟩
    simp only [readPlaces, finished, extend t left, bind, Except.bind, pure, Except.pure]
  | cons f fields ih =>
    obtain ⟨field, h⟩ := List.forall_mem_cons.1 h
    intro i x r ok
    rw [readPlaces] at ok
    split at ok
    next => cases ok
    next ahead =>
      obtain ⟨u, finished, ok⟩ := of_bind_eq_ok ok
      obtain ⟨r', closed, ok⟩ := of_bind_eq_ok ok
      cases ok
      obtain ⟨suffix, extend⟩ := localSkip_readCloser _ closed
      refine ⟨suffix, fun t left => ?_⟩
      rw [readPlaces, (nextItem_append ahead).2 t]
      simp only [Option.map_none, finished, extend t left, bind, Except.bind, pure, Except.pure]
    next r₁ ahead =>
      obtain ⟨⟨s', r₂⟩, value, ok⟩ := of_bind_eq_ok ok
      obtain ⟨found, extend₁⟩ := nextItem_append ahead
      obtain ⟨suffix₂, extend₂⟩ := field s value
      obtain ⟨suffix₃, extend₃⟩ := ih h false s' ok
      refine ⟨suffix₃.trans (suffix₂.trans (found r₁ rfl)), fun t left => ?_⟩
      rw [readPlaces, extend₁ t]
      simp only [Option.map_some, extend₂ t (ne_nil_of_suffix suffix₃ left), extend₃ t left, bind, Except.bind]

theorem local_readRecord (h : ∀ f ∈ fields, ∀ s, Local (f.read s)) (finish : σ → Except Fault Unit) (start : σ) :
    Local (readRecord fields finish start) := by
  intro i x r ok
  unfold readRecord at ok
  split at ok
  next => cases ok
  next r₁ ahead =>
    obtain ⟨suffix, extend⟩ := skipSpace_append ahead
    obtain ⟨suffix', extend'⟩ := local_readPlaces h finish true start ok
    exact ⟨suffix'.trans suffix, fun t left => by simp only [readRecord, extend t, extend' t left]⟩
  next r₁ ahead =>
    obtain ⟨suffix, extend⟩ := skipSpace_append ahead
    obtain ⟨⟨s, r₂⟩, read, ok⟩ := of_bind_eq_ok ok
    obtain ⟨u, finished, ok⟩ := of_bind_eq_ok ok
    cases ok
    refine ⟨(extends_readFields h (Nat.le_refl _) true [] start read).1.trans suffix, fun t left => ?_⟩
    have enough : r₁.length + 1 ≤ (r₁ ++ t).length + 1 := by
      rw [List.length_append]
      omega
    have extended := (extends_readFields h enough true [] start read).2 t left
    simp only [readRecord, extend t, extended, finished, bind, Except.bind, pure, Except.pure]
  next => cases ok

/-! ### Lists cut short -/

theorem local_readTable : Local readTable := by
  have routes : ∀ f ∈ routeFields, ∀ s, Local (f.read s) := by
    simp only [routeFields, List.forall_mem_cons]
    exact ⟨local_of _ local_readText _, local_of _ (local_readChoice _) _, local_of _ local_readText _,
      local_of _ local_readText _, local_of _ local_readText _, local_of _ (local_readChoice _) _, nofun⟩
  have tables : ∀ f ∈ tableFields, ∀ s, Local (f.read s) := by
    simp only [tableFields, List.forall_mem_cons]
    exact ⟨local_of _ local_readText _, local_of _ (local_readList (local_readRecord routes _ _)) _, nofun⟩
  exact Extends.map (local_readRecord tables _ _) fun t => Table.mk (t.name.getD "") t.routes

variable {item : Reader α} {xs : List α}

theorem readWhole_eq_ok {read : Reader α} {x : α} (h : readWhole read i = .ok x) :
    ∃ r, read i = .ok (x, r) ∧ skipSpace r = [] := by
  obtain ⟨⟨x', r⟩, ok, h⟩ := of_bind_eq_ok h
  dsimp only at h
  split at h
  case isTrue blank =>
    cases h
    exact ⟨r, ok, List.isEmpty_iff.1 blank⟩
  case isFalse => cases h

/-- An accepted list ends in a bracket with nothing but space behind it. -/
theorem getLast?_of_readWhole (h : Local item) (whole : readWhole (readList item) i = .ok xs) :
    i.getLast? ≠ some none := by
  obtain ⟨r, ok, blank⟩ := readWhole_eq_ok whole
  obtain ⟨before, split⟩ := (readList_append h ok).1
  have space : ∀ c ∈ r, isSpace c = true := List.dropWhile_eq_nil_iff.1 blank
  intro last
  have nonempty : some ']' :: r ≠ [] := List.cons_ne_nil _ _
  rw [← split, List.getLast?_append, List.getLast?_eq_some_getLast nonempty, Option.some_or] at last
  have mem : none ∈ some ']' :: r := Option.some.inj last ▸ List.getLast_mem nonempty
  rcases List.mem_cons.1 mem with bracket | behind
  · cases bracket
  · exact nomatch space _ behind

/-- What has been cut off is more than space. -/
theorem readWhole_cut (h : Local item) {more : Input} (whole : readWhole (readList item) (i ++ more) = .ok xs)
    (cut : skipSpace more ≠ []) (xs' : List α) : readWhole (readList item) i ≠ .ok xs' := by
  intro short
  obtain ⟨r, ok, blank⟩ := readWhole_eq_ok short
  obtain ⟨r', ok', blank'⟩ := readWhole_eq_ok whole
  have extended := (readList_append h ok).2 more
  rw [extended] at ok'
  cases ok'
  have space : ∀ c ∈ r, isSpace c = true := List.dropWhile_eq_nil_iff.1 blank
  have behind : skipSpace (r ++ more) = skipSpace more := List.dropWhile_append_of_pos space
  exact cut (behind.symm.trans blank')

/-! ### Values of another shape -/

variable {f : α → Json} {l : Option Nat} {fault : Fault}

/-- Items behind the first one, each with a comma behind it. -/
theorem readItems_fault (h : ∀ a, Reads item (f a) a) (ahead : skipSpace t = s :: r) (another : s ≠ some ']')
    (bad : item (s :: r) = .error fault) (as : List α) {fuel : Nat} (enough : as.length < fuel) :
    readItems item fuel false (some ',' :: (given (as.flatMap fun a => written l (f a) ++ [',']) ++ t)) =
      .error fault := by
  induction as generalizing fuel with
  | nil =>
    obtain ⟨fuel, rfl⟩ := Nat.exists_eq_add_one_of_ne_zero (Nat.ne_of_gt enough)
    have opened : nextItem false (some ',' :: t) = .ok (some (s :: r)) := by
      rw [nextItem, skipSpace_some rfl]
      simp [ahead, another]
    rw [List.flatMap_nil, given_nil, List.nil_append, readItems, opened]
    simp only [bad, bind, Except.bind]
  | cons a as ih =>
    obtain ⟨fuel, rfl⟩ := Nat.exists_eq_add_one_of_ne_zero (Nat.ne_of_gt (Nat.zero_lt_of_lt enough))
    have fewer : as.length < fuel := Nat.lt_of_succ_lt_succ enough
    let behind := some ',' :: (given (as.flatMap fun a => written l (f a) ++ [',']) ++ t)
    have none : Blank [] := List.forall_mem_nil _
    have first : item (given (written l (f a)) ++ behind) = .ok (a, behind) := h a l [] behind none
    have opened : nextItem false (some ',' :: (given (written l (f a)) ++ behind)) =
        .ok (some (given (written l (f a)) ++ behind)) := nextItem_next none l (f a) behind
    have text : given ((a :: as).flatMap fun a => written l (f a) ++ [',']) ++ t =
        given (written l (f a)) ++ behind := by
      simp [behind]
    rw [text, readItems, opened]
    simp only [first, behind, ih fewer, bind, Except.bind]

theorem readList_fault (h : ∀ a, Reads item (f a) a) (ahead : skipSpace t = s :: r) (another : s ≠ some ']')
    (bad : item (s :: r) = .error fault) (as : List α) :
    readList item (given ('[' :: as.flatMap fun a => written l (f a) ++ [',']) ++ t) = .error fault := by
  rw [readList, given_cons, List.cons_append, skipSpace_some rfl]
  cases as with
  | nil =>
    have opened : nextItem true t = .ok (some (s :: r)) := by
      rw [nextItem, ahead]
      simp [another]
    simp only [List.flatMap_nil, given_nil, List.nil_append, readItems, opened, bad, bind, Except.bind]
  | cons a as =>
    let behind := some ',' :: (given (as.flatMap fun a => written l (f a) ++ [',']) ++ t)
    have none : Blank [] := List.forall_mem_nil _
    have first : item (given (written l (f a)) ++ behind) = .ok (a, behind) := h a l [] behind none
    have opened : nextItem true (given (written l (f a)) ++ behind) =
        .ok (some (given (written l (f a)) ++ behind)) := nextItem_first none l (f a) behind
    have text : given ((a :: as).flatMap fun a => written l (f a) ++ [',']) ++ t =
        given (written l (f a)) ++ behind := by
      simp [behind]
    have enough : as.length < (given (written l (f a)) ++ behind).length := by
      have some_each : as.length ≤ (as.flatMap fun a => written l (f a) ++ [',']).length :=
        length_le_flatMap as fun a => List.append_ne_nil_of_right_ne_nil _ (List.cons_ne_nil ',' [])
      simp only [behind, given, List.length_append, List.length_map, List.length_cons]
      omega
    simp only [text, readItems, opened, first, behind, readItems_fault h ahead another bad as enough, bind, Except.bind]

theorem skipSpace_skipSpace (i : Input) : skipSpace (skipSpace i) = skipSpace i := List.dropWhile_idempotent _ _

/-- A value of another shape than a table's begins with something. -/
theorem ahead_of_mismatched (h : readTable i = .error .mismatched) :
    ∃ s r, skipSpace i = s :: r ∧ s ≠ some ']' ∧ readTable (s :: r) = .error .mismatched := by
  cases ahead : skipSpace i with
  | nil => simp [readTable, readRecord, ahead, Except.map] at h
  | cons s r =>
    have same : readTable (s :: r) = readTable i := by
      rw [← ahead, readTable, readTable, readRecord, readRecord, skipSpace_skipSpace]
    refine ⟨s, r, rfl, ?_, same.trans h⟩
    rintro rfl
    simp [readTable, readRecord, ahead, mismatch, isDigit, Except.map] at h

/-- Some tables, a value of another shape, and anything behind it. -/
theorem readWhole_mismatched (layout : Option Nat) (before : List Table) (h : readTable t = .error .mismatched) :
    readWhole readTables (given ('[' :: before.flatMap fun t => written layout t.toJson ++ [',']) ++ t) =
      .error .mismatched := by
  obtain ⟨s, r, ahead, another, bad⟩ := ahead_of_mismatched h
  rw [readWhole, readTables, readList_fault reads_table ahead another bad]
  rfl

end Json

end Switchyard
