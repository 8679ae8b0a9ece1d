import Switchyard.Text.Blank

/-!
What is cut from the ends of a text: whatever was put there, and nothing else.
-/
namespace Switchyard.Text

variable {p : Char → Bool} {s lead tail : List Char}

theorem dropWhile_lead (all : ∀ c ∈ lead, p c = true) (s : List Char) : (lead ++ s).dropWhile p = s.dropWhile p :=
  List.dropWhile_append_of_pos all

theorem dropWhile_all (all : ∀ c ∈ s, p c = true) : s.dropWhile p = [] := by
  have cut := dropWhile_lead all []
  rwa [List.append_nil] at cut

theorem dropWhile_none (none : ∀ c ∈ s, p c = false) : s.dropWhile p = s := by
  cases s with
  | nil => rfl
  | cons c r => rw [List.dropWhile_cons, none c List.mem_cons_self, if_neg Bool.false_ne_true]

theorem stripEnd_append (s : List Char) (all : ∀ c ∈ tail, p c = true) : stripEnd p (s ++ tail) = stripEnd p s := by
  have backwards : ∀ c ∈ tail.reverse, p c = true := fun c hc => all c (List.mem_reverse.1 hc)
  rw [stripEnd, stripEnd, List.reverse_append, dropWhile_lead backwards]

/-- What is cut from the end can be put back. -/
theorem exists_eq_stripEnd_append (p : Char → Bool) (s : List Char) :
    ∃ tail, s = stripEnd p s ++ tail ∧ ∀ c ∈ tail, p c = true := by
  have back : s.reverse.takeWhile p ++ s.reverse.dropWhile p = s.reverse := List.takeWhile_append_dropWhile
  refine ⟨(s.reverse.takeWhile p).reverse, ?_, fun c hc => ?_⟩
  · rw [stripEnd, ← List.reverse_append, back, List.reverse_reverse]
  · have taken := List.all_eq_true.1 (List.all_takeWhile (p := p) (l := s.reverse))
    exact taken c (List.mem_reverse.1 hc)

theorem stripEnd_map (f : Char → Char) (p : Char → Bool) (s : List Char) :
    stripEnd p (s.map f) = (stripEnd (p ∘ f) s).map f := by
  rw [stripEnd, stripEnd, ← List.map_reverse, List.dropWhile_map, List.map_reverse]

theorem stripWhile_eq (p : Char → Bool) (s : List Char) : stripWhile p s = stripEnd p (s.dropWhile p) := rfl

theorem stripWhile_none (none : ∀ c ∈ s, p c = false) : stripWhile p s = s := by
  have backwards : ∀ c ∈ s.reverse, p c = false := fun c hc => none c (List.mem_reverse.1 hc)
  rw [stripWhile_eq, dropWhile_none none, stripEnd, dropWhile_none backwards, List.reverse_reverse]

theorem stripWhile_between (before : ∀ c ∈ lead, p c = true) (s : List Char) (after : ∀ c ∈ tail, p c = true) :
    stripWhile p (lead ++ s ++ tail) = stripWhile p s := by
  rw [stripWhile_eq, stripWhile_eq, List.append_assoc, dropWhile_lead before, List.dropWhile_append]
  cases left : s.dropWhile p with
  | nil => rw [List.isEmpty_nil, if_pos rfl, dropWhile_all after]
  | cons c r => rw [List.isEmpty_cons, if_neg Bool.false_ne_true, stripEnd_append _ after]

theorem stripWhile_map (f : Char → Char) (p : Char → Bool) (s : List Char) :
    stripWhile p (s.map f) = (stripWhile (p ∘ f) s).map f := by
  rw [stripWhile_eq, stripWhile_eq, List.dropWhile_map, stripEnd_map]

end Switchyard.Text
