import Switchyard.Proofs.Json.Literals

/-!
Readers against the printer, for both written forms at once: a reader reads a value back if it does so for the parts
that the value is made of.
-/
namespace Switchyard.Json

variable {α σ : Type} {c : Char} {ws : List Char} {rest i : Input} {l : Option Nat} {v : Json}
  {fs : List (String × Json)}

/-! ### Both forms at once -/

/-- What is written before an entry and before a closing bracket: nothing on one line, else a new line. -/
def gap : Option Nat → List Char
  | none => []
  | some depth => newline depth

/-- What is written between the name and the value of a field, behind the colon. -/
def pad : Option Nat → List Char
  | none => []
  | some _ => [' ']

/-- On one line, or at a depth. -/
def written : Option Nat → Json → List Char
  | none, v => v.compactChars
  | some depth, v => v.prettyChars depth

def deeper (l : Option Nat) : Option Nat := l.map (· + 1)

def writtenItem (l : Option Nat) (v : Json) : List Char := gap l ++ written l v

def writtenField (l : Option Nat) (f : String × Json) : List Char :=
  gap l ++ (literal f.1 ++ ':' :: (pad l ++ written l f.2))

theorem written_text (l : Option Nat) (s : String) : written l (.text s) = literal s := by
  cases l with
  | none => rw [written, compactChars]
  | some depth => rw [written, prettyChars]

theorem written_list_nil (l : Option Nat) : written l (.list []) = ['[', ']'] := by
  cases l with
  | none => rfl
  | some depth => rw [written, prettyChars]

theorem compactItems_cons (v : Json) (vs : List Json) :
    compactItems (v :: vs) = writtenItem none v ++ vs.flatMap fun v => ',' :: writtenItem none v := by
  induction vs generalizing v with
  | nil => simp [compactItems, writtenItem, gap, written]
  | cons w vs ih => simp [compactItems, ih, writtenItem, gap, written]

theorem prettyItems_cons (depth : Nat) (v : Json) (vs : List Json) :
    prettyItems depth (v :: vs) =
      writtenItem (some depth) v ++ vs.flatMap fun v => ',' :: writtenItem (some depth) v := by
  induction vs generalizing v with
  | nil => simp [prettyItems, writtenItem, gap, written]
  | cons w vs ih => simp [prettyItems, ih, writtenItem, gap, written]

theorem written_list_cons (l : Option Nat) (v : Json) (vs : List Json) :
    written l (.list (v :: vs)) = '[' :: (writtenItem (deeper l) v ++
      (vs.flatMap (fun v => ',' :: writtenItem (deeper l) v) ++ (gap l ++ [']']))) := by
  cases l with
  | none => simp [written, compactChars, compactItems_cons, deeper, gap]
  | some depth => simp [written, prettyChars, prettyItems_cons, deeper, gap]

theorem compactFields_cons (f : String × Json) (fs : List (String × Json)) :
    compactFields (f :: fs) = writtenField none f ++ fs.flatMap fun f => ',' :: writtenField none f := by
  induction fs generalizing f with
  | nil => simp [compactFields, writtenField, gap, pad, written]
  | cons g fs ih => simp [compactFields, ih, writtenField, gap, pad, written]

theorem prettyFields_cons (depth : Nat) (f : String × Json) (fs : List (String × Json)) :
    prettyFields depth (f :: fs) =
      writtenField (some depth) f ++ fs.flatMap fun f => ',' :: writtenField (some depth) f := by
  induction fs generalizing f with
  | nil => simp [prettyFields, writtenField, gap, pad, written]
  | cons g fs ih => simp [prettyFields, ih, writtenField, gap, pad, written]

theorem written_object_cons (l : Option Nat) (f : String × Json) (fs : List (String × Json)) :
    written l (.object (f :: fs)) = '\x7b' :: (writtenField (deeper l) f ++
      (fs.flatMap (fun f => ',' :: writtenField (deeper l) f) ++ (gap l ++ ['\x7d']))) := by
  cases l with
  | none => simp [written, compactChars, compactFields_cons, deeper, gap]
  | some depth => simp [written, prettyChars, prettyFields_cons, deeper, gap]

theorem written_object_nil (l : Option Nat) : written l (.object []) = ['\x7b', '\x7d'] := by
  cases l with
  | none => rfl
  | some depth => rw [written, prettyChars]

/-! ### Space -/

def Blank (ws : List Char) : Prop := ∀ c ∈ ws, isSpace (some c) = true

theorem blank_gap (l : Option Nat) : Blank (gap l) := by
  intro c hc
  cases l with
  | none => cases hc
  | some depth =>
    rcases List.mem_cons.1 hc with rfl | hc
    · rfl
    · rw [List.eq_of_mem_replicate hc]
      rfl

theorem blank_pad (l : Option Nat) : Blank (pad l) := by
  intro c hc
  cases l with
  | none => cases hc
  | some depth =>
    rw [List.mem_singleton.1 hc]
    rfl

theorem skipSpace_blank (h : Blank ws) (i : Input) : skipSpace (given ws ++ i) = skipSpace i := by
  induction ws with
  | nil => rfl
  | cons c ws ih =>
    obtain ⟨space, h⟩ := List.forall_mem_cons.1 h
    have first : skipSpace (some c :: (given ws ++ i)) = skipSpace (given ws ++ i) :=
      List.dropWhile_cons_of_pos space
    rw [given_cons, List.cons_append, first, ih h]

theorem skipSpace_some (h : isSpace (some c) = false) (i : Input) : skipSpace (some c :: i) = some c :: i :=
  List.dropWhile_cons_of_neg (by rw [h]; exact Bool.false_ne_true)

/-- A value starts with what tells of its shape. -/
theorem exists_written (l : Option Nat) (v : Json) :
    ∃ c cs, written l v = c :: cs ∧ isSpace (some c) = false ∧ c ≠ ']' := by
  cases v with
  | text s => exact ⟨_, _, written_text l s, rfl, by decide⟩
  | list items =>
    cases items with
    | nil => exact ⟨_, _, written_list_nil l, rfl, by decide⟩
    | cons v vs => exact ⟨_, _, written_list_cons l v vs, rfl, by decide⟩
  | object fields =>
    cases fields with
    | nil => exact ⟨_, _, written_object_nil l, rfl, by decide⟩
    | cons f fs => exact ⟨_, _, written_object_cons l f fs, rfl, by decide⟩

/-! ### Reading back -/

/-- However the value is written and wherever it stands, the reader takes it for `a`. -/
def Reads (read : Reader α) (v : Json) (a : α) : Prop :=
  ∀ l ws rest, Blank ws → read (given ws ++ (given (written l v) ++ rest)) = .ok (a, rest)

theorem Reads.map {read : Reader α} {β : Type} {a : α} (h : Reads read v a) (g : α → β) :
    Reads (fun i => (read i).map fun (x, r) => (g x, r)) v (g a) := by
  intro l ws rest blank
  simp only [h l ws rest blank, Except.map]

theorem skipSpace_literal (s : String) (rest : Input) : skipSpace (given (literal s) ++ rest) =
    some '"' :: (given (s.toList.flatMap escapeChar ++ ['"']) ++ rest) := skipSpace_some rfl _

theorem reads_text (s : String) : Reads readText (.text s) s := by
  intro l ws rest blank
  rw [written_text, readText, skipSpace_blank blank, skipSpace_literal]
  exact literalFrom_literal s rest

theorem reads_choice {names : List (String × α)} {s : String} {a : α} (h : names.lookup s = some a) :
    Reads (readChoice names) (.text s) a := by
  intro l ws rest blank
  have chosen : chooseName names s = .ok a := by rw [chooseName, h]
  rw [written_text, readChoice, skipSpace_blank blank, skipSpace_literal]
  simp only [literalFrom_literal, chosen, bind, Except.bind, pure, Except.pure]

/-- Every entry takes a character. -/
theorem length_le_flatMap {β : Type} (xs : List β) {text : β → List Char} (each : ∀ x, text x ≠ []) :
    xs.length ≤ (xs.flatMap text).length := by
  induction xs with
  | nil => exact Nat.le_refl 0
  | cons x xs ih =>
    have one := List.length_pos_iff.2 (each x)
    rw [List.flatMap_cons, List.length_append, List.length_cons]
    omega

theorem readCloser_blank (closer : Char) (dark : isSpace (some closer) = false) (blank : Blank ws) (rest : Input) :
    readCloser (some closer) (given ws ++ some closer :: rest) = .ok rest := by
  rw [readCloser, skipSpace_blank blank, skipSpace_some dark]
  simp only [if_true]

/-! ### Lists -/

theorem nextItem_closer (first : Bool) (blank : Blank ws) :
    nextItem first (given ws ++ some ']' :: rest) = .ok none := by
  rw [nextItem, skipSpace_blank blank, skipSpace_some rfl]
  simp only [if_true]

theorem nextItem_first (blank : Blank ws) (l : Option Nat) (v : Json) (rest : Input) :
    nextItem true (given ws ++ (given (written l v) ++ rest)) = .ok (some (given (written l v) ++ rest)) := by
  obtain ⟨c, cs, begins, dark, inside⟩ := exists_written l v
  rw [nextItem, skipSpace_blank blank, begins, given_cons, List.cons_append, skipSpace_some dark]
  simp [inside]

theorem nextItem_next (blank : Blank ws) (l : Option Nat) (v : Json) (rest : Input) :
    nextItem false (some ',' :: (given ws ++ (given (written l v) ++ rest))) =
      .ok (some (given (written l v) ++ rest)) := by
  obtain ⟨c, cs, begins, dark, inside⟩ := exists_written l v
  have opened : skipSpace (given ws ++ some c :: (given cs ++ rest)) = some c :: (given cs ++ rest) := by
    rw [skipSpace_blank blank, skipSpace_some dark]
  rw [begins, given_cons, List.cons_append, nextItem, skipSpace_some rfl]
  simp [opened, inside]

variable {item : Reader α} {f : α → Json}

/-- The items behind the first one, and the end of the list. -/
theorem readItems_next (h : ∀ a, Reads item (f a) a) (as : List α) (l : Option Nat) (blank : Blank ws) (rest : Input)
    {fuel : Nat} (enough : as.length < fuel) :
    readItems item fuel false
      (given ((as.map f).flatMap fun v => ',' :: writtenItem l v) ++ (given ws ++ some ']' :: rest)) =
        .ok (as, rest) := by
  induction as generalizing fuel with
  | nil =>
    obtain ⟨fuel, rfl⟩ := Nat.exists_eq_add_one_of_ne_zero (Nat.ne_of_gt enough)
    have closed : readCloser (some ']') (given ws ++ some ']' :: rest) = .ok rest := readCloser_blank ']' rfl blank rest
    rw [List.map_nil, List.flatMap_nil, given_nil, List.nil_append, readItems]
    simp only [nextItem_closer false blank, closed, Except.map]
  | cons a as ih =>
    obtain ⟨fuel, rfl⟩ := Nat.exists_eq_add_one_of_ne_zero (Nat.ne_of_gt (Nat.zero_lt_of_lt enough))
    have fewer : as.length < fuel := Nat.lt_of_succ_lt_succ enough
    have first := h a l [] (given ((as.map f).flatMap fun v => ',' :: writtenItem l v) ++
      (given ws ++ some ']' :: rest)) nofun
    rw [given_nil, List.nil_append] at first
    rw [List.map_cons, List.flatMap_cons, writtenItem, List.cons_append, List.append_assoc, given_cons, given_append,
      given_append, List.cons_append, List.append_assoc, List.append_assoc, readItems]
    simp only [nextItem_next (blank_gap l), first, ih fewer, bind, Except.bind, pure, Except.pure]

theorem reads_list (h : ∀ a, Reads item (f a) a) (as : List α) : Reads (readList item) (.list (as.map f)) as := by
  intro l ws rest blank
  cases as with
  | nil =>
    rw [List.map_nil, written_list_nil, readList, skipSpace_blank blank, given_cons, List.cons_append,
      skipSpace_some rfl]
    rfl
  | cons a as =>
    let others := (as.map f).flatMap fun v => ',' :: writtenItem (deeper l) v
    let behind := given others ++ (given (gap l) ++ some ']' :: rest)
    have first := h a (deeper l) [] behind nofun
    have next (fuel : Nat) (enough : as.length < fuel) : readItems item fuel false behind = .ok (as, rest) :=
      readItems_next h as (deeper l) (blank_gap l) rest enough
    have opened : nextItem true (given (gap (deeper l)) ++ (given (written (deeper l) (f a)) ++ behind)) =
        .ok (some (given (written (deeper l) (f a)) ++ behind)) := nextItem_first (blank_gap _) _ _ _
    have text : given (written l (.list ((a :: as).map f))) ++ rest =
        some '[' :: (given (gap (deeper l)) ++ (given (written (deeper l) (f a)) ++ behind)) := by
      simp [written_list_cons, writtenItem, behind, others]
    have enough : as.length < (given (gap (deeper l)) ++ (given (written (deeper l) (f a)) ++ behind)).length := by
      have some_each : as.length ≤ others.length := by
        have each := length_le_flatMap (as.map f) fun v => List.cons_ne_nil ',' (writtenItem (deeper l) v)
        rwa [List.length_map] at each
      simp only [behind, given, List.length_append, List.length_map, List.length_cons]
      omega
    rw [given_nil, List.nil_append] at first
    rw [readList, skipSpace_blank blank, text, skipSpace_some rfl]
    simp only [readItems, opened, first, next _ enough, bind, Except.bind, pure, Except.pure]

/-! ### Records -/

theorem nextKey_closer (first : Bool) (blank : Blank ws) :
    nextKey first (given ws ++ some '\x7d' :: rest) = .ok none := by
  rw [nextKey, skipSpace_blank blank, skipSpace_some rfl]
  simp only [if_true]

theorem nextKey_first (blank : Blank ws) (k : String) (rest : Input) :
    nextKey true (given ws ++ (given (literal k) ++ rest)) =
      .ok (some (given (k.toList.flatMap escapeChar ++ ['"']) ++ rest)) := by
  rw [nextKey, skipSpace_blank blank, skipSpace_literal]
  simp

theorem nextKey_next (blank : Blank ws) (k : String) (rest : Input) :
    nextKey false (some ',' :: (given ws ++ (given (literal k) ++ rest))) =
      .ok (some (given (k.toList.flatMap escapeChar ++ ['"']) ++ rest)) := by
  have opened : skipSpace (given ws ++ (given (literal k) ++ rest)) =
      some '"' :: (given (k.toList.flatMap escapeChar ++ ['"']) ++ rest) := by
    rw [skipSpace_blank blank, skipSpace_literal]
  rw [nextKey, skipSpace_some rfl]
  simp [opened]

/-- Reading these fields, of which those `seen` have been read, takes the record from `s` to the last state. -/
inductive Fills (fields : List (Field σ)) : List String → σ → List (String × Json) → σ → Prop
  | done {seen : List String} {s : σ} : Fills fields seen s [] s
  | field {seen : List String} {s s' s'' : σ} {k : String} {v : Json} {fs : List (String × Json)} {field : Field σ}
      (known : fields.find? (·.name = k) = some field) (new : k ∉ seen) (reads : Reads (field.read s) v s')
      (more : Fills fields (k :: seen) s' fs s'') : Fills fields seen s ((k, v) :: fs) s''

variable {fields : List (Field σ)} {field : Field σ} {seen seen' : List String} {s s' s'' : σ} {k : String}
  {set : σ → α → σ} {a : α}

theorem Fills.mono (h : Fills fields seen s fs s') (fewer : seen' ⊆ seen) : Fills fields seen' s fs s' := by
  induction h generalizing seen' with
  | done => exact .done
  | field known new reads _ ih =>
    exact .field known (fun old => new (fewer old)) reads (ih (List.cons_subset_cons _ fewer))

theorem reads_field {item : Reader α} (name : String) (set : σ → α → σ) (h : Reads item v a) (s : σ) :
    Reads ((Field.of name item set).read s) v (set s a) := h.map (set s)

theorem readFields_field {first : Bool} {fuel : Nat} {behind : Input}
    (known : fields.find? (·.name = k) = some field) (new : k ∉ seen) (reads : Reads (field.read s) v s')
    (opened : nextKey first i = .ok (some (given (k.toList.flatMap escapeChar ++ ['"']) ++
      (some ':' :: (given (pad l) ++ (given (written l v) ++ behind)))))) :
    readFields fields (fuel + 1) first seen s i = readFields fields fuel false (k :: seen) s' behind := by
  have colon : readColon (some ':' :: (given (pad l) ++ (given (written l v) ++ behind))) =
      .ok (given (pad l) ++ (given (written l v) ++ behind)) := by
    rw [readColon, skipSpace_some rfl]
    simp only [if_true]
  have fresh : seen.contains k = false := by simpa using new
  have value : field.read s (given (pad l) ++ (given (written l v) ++ behind)) = .ok (s', behind) :=
    reads l (pad l) behind (blank_pad l)
  rw [readFields, opened]
  simp only [literalFrom_literal, known, fresh, colon, value, bind, Except.bind, Bool.false_eq_true, if_false]

/-- The fields behind the first one, and the end of the record. -/
theorem Fills.readFields_next (h : Fills fields seen s fs s') (l : Option Nat) (blank : Blank ws) (rest : Input)
    {fuel : Nat} (enough : fs.length < fuel) :
    readFields fields fuel false seen s
      (given (fs.flatMap fun f => ',' :: writtenField l f) ++ (given ws ++ some '\x7d' :: rest)) = .ok (s', rest) := by
  induction h generalizing fuel with
  | done =>
    obtain ⟨fuel, rfl⟩ := Nat.exists_eq_add_one_of_ne_zero (Nat.ne_of_gt enough)
    have closed : readCloser (some '\x7d') (given ws ++ some '\x7d' :: rest) = .ok rest :=
      readCloser_blank '\x7d' rfl blank rest
    rw [List.flatMap_nil, given_nil, List.nil_append, readFields]
    simp only [nextKey_closer false blank, closed, Except.map]
  | @field seen s s' s'' k v fs field known new reads _ ih =>
    obtain ⟨fuel, rfl⟩ := Nat.exists_eq_add_one_of_ne_zero (Nat.ne_of_gt (Nat.zero_lt_of_lt enough))
    have fewer : fs.length < fuel := Nat.lt_of_succ_lt_succ enough
    rw [← ih fewer]
    refine readFields_field (l := l) known new reads ?_
    have text : given (((k, v) :: fs).flatMap fun f => ',' :: writtenField l f) ++ (given ws ++ some '\x7d' :: rest) =
        some ',' :: (given (gap l) ++ (given (literal k) ++ (some ':' :: (given (pad l) ++ (given (written l v) ++
          (given (fs.flatMap fun f => ',' :: writtenField l f) ++ (given ws ++ some '\x7d' :: rest))))))) := by
      simp [writtenField]
    rw [text, nextKey_next (blank_gap l)]

theorem Fills.reads {finish : σ → Except Fault Unit} (h : Fills fields [] s fs s') (complete : finish s' = .ok ()) :
    Reads (readRecord fields finish s) (.object fs) s' := by
  intro l ws rest blank
  cases h with
  | done =>
    have none : Blank [] := nofun
    have closer : nextKey true (some '\x7d' :: rest) = .ok .none := nextKey_closer true none
    have closed : readCloser (some '\x7d') (some '\x7d' :: rest) = .ok rest := readCloser_blank '\x7d' rfl none rest
    rw [written_object_nil, readRecord, skipSpace_blank blank, given_cons, List.cons_append, skipSpace_some rfl,
      given_cons, given_nil, List.cons_append, List.nil_append]
    simp only [readFields, closer, closed, Except.map, complete, bind, Except.bind, pure, Except.pure]
  | @field _ _ s₁ _ k v fs field known new value more =>
    let others := fs.flatMap fun f => ',' :: writtenField (deeper l) f
    let behind := given others ++ (given (gap l) ++ some '\x7d' :: rest)
    let inside := given (gap (deeper l)) ++ (given (literal k) ++
      (some ':' :: (given (pad (deeper l)) ++ (given (written (deeper l) v) ++ behind))))
    have text : given (written l (.object ((k, v) :: fs))) ++ rest = some '\x7b' :: inside := by
      simp [written_object_cons, writtenField, inside, behind, others]
    have enough : fs.length < inside.length := by
      have some_each : fs.length ≤ others.length :=
        length_le_flatMap fs fun f => List.cons_ne_nil ',' (writtenField (deeper l) f)
      simp only [inside, behind, given, List.length_append, List.length_map, List.length_cons]
      omega
    have first : readFields fields (inside.length + 1) true [] s inside =
        readFields fields inside.length false [k] s₁ behind :=
      readFields_field known new value (nextKey_first (blank_gap _) k _)
    have next : readFields fields inside.length false [k] s₁ behind = .ok (s', rest) :=
      more.readFields_next (deeper l) (blank_gap l) rest enough
    rw [readRecord, skipSpace_blank blank, text, skipSpace_some rfl]
    simp only [first, next, complete, bind, Except.bind, pure, Except.pure]

/-! ### Whole texts -/

/-- Space behind a value does not matter. -/
theorem Reads.decode_spaced {read : Reader α} (h : Reads read v a) (l : Option Nat) (blank : Blank ws) :
    decode read (String.ofList (written l v ++ ws)) = .ok a := by
  have none : Blank [] := nofun
  have whole := h l [] (given ws) none
  rw [given_nil, List.nil_append, ← given_append] at whole
  have input : inputOf (String.ofList (written l v ++ ws)) = given (written l v ++ ws) := by
    rw [inputOf, String.toList_ofList, given]
  have skipped : skipSpace (given ws) = [] := by
    have all := skipSpace_blank blank []
    rwa [List.append_nil] at all
  rw [decode, readWhole, input, whole]
  simp only [bind, Except.bind, skipped]
  rfl

theorem Reads.decode_written {read : Reader α} (h : Reads read v a) (l : Option Nat) :
    decode read (String.ofList (written l v)) = .ok a := by
  have none : Blank [] := nofun
  have spaced := h.decode_spaced l none
  rwa [List.append_nil] at spaced

/-- Both written forms are read back. -/
theorem Reads.decode {read : Reader α} (h : Reads read v a) :
    decode read v.compact = .ok a ∧ decode read v.pretty = .ok a :=
  ⟨h.decode_written none, h.decode_written (some 0)⟩

end Switchyard.Json
