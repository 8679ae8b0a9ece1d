import Mathlib.Data.List.TakeWhile
import Switchyard.Http.Message
import Switchyard.Proofs.Text.Encoding

/-!
Names in paths. Main statement: however a name has been percent encoded, the path names the table of that name.
-/
namespace Switchyard.Http

variable {c h l : Char} {b : UInt8} {bs : List UInt8} {cs : List Char} {n : Nat} {name segment : String}

/-! ### Percent encoding -/

/-- What may stand for itself in a segment of a path. -/
def isSegmentChar (c : Char) : Bool := c.isAlphanum || "-._~!$&'()*+,;=:@".toList.contains c

/-- A digit to base sixteen, small or capital. -/
def IsHexDigit (c : Char) (n : Nat) : Prop := c = n.digitChar ∨ c = n.digitChar.toUpper

/-- The characters spell the bytes, each as itself or by two digits behind a percent sign. -/
inductive Spells : List UInt8 → List Char → Prop
  | done : Spells [] []
  | plain {c : Char} {bs : List UInt8} {cs : List Char} (allowed : isSegmentChar c = true) (more : Spells bs cs) :
      Spells (UInt8.ofNat c.toNat :: bs) (c :: cs)
  | escaped {b : UInt8} {h l : Char} {bs : List UInt8} {cs : List Char} (high : IsHexDigit h (b.toNat / 16))
      (low : IsHexDigit l (b.toNat % 16)) (more : Spells bs cs) : Spells (b :: bs) ('%' :: h :: l :: cs)

/-- The segment is the name, percent encoded in one of the possible ways. -/
def Encodes (segment name : String) : Prop := Spells name.toUTF8.toList segment.toList

def percentEncodeByte (b : UInt8) : List Char :=
  let c := Char.ofNat b.toNat
  if isSegmentChar c then [c] else ['%', (b.toNat / 16).digitChar, (b.toNat % 16).digitChar]

def percentEncode (name : String) : String := String.ofList (name.toUTF8.toList.flatMap percentEncodeByte)

theorem toNat_of_isAlphanum (alphanumeric : c.isAlphanum = true) : c.toNat < 128 := by
  have code : c.val.toNat = c.toNat := rfl
  have capital : 'Z'.val.toNat = 90 := rfl
  have small : 'z'.val.toNat = 122 := rfl
  have digit : '9'.val.toNat = 57 := rfl
  unfold Char.isAlphanum Char.isAlpha Char.isUpper Char.isLower Char.isDigit at alphanumeric
  simp only [Bool.or_eq_true, Bool.and_eq_true, decide_eq_true_eq, ge_iff_le, UInt32.le_iff_toNat_le, code, capital, small,
    digit] at alphanumeric
  omega

theorem segmentChar_cases (allowed : isSegmentChar c = true) :
    c.toNat < 128 ∧ c ≠ '%' ∧ c ≠ '/' ∧ c ≠ '?' ∧ c ≠ '#' := by
  -- `all` goes through the list; a bounded quantifier can be decided by going through every character there is
  have marks : ("-._~!$&'()*+,;=:@".toList.all fun c =>
      c.toNat < 128 ∧ c ≠ '%' ∧ c ≠ '/' ∧ c ≠ '?' ∧ c ≠ '#') = true := by decide
  rcases Bool.or_eq_true_iff.1 allowed with alphanumeric | mark
  · have other {mark : Char} (none : mark.isAlphanum = false) : c ≠ mark := by
      rintro rfl
      exact Bool.false_ne_true (none.symm.trans alphanumeric)
    exact ⟨toNat_of_isAlphanum alphanumeric, other rfl, other rfl, other rfl, other rfl⟩
  · exact of_decide_eq_true (List.all_eq_true.1 marks c (List.contains_iff_mem.1 mark))

theorem isHexDigit_cases (digit : IsHexDigit c n) (small : n < 16) :
    c.toNat < 128 ∧ c ≠ '/' ∧ c ≠ '?' ∧ c ≠ '#' ∧ hexByte? (UInt8.ofNat c.toNat) = some (UInt8.ofNat n) := by
  have digits : ∀ n < 16, ([n.digitChar, n.digitChar.toUpper].all fun c => c.toNat < 128 ∧ c ≠ '/' ∧ c ≠ '?' ∧
      c ≠ '#' ∧ hexByte? (UInt8.ofNat c.toNat) = some (UInt8.ofNat n)) = true := by decide +kernel
  exact of_decide_eq_true (List.all_eq_true.1 (digits n small) c (by simpa [IsHexDigit] using digit))

theorem utf8EncodeChar_ascii (ascii : c.toNat < 128) : String.utf8EncodeChar c = [UInt8.ofNat c.toNat] := by
  have one : c.val.toNat ≤ 127 := Nat.le_of_lt_succ ascii
  unfold String.utf8EncodeChar
  exact if_pos one

theorem percentDecode_plain (other : b ≠ 37) (bs : List UInt8) : percentDecode (b :: bs) = b :: percentDecode bs := by
  rw [percentDecode]
  rintro _ _ _ rfl
  exact absurd rfl other

/-- What has been spelled is decoded. -/
theorem Spells.percentDecode (spells : Spells bs cs) : percentDecode (cs.flatMap String.utf8EncodeChar) = bs := by
  induction spells with
  | done => rfl
  | @plain c bs cs allowed more ih =>
    obtain ⟨ascii, notPercent, -⟩ := segmentChar_cases allowed
    have other : UInt8.ofNat c.toNat ≠ 37 := by
      intro same
      have code : c.toNat = 37 := by
        rw [← Text.toNat_byte (show c.toNat < 256 by omega), same]
        rfl
      exact notPercent (by rw [← Char.ofNat_toNat c, code])
    rw [List.flatMap_cons, utf8EncodeChar_ascii ascii, List.singleton_append, percentDecode_plain other, ih]
  | @escaped b h l bs cs high low more ih =>
    have byte : b.toNat < 256 := b.toNat_lt
    obtain ⟨asciiHigh, -, -, -, readHigh⟩ := isHexDigit_cases high (by omega)
    obtain ⟨asciiLow, -, -, -, readLow⟩ := isHexDigit_cases low (by omega)
    have joined : UInt8.ofNat (b.toNat / 16) * 16 + UInt8.ofNat (b.toNat % 16) = b := by
      have sixteen : (16 : UInt8).toNat = 16 := rfl
      refine UInt8.toNat_inj.1 ?_
      rw [UInt8.toNat_add, UInt8.toNat_mul, Text.toNat_byte (by omega), Text.toNat_byte (by omega), sixteen]
      omega
    have percent : String.utf8EncodeChar '%' = [37] := rfl
    rw [List.flatMap_cons, List.flatMap_cons, List.flatMap_cons, percent, utf8EncodeChar_ascii asciiHigh,
      utf8EncodeChar_ascii asciiLow]
    simp only [List.cons_append, List.nil_append, Http.percentDecode, readHigh, readLow, joined, ih]

theorem Encodes.decodeSegment (encodes : Encodes segment name) : decodeSegment segment = some name := by
  rw [Http.decodeSegment, Text.toList_toUTF8, Spells.percentDecode encodes, Text.ofBytes?_toUTF8]

/-- Every name can be encoded. -/
theorem encodes_percentEncode (name : String) : Encodes (percentEncode name) name := by
  rw [Encodes, percentEncode, String.toList_ofList]
  induction name.toUTF8.toList with
  | nil => exact .done
  | cons b bs ih =>
    rw [List.flatMap_cons, percentEncodeByte]
    split
    case isTrue allowed =>
      have same : UInt8.ofNat (Char.ofNat b.toNat).toNat = b := by
        have byte : b.toNat < 256 := b.toNat_lt
        have valid : b.toNat.isValidChar := .inl (by omega)
        have code : (Char.ofNat b.toNat).toNat = b.toNat := by
          rw [Char.ofNat, dif_pos valid]
          rfl
        rw [code, UInt8.ofNat_toNat]
      have plain := Spells.plain allowed ih
      rwa [same] at plain
    case isFalse => exact .escaped (.inl rfl) (.inl rfl) ih

/-! ### The path of a table -/

theorem Spells.inSegment (spells : Spells bs cs) : ∀ c ∈ cs, c ≠ '/' ∧ c ≠ '?' ∧ c ≠ '#' := by
  induction spells with
  | done => exact nofun
  | @plain c bs cs allowed more ih =>
    obtain ⟨-, -, first⟩ := segmentChar_cases allowed
    exact List.forall_mem_cons.2 ⟨first, ih⟩
  | @escaped b h l bs cs high low more ih =>
    have byte : b.toNat < 256 := b.toNat_lt
    obtain ⟨-, h₁, h₂, h₃, -⟩ := isHexDigit_cases high (by omega)
    obtain ⟨-, l₁, l₂, l₃, -⟩ := isHexDigit_cases low (by omega)
    exact List.forall_mem_cons.2 ⟨by decide, List.forall_mem_cons.2 ⟨⟨h₁, h₂, h₃⟩,
      List.forall_mem_cons.2 ⟨⟨l₁, l₂, l₃⟩, ih⟩⟩⟩

theorem Encodes.ne_empty (encodes : Encodes segment name) (named : name ≠ "") : segment ≠ "" := by
  rintro rfl
  have read := encodes.decodeSegment
  have nothing : Http.decodeSegment "" = some "" := by decide +kernel
  rw [nothing] at read
  exact named (Option.some.inj read).symm

/-- The path of the table whose name the segment gives. -/
def tablePath (segment : String) : String := "/api/tables/" ++ segment

theorem Encodes.ofTarget? (encodes : Encodes segment name) (named : name ≠ "") :
    Resource.ofTarget? (tablePath segment) = some (.table segment) := by
  have inside := Spells.inSegment encodes
  have path : (tablePath segment).toList = "/api/tables/".toList ++ segment.toList := String.toList_append
  have relative : Resource.relativeTarget (tablePath segment).toList = (tablePath segment).toList := by
    rw [Resource.relativeTarget]
    split
    next => rw [if_pos (by rw [path]; rfl)]
    next => rfl
  have whole : (tablePath segment).toList.takeWhile (fun c => c ≠ '?' && c ≠ '#') = (tablePath segment).toList := by
    have fixed : ("/api/tables/".toList.all fun c => c ≠ '?' && c ≠ '#') = true := by decide
    rw [List.takeWhile_eq_self_iff, path]
    intro c hc
    rcases List.mem_append.1 hc with before | given
    · exact List.all_eq_true.1 fixed c before
    · obtain ⟨-, noQuery, noFragment⟩ := inside c given
      simp [noQuery, noFragment]
  have parts : (tablePath segment).toList =
      ['/'].intercalate ["".toList, "api".toList, "tables".toList, segment.toList] := by
    rw [path]
    simp [List.intercalate]
  have split : (tablePath segment).toList.splitOn '/' = ["".toList, "api".toList, "tables".toList, segment.toList] := by
    rw [parts]
    refine List.splitOn_intercalate '/' ?_ (List.cons_ne_nil _ _)
    have fixed : ∀ part ∈ ["".toList, "api".toList, "tables".toList], '/' ∉ part := by decide
    intro part hpart
    have listed : part ∈ ["".toList, "api".toList, "tables".toList] ++ [segment.toList] := hpart
    rcases List.mem_append.1 listed with before | given
    · exact fixed part before
    · rw [List.mem_singleton.1 given]
      exact fun slash => (inside _ slash).1 rfl
  have named := encodes.ne_empty named
  rw [Resource.ofTarget?, relative, whole, split]
  simp only [List.map_cons, List.map_nil, String.ofList_toList]
  exact if_neg named

end Switchyard.Http
