import Mathlib.Data.List.Basic
import Mathlib.Tactic.Common
import Switchyard.Proofs.Text.Utf8

/-!
Characters written as bytes and read back. Main statement: the bytes of a text are read as that text.
-/
namespace Switchyard.Text

variable {c : Char} {n : Nat}

theorem toNat_byte (h : n < 256) : (UInt8.ofNat n).toNat = n := UInt8.toNat_ofNat_of_lt' h

/-- A byte inside a character carries six bits. -/
theorem continuationBits_ofNat (h : n < 64) : continuationBits (UInt8.ofNat (n + 128)) = n := by
  have byte : (UInt8.ofNat (n + 128)).toNat = n + 128 := toNat_byte (by omega)
  unfold continuationBits
  rw [byte]
  omega

theorem isContinuation_ofNat (h : n < 64) : isContinuation (UInt8.ofNat (n + 128)) = true := by
  have byte : (UInt8.ofNat (n + 128)).toNat = n + 128 := toNat_byte (by omega)
  have low : (0x80 : UInt8).toNat = 0x80 := rfl
  have high : (0xC0 : UInt8).toNat = 0xC0 := rfl
  rw [isContinuation, Bool.and_eq_true, decide_eq_true_iff, decide_eq_true_iff, UInt8.le_iff_toNat_le,
    UInt8.lt_iff_toNat_lt, byte, low, high]
  omega

/-- No character is a surrogate or past the last one. -/
theorem toNat_bounds (c : Char) : c.toNat < 0x110000 ∧ ¬(0xD800 ≤ c.toNat ∧ c.toNat < 0xE000) := by
  have valid : c.toNat < 0xD800 ∨ 0xDFFF < c.toNat ∧ c.toNat < 0x110000 := c.valid
  omega

theorem firstChar?_utf8EncodeChar (c : Char) (r : List UInt8) :
    firstChar? (String.utf8EncodeChar c ++ r) = some (c, r) := by
  have bounds := toNat_bounds c
  have code : c.val.toNat = c.toNat := rfl
  have same : Char.ofNat c.toNat = c := Char.ofNat_toNat c
  have bits {k : Nat} : k % 64 < 64 := Nat.mod_lt _ (by decide)
  have h80 : (0x80 : UInt8).toNat = 0x80 := rfl
  have hC2 : (0xC2 : UInt8).toNat = 0xC2 := rfl
  have hE0 : (0xE0 : UInt8).toNat = 0xE0 := rfl
  have hF0 : (0xF0 : UInt8).toNat = 0xF0 := rfl
  have hF5 : (0xF5 : UInt8).toNat = 0xF5 := rfl
  unfold String.utf8EncodeChar
  simp only [code]
  split
  next one =>
    have byte : (UInt8.ofNat c.toNat).toNat = c.toNat := toNat_byte (by omega)
    simp only [List.cons_append, List.nil_append, firstChar?, UInt8.lt_iff_toNat_lt, byte, h80]
    rw [if_pos (by omega), same]
  next =>
    split
    next two =>
      have lead : (UInt8.ofNat (c.toNat / 64 % 32 + 192)).toNat = c.toNat / 64 % 32 + 192 := toNat_byte (by omega)
      have inside := isContinuation_ofNat (bits (k := c.toNat))
      have carried := continuationBits_ofNat (bits (k := c.toNat))
      have joined : (c.toNat / 64 % 32 + 192 - 0xC0) * 64 + c.toNat % 64 = c.toNat := by omega
      simp only [List.cons_append, List.nil_append, firstChar?, UInt8.lt_iff_toNat_lt, UInt8.le_iff_toNat_le,
        Bool.and_eq_true, decide_eq_true_eq, lead, h80, hC2, hE0, inside, carried, joined, same]
      rw [if_neg (by omega), if_pos (by omega)]
      exact if_pos trivial
    next =>
      split
      next three =>
        have lead : (UInt8.ofNat (c.toNat / 4096 % 16 + 224)).toNat = c.toNat / 4096 % 16 + 224 :=
          toNat_byte (by omega)
        have inside := isContinuation_ofNat (bits (k := c.toNat / 64))
        have carried := continuationBits_ofNat (bits (k := c.toNat / 64))
        have inside' := isContinuation_ofNat (bits (k := c.toNat))
        have carried' := continuationBits_ofNat (bits (k := c.toNat))
        have joined : ((c.toNat / 4096 % 16 + 224 - 0xE0) * 64 + c.toNat / 64 % 64) * 64 + c.toNat % 64 = c.toNat := by
          omega
        simp only [List.cons_append, List.nil_append, firstChar?, UInt8.lt_iff_toNat_lt, UInt8.le_iff_toNat_le,
          Bool.and_eq_true, Bool.not_eq_true', Bool.and_eq_false_iff, decide_eq_true_eq, decide_eq_false_iff_not, lead,
          h80, hC2, hE0, hF0, inside, carried, inside', carried', joined, same]
        rw [if_neg (by omega), if_neg (by omega), if_pos (by omega)]
        exact if_pos ⟨⟨⟨trivial, trivial⟩, by omega⟩, by omega⟩
      next four =>
        have lead : (UInt8.ofNat (c.toNat / 262144 % 8 + 240)).toNat = c.toNat / 262144 % 8 + 240 :=
          toNat_byte (by omega)
        have inside := isContinuation_ofNat (bits (k := c.toNat / 4096))
        have carried := continuationBits_ofNat (bits (k := c.toNat / 4096))
        have inside' := isContinuation_ofNat (bits (k := c.toNat / 64))
        have carried' := continuationBits_ofNat (bits (k := c.toNat / 64))
        have inside'' := isContinuation_ofNat (bits (k := c.toNat))
        have carried'' := continuationBits_ofNat (bits (k := c.toNat))
        have joined : (((c.toNat / 262144 % 8 + 240 - 0xF0) * 64 + c.toNat / 4096 % 64) * 64 + c.toNat / 64 % 64) * 64 +
            c.toNat % 64 = c.toNat := by omega
        simp only [List.cons_append, List.nil_append, firstChar?, UInt8.lt_iff_toNat_lt, UInt8.le_iff_toNat_le,
          Bool.and_eq_true, decide_eq_true_eq, lead, h80, hC2, hE0, hF0, hF5, inside, carried, inside', carried',
          inside'', carried'', joined, same]
        rw [if_neg (by omega), if_neg (by omega), if_neg (by omega), if_pos (by omega)]
        exact if_pos ⟨⟨⟨⟨trivial, trivial⟩, trivial⟩, by omega⟩, by omega⟩

theorem decodeBytes_utf8 (cs : List Char) : decodeBytes (cs.flatMap String.utf8EncodeChar) = cs.map some := by
  induction cs with
  | nil => rfl
  | cons c cs ih =>
    have first := firstChar?_utf8EncodeChar c (cs.flatMap String.utf8EncodeChar)
    cases bytes : String.utf8EncodeChar c ++ cs.flatMap String.utf8EncodeChar with
    | nil =>
      rw [bytes] at first
      cases first
    | cons b bs =>
      rw [bytes] at first
      rw [List.flatMap_cons, bytes, decodeBytes_some first, ih]
      rfl

theorem toList_loop (bs : ByteArray) (i : Nat) (r : List UInt8) :
    ByteArray.toList.loop bs i r = r.reverse ++ bs.data.toList.drop i := by
  induction i, r using ByteArray.toList.loop.induct bs with
  | case1 i r more ih =>
    have inside : i < bs.data.toList.length := more
    have here : bs.get! i = bs.data.toList[i] := by
      change bs.data[i]! = _
      rw [getElem!_pos bs.data i more, Array.getElem_toList]
    rw [ByteArray.toList.loop, if_pos more, ih, here, List.drop_eq_getElem_cons inside, List.reverse_cons,
      List.append_assoc]
    rfl
  | case2 i r none =>
    have past : bs.data.toList.length ≤ i := Nat.le_of_not_lt none
    rw [ByteArray.toList.loop, if_neg none, List.drop_eq_nil_of_le past, List.append_nil]

theorem toList_toUTF8 (s : String) : s.toUTF8.toList = s.toList.flatMap String.utf8EncodeChar := by
  have bytes : s.toUTF8 = (s.toList.flatMap String.utf8EncodeChar).toByteArray := by
    conv => lhs; rw [← String.ofList_toList (s := s)]
    rfl
  rw [bytes, ByteArray.toList, toList_loop, List.data_toByteArray]
  rfl

/-- The bytes of a text are read as that text. -/
theorem decodeBytes_toUTF8 (s : String) : decodeBytes s.toUTF8.toList = s.toList.map some := by
  rw [toList_toUTF8, decodeBytes_utf8]

theorem ofBytes?_toUTF8 (s : String) : ofBytes? s.toUTF8.toList = some s := by
  have read : (s.toList.map some).mapM id = some s.toList := by
    induction s.toList with
    | nil => rfl
    | cons c cs ih => simp [ih]
  rw [ofBytes?, decodeBytes_toUTF8, read, Option.map_some, String.ofList_toList]

end Switchyard.Text
