import Mathlib.Data.List.Basic
import Manuscript.Text.Blank

/-! # Bytes of plain text

A character below 128 is encoded as one byte, its own number, so the bytes of a text of such
characters are read off character by character (`toList_toUTF8`). All bytes of other characters are
at least 128, so a plain character is found in the bytes of any text just where it is in the text
(`count_toUTF8`).
-/

namespace Manuscript.Text

theorem toList_loop (bytes : ByteArray) (i : Nat) (read : List UInt8) :
    ByteArray.toList.loop bytes i read = read.reverse ++ bytes.data.toList.drop i := by
  fun_induction ByteArray.toList.loop bytes i read with
  | case1 i read hlt ih =>
      have hi : i < bytes.data.toList.length := by simpa using hlt
      rw [ih, List.drop_eq_getElem_cons hi]
      simp [ByteArray.get!, hlt]
  | case2 i read hlt =>
      rw [List.drop_eq_nil_of_le (by simpa using Nat.le_of_not_lt hlt), List.append_nil]

theorem toList_eq (bytes : ByteArray) : bytes.toList = bytes.data.toList :=
  toList_loop bytes 0 []

/-- The bytes of plain characters. -/
def octets (cs : List Char) : List UInt8 := cs.map Char.toUInt8

theorem octets_cons (c : Char) (cs : List Char) : octets (c :: cs) = c.toUInt8 :: octets cs := rfl

theorem octets_append (first second : List Char) :
    octets (first ++ second) = octets first ++ octets second :=
  List.map_append

theorem toNat_toUInt8 {c : Char} (hc : c.toNat < 128) : c.toUInt8.toNat = c.toNat := by
  have hmod : c.toUInt8.toNat = c.toNat % 256 := rfl
  omega

theorem utf8EncodeChar_plain {c : Char} (hc : c.toNat < 128) :
    String.utf8EncodeChar c = [c.toUInt8] := by
  apply String.utf8EncodeChar_eq_singleton
  rw [Char.utf8Size_eq_one_iff, UInt32.le_iff_toNat_le]
  exact Nat.le_of_lt_succ hc

theorem toList_data_utf8Encode_cons (c : Char) (cs : List Char) :
    (c :: cs).utf8Encode.data.toList = String.utf8EncodeChar c ++ cs.utf8Encode.data.toList := by
  rw [List.utf8Encode_cons, List.utf8Encode_singleton, ByteArray.data_append, Array.toList_append,
    List.toList_data_toByteArray]

theorem toList_data_utf8Encode {cs : List Char} (hcs : ∀ c ∈ cs, c.toNat < 128) :
    cs.utf8Encode.data.toList = octets cs := by
  induction cs with
  | nil => rfl
  | cons c cs ih =>
      rw [List.forall_mem_cons] at hcs
      rw [toList_data_utf8Encode_cons, utf8EncodeChar_plain hcs.1, ih hcs.2]
      rfl

theorem toList_toUTF8 {cs : List Char} (hcs : ∀ c ∈ cs, c.toNat < 128) :
    (String.ofList cs).toUTF8.toList = octets cs := by
  rw [toList_eq, String.toUTF8_eq_toByteArray, String.toByteArray_ofList]
  exact toList_data_utf8Encode hcs

/-! ## Plain characters in any text -/

/-- Every byte of a character that is not plain is at least 128. -/
theorem le_of_mem_utf8EncodeChar {c : Char} {byte : UInt8} (hc : 128 ≤ c.toNat)
    (hbyte : byte ∈ String.utf8EncodeChar c) : 128 ≤ byte.toNat := by
  have hval : ¬ c.val.toNat ≤ 127 := Nat.not_le.mpr hc
  simp only [String.utf8EncodeChar, if_neg hval] at hbyte
  split at hbyte
  next hle =>
    simp only [List.mem_cons, List.not_mem_nil, or_false] at hbyte
    rcases hbyte with rfl | rfl <;> rw [UInt8.toNat_ofNat'] <;> omega
  next =>
    split at hbyte <;> simp only [List.mem_cons, List.not_mem_nil, or_false] at hbyte
    · rcases hbyte with rfl | rfl | rfl <;> rw [UInt8.toNat_ofNat'] <;> omega
    · rcases hbyte with rfl | rfl | rfl | rfl <;> rw [UInt8.toNat_ofNat'] <;> omega

section

variable {mark : Char} (hmark : mark.toNat < 128)
include hmark

theorem toUInt8_eq_iff {c : Char} (hc : c.toNat < 128) : c.toUInt8 = mark.toUInt8 ↔ c = mark := by
  rw [← UInt8.toNat_inj, toNat_toUInt8 hc, toNat_toUInt8 hmark, Char.toNat_inj]

/-- The byte of a plain character is in the bytes of that character and of no other. -/
theorem count_utf8EncodeChar (c : Char) :
    (String.utf8EncodeChar c).count mark.toUInt8 = [c].count mark := by
  rcases Nat.lt_or_ge c.toNat 128 with hc | hc
  · rw [utf8EncodeChar_plain hc, List.count_singleton, List.count_singleton]
    simp only [beq_iff_eq, toUInt8_eq_iff hmark hc]
  · have hbytes : mark.toUInt8 ∉ String.utf8EncodeChar c := by
      intro hmem
      have hle := le_of_mem_utf8EncodeChar hc hmem
      rw [toNat_toUInt8 hmark] at hle
      omega
    have hne : mark ∉ [c] := by
      rw [List.mem_singleton]
      rintro rfl
      omega
    rw [List.count_eq_zero.mpr hbytes, List.count_eq_zero.mpr hne]

/-- A plain character is as often in a text as its byte is in the bytes of the text. -/
theorem count_toUTF8 (s : String) : s.toUTF8.toList.count mark.toUInt8 = s.toList.count mark := by
  have hencode (cs : List Char) :
      cs.utf8Encode.data.toList.count mark.toUInt8 = cs.count mark := by
    induction cs with
    | nil => rfl
    | cons c cs ih =>
        rw [toList_data_utf8Encode_cons, List.count_append, ih, count_utf8EncodeChar hmark,
          ← List.count_append, List.singleton_append]
  have hbytes : s.toByteArray = s.toList.utf8Encode := by
    rw [← String.toByteArray_ofList, String.ofList_toList]
  rw [toList_eq, String.toUTF8_eq_toByteArray, hbytes, hencode]

end

end Manuscript.Text
