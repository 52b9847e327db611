import Manuscript.Text.Digit
import Mathlib

/-! # Written numbers

A numeral is a run of plain digits. Padding a number with zeros gives a numeral of that
number and of the asked length (`isNumeral_padded`, `length_padded`), and a numeral is
read as the number that it writes (`IsNumeral.decimalValue_eq`).
-/

namespace Manuscript.Text

/-- A text is written as it is. -/
theorem toString_text (text : String) : toString text = text := rfl

/-- Plain digits that write a number in base ten. -/
structure IsNumeral (cs : List Char) (n : Nat) : Prop where
  digits : ∀ c ∈ cs, c.isDigit = true
  value : Nat.ofDigitChars 10 cs 0 = n

theorem toNat_of_isDigit {c : Char} (hc : c.isDigit = true) : 48 ≤ c.toNat ∧ c.toNat ≤ 57 := by
  simp only [Char.isDigit, Bool.and_eq_true, decide_eq_true_eq] at hc
  exact ⟨UInt32.le_iff_toNat_le.mp hc.1, UInt32.le_iff_toNat_le.mp hc.2⟩

theorem digit?_of_isDigit {c : Char} (hc : c.isDigit = true) : digit? c = some (c.toNat - 48) := by
  have hrange := toNat_of_isDigit hc
  simp [digit?, show c.toNat < 128 by omega, hrange]

theorem isDigit_of_plain {c : Char} (hc : c.isDigit = true) : isDigit c = true := by
  rw [isDigit, digit?_of_isDigit hc]
  rfl

theorem IsNumeral.decimalValue_eq {cs : List Char} {n : Nat} (hcs : IsNumeral cs n) :
    decimalValue cs = n := by
  obtain ⟨hdigits, rfl⟩ := hcs
  refine List.foldl_ext _ _ _ fun value c hmem => ?_
  rw [digit?_of_isDigit (hdigits c hmem), Nat.mul_comm]
  rfl

/-! ## Numbers with and without padding -/

theorem isNumeral_toString (n : Nat) : IsNumeral (toString n).toList n := by
  rw [Nat.toString_eq_ofList_toDigits, String.toList_ofList]
  exact ⟨fun c hmem => Nat.isDigit_of_mem_toDigits (by decide) (by decide) hmem,
    Nat.ofDigitChars_ten_toDigits⟩

theorem toList_padded (width n : Nat) :
    (padded width n).toList =
      List.replicate (width - (toString n).toList.length) '0' ++ (toString n).toList := by
  rw [padded, String.toList_append, String.toList_ofList, String.length_toList]

theorem isNumeral_padded (width n : Nat) : IsNumeral (padded width n).toList n := by
  have hn := isNumeral_toString n
  have hzeros : ∀ count, Nat.ofDigitChars 10 (List.replicate count '0') 0 = 0 := by
    intro count
    induction count with
    | zero => rfl
    | succ count ih => exact ih
  rw [toList_padded]
  refine ⟨fun c hmem => ?_, by rw [Nat.ofDigitChars_append, hzeros, hn.value]⟩
  rcases List.mem_append.mp hmem with hzero | hmem
  · obtain rfl := List.eq_of_mem_replicate hzero
    decide
  · exact hn.digits c hmem

theorem length_toString_le {width n : Nat} (hwidth : 0 < width) (hn : n < 10 ^ width) :
    (toString n).toList.length ≤ width := by
  rw [Nat.toString_eq_ofList_toDigits, String.toList_ofList]
  exact (Nat.length_toDigits_le_iff (by decide) hwidth).mpr hn

theorem length_padded {width n : Nat} (hwidth : 0 < width) (hn : n < 10 ^ width) :
    (padded width n).toList.length = width := by
  have hle := length_toString_le hwidth hn
  rw [toList_padded, List.length_append, List.length_replicate]
  omega

theorem toString_ne_nil (n : Nat) : (toString n).toList ≠ [] := by
  rw [Nat.toString_eq_ofList_toDigits, String.toList_ofList]
  exact Nat.toDigits_ne_nil

theorem padded_ne_nil (width n : Nat) : (padded width n).toList ≠ [] := by
  rw [toList_padded]
  exact List.append_ne_nil_of_right_ne_nil _ (toString_ne_nil n)

theorem length_toString {width n : Nat} (hlow : 10 ^ width ≤ n) (hhigh : n < 10 ^ (width + 1)) :
    (toString n).toList.length = width + 1 := by
  have hle := length_toString_le (by omega) hhigh
  have hlong : ¬ (toString n).toList.length ≤ width := by
    rw [Nat.toString_eq_ofList_toDigits, String.toList_ofList]
    cases width with
    | zero => exact Nat.not_le.mpr Nat.length_toDigits_pos
    | succ width =>
        rw [Nat.length_toDigits_le_iff (by decide) (by omega)]
        omega
  omega

theorem exists_digitChar {c : Char} (hc : c.isDigit = true) :
    ∃ digit < 10, c = Nat.digitChar digit := by
  have hrange := toNat_of_isDigit hc
  refine ⟨c.toNat - 48, by omega, Char.toNat_inj.mp ?_⟩
  rw [Nat.toNat_digitChar_of_lt_ten (by omega)]
  omega

/-- The numerals of one or two digits. -/
theorem IsNumeral.eq_digits {cs : List Char} {n : Nat} (hcs : IsNumeral cs n) (hne : cs ≠ [])
    (hlength : cs.length ≤ 2) :
    (∃ ones < 10, cs = [Nat.digitChar ones] ∧ n = ones) ∨
      ∃ tens < 10, ∃ ones < 10, cs = [Nat.digitChar tens, Nat.digitChar ones] ∧
        n = 10 * tens + ones := by
  obtain ⟨hdigits, rfl⟩ := hcs
  match cs, hlength with
  | [first], _ =>
      obtain ⟨ones, hones, rfl⟩ := exists_digitChar (hdigits first (by simp))
      exact .inl ⟨ones, hones, rfl, by simp [Nat.ofDigitChars_cons_digitChar_of_lt_ten hones]⟩
  | [first, second], _ =>
      obtain ⟨tens, htens, rfl⟩ := exists_digitChar (hdigits first (by simp))
      obtain ⟨ones, hones, rfl⟩ := exists_digitChar (hdigits second (by simp))
      refine .inr ⟨tens, htens, ones, hones, rfl, ?_⟩
      simp [Nat.ofDigitChars_cons_digitChar_of_lt_ten, htens, hones]

end Manuscript.Text
