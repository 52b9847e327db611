import Manuscript.Text.Blank

/-! # Cutting lists

Cutting a list at the elements that satisfy a test is the library's `splitOnP`.
Its parts hold no element that cuts, there is one more of them than there are
cuts, and joining them with a separator undoes cutting at the separator.
-/

namespace Manuscript.Text

variable {α : Type} {cut : α → Bool}

theorem splitBy_cons (c : α) (cs : List α) :
    splitBy cut (c :: cs) =
      if cut c then [] :: splitBy cut cs else (splitBy cut cs).modifyHead (c :: ·) := by
  rw [splitBy]
  cases hparts : splitBy cut cs with
  | nil => exact absurd hparts (splitBy_ne_nil cut cs)
  | cons part parts => rfl

theorem splitBy_eq_splitOnP (cs : List α) : splitBy cut cs = cs.splitOnP cut := by
  induction cs with
  | nil => rfl
  | cons c cs ih => rw [splitBy_cons, List.splitOnP_cons_eq_if_modifyHead, ih]

theorem length_splitBy (cs : List α) : (splitBy cut cs).length = cs.countP cut + 1 := by
  induction cs with
  | nil => rfl
  | cons c cs ih =>
      rw [splitBy_cons, List.countP_cons]
      split
      · rw [List.length_cons, ih]
      · rw [List.length_modifyHead, ih]

/-- The parts hold the elements that do not cut. -/
theorem of_mem_splitBy {cs part : List α} (hpart : part ∈ splitBy cut cs) {c : α}
    (hmem : c ∈ part) : cut c = false ∧ c ∈ cs := by
  induction cs generalizing part with
  | nil => simp_all [splitBy]
  | cons first rest ih =>
      obtain ⟨head, tail, hparts⟩ := List.exists_cons_of_ne_nil (splitBy_ne_nil cut rest)
      rw [splitBy_cons, hparts] at hpart
      rw [hparts] at ih
      have hrest : ∀ {part}, part ∈ head :: tail → c ∈ part → cut c = false ∧ c ∈ first :: rest :=
        fun hpart hmem => (ih hpart hmem).imp_right (List.mem_cons_of_mem _)
      by_cases hcut : cut first = true
      · rw [if_pos hcut] at hpart
        rcases List.mem_cons.mp hpart with rfl | hpart
        · simp at hmem
        · exact hrest hpart hmem
      · rw [if_neg hcut, List.modifyHead_cons] at hpart
        rcases List.mem_cons.mp hpart with rfl | hpart
        · rcases List.mem_cons.mp hmem with rfl | hmem
          · exact ⟨by simpa using hcut, List.mem_cons_self⟩
          · exact hrest List.mem_cons_self hmem
        · exact hrest (List.mem_cons_of_mem _ hpart) hmem

section Separator

variable [BEq α] [LawfulBEq α] (separator : α)

omit [LawfulBEq α] in
theorem splitBy_eq_splitOn (cs : List α) : splitBy (· == separator) cs = cs.splitOn separator := by
  rw [splitBy_eq_splitOnP, ← List.splitOn_eq_splitOnP]

theorem notMem_of_mem_splitBy {cs part : List α} (hpart : part ∈ splitBy (· == separator) cs) :
    separator ∉ part := by
  intro hmem
  have hcut := (of_mem_splitBy hpart hmem).1
  simp at hcut

theorem splitBy_intercalate {parts : List (List α)} (hparts : ∀ part ∈ parts, separator ∉ part)
    (hne : parts ≠ []) : splitBy (· == separator) ([separator].intercalate parts) = parts := by
  rw [splitBy_eq_splitOn]
  exact List.splitOn_intercalate separator hparts hne

end Separator

end Manuscript.Text
