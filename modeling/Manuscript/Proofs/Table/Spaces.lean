import Mathlib.Data.List.Forall2
import Manuscript.Proofs.Table.Cellwise
import Manuscript.Proofs.Table.Lines

/-! # Tabs and spaces

Aligning a text puts some spaces in the place of each tab and keeps all other
characters (`spaced_align`). An aligned text is therefore aligned already, and but
for tabs and spaces it is the text that it was made from (`align_only_replaces_tabs`).
-/

namespace Manuscript.Table

/-- A text with some spaces, or none, in the place of each tab. -/
inductive Spaced : List Char → List Char → Prop
  | nil : Spaced [] []
  | keep {c : Char} {text spaced : List Char} (hc : c ≠ '\t') (hrest : Spaced text spaced) :
      Spaced (c :: text) (c :: spaced)
  | tab {text spaced : List Char} (spaces : Nat) (hrest : Spaced text spaced) :
      Spaced ('\t' :: text) (List.replicate spaces ' ' ++ spaced)

namespace Spaced

section

variable {text spaced : List Char}

theorem refl (htabs : '\t' ∉ text) : Spaced text text := by
  induction text with
  | nil => exact .nil
  | cons c text ih =>
      rw [List.mem_cons, not_or] at htabs
      exact .keep (Ne.symm htabs.1) (ih htabs.2)

theorem append {text' spaced' : List Char} (hspaced : Spaced text spaced)
    (hspaced' : Spaced text' spaced') : Spaced (text ++ text') (spaced ++ spaced') := by
  induction hspaced with
  | nil => exact hspaced'
  | keep hc _ ih => exact .keep hc ih
  | tab spaces _ ih =>
      rw [List.cons_append, List.append_assoc]
      exact .tab spaces ih

/-- Texts joined by a separator that is not a tab are spaced if each of them is. -/
theorem intercalate {separator : Char} (hseparator : separator ≠ '\t')
    {texts others : List (List Char)} (hspaced : List.Forall₂ Spaced texts others) :
    Spaced ([separator].intercalate texts) ([separator].intercalate others) := by
  induction hspaced with
  | nil => exact .nil
  | @cons text spaced rest spacedRest hfirst hrest ih =>
      cases hrest with
      | nil => simpa using hfirst
      | cons _ _ =>
          rw [List.intercalate_cons_cons, List.intercalate_cons_cons, List.append_assoc,
            List.append_assoc]
          exact hfirst.append (.keep hseparator ih)

theorem tab_notMem (hspaced : Spaced text spaced) : '\t' ∉ spaced := by
  induction hspaced with
  | nil => exact List.not_mem_nil
  | keep hc _ ih => simpa using ⟨Ne.symm hc, ih⟩
  | tab spaces _ ih => simpa using ih

/-- A text without tabs is kept as it is. -/
theorem eq_of_tab_notMem (hspaced : Spaced text spaced) (htabs : '\t' ∉ text) :
    spaced = text := by
  induction hspaced with
  | nil => rfl
  | keep _ _ ih => rw [ih fun hmem => htabs (List.mem_cons_of_mem _ hmem)]
  | tab spaces _ _ => exact absurd List.mem_cons_self htabs

/-- Apart from tabs and spaces nothing changes. -/
theorem filter_eq (hspaced : Spaced text spaced) :
    spaced.filter (· ≠ ' ') = text.filter fun c => c ≠ ' ' ∧ c ≠ '\t' := by
  induction hspaced with
  | nil => rfl
  | @keep c text spaced hc _ ih =>
      rw [List.filter_cons, List.filter_cons, ih]
      simp [hc]
  | tab spaces _ ih =>
      rw [List.filter_append, ih]
      simp

end

end Spaced

/-! ## Written rows -/

/-- The parts of a line, each but the last one widened to a width, are the line with spaces in the
place of its tabs. -/
theorem spaced_parts {parts : List (List Char)} {widths : List Nat}
    (htabs : ∀ part ∈ parts, '\t' ∉ part) (hwidths : parts.dropLast.length = widths.length) :
    Spaced (['\t'].intercalate parts)
      ((List.zipWith widen widths parts.dropLast).flatten ++ parts.getLastD []) := by
  -- Each part but the last one uses up one of the widths and the tab after it.
  induction parts generalizing widths with
  | nil => simpa using Spaced.nil
  | cons part rest ih =>
      obtain ⟨hpart, hrest⟩ := List.forall_mem_cons.mp htabs
      cases rest with
      | nil => simpa using Spaced.refl hpart
      | cons next others =>
          cases widths with
          | nil => simp at hwidths
          | cons width widths =>
              have hlengths : (next :: others).dropLast.length = widths.length := by
                simpa using hwidths
              have hline := (Spaced.refl hpart).append
                (.tab (width - part.length) (ih hrest hlengths))
              simpa [widen, List.intercalate_cons_cons] using hline

theorem length_widthsFrom (padding : Int) (rows : List Row) (place : Nat) (row : Row) :
    (widthsFrom padding 0 rows place row).length = row.cells.length := by
  simp [widthsFrom]

/-- A line that is written with a width for each of its cells has spaces in the place of its
tabs. -/
theorem spaced_write {line : List Char} {widths : List Nat}
    (hwidths : (cellsOf line).length = widths.length) :
    Spaced line ((Row.ofLine line).write widths) := by
  have htabs : ∀ part ∈ line.splitOn '\t', '\t' ∉ part := by
    intro part hpart
    rw [← Text.splitBy_eq_splitOn] at hpart
    exact Text.notMem_of_mem_splitBy _ hpart
  have hparts := spaced_parts htabs hwidths
  rw [List.intercalate_splitOn] at hparts
  rw [ofLine_eq]
  exact hparts

/-- Aligning a text puts spaces in the place of its tabs. -/
theorem spaced_align (text : String) (padding : Int) :
    Spaced text.toList (align text padding).toList := by
  have hlines : List.Forall₂ Spaced (text.toList.splitOn '\n')
      (layOut padding [] (rowsOf text.toList)) := by
    rw [rowsOf_eq, layOut_eq_mapIdx]
    apply List.forall₂_of_length_eq_of_get
    · simp
    · intro place _ _
      simp only [List.get_eq_getElem, List.getElem_mapIdx, List.getElem_map, List.length_nil,
        List.nil_append]
      apply spaced_write
      rw [length_widthsFrom, ofLine_eq]
  have hfeed : '\n' ≠ '\t' := by decide
  have hspaced := Spaced.intercalate hfeed hlines
  rw [List.intercalate_splitOn] at hspaced
  rwa [align, String.toList_ofList]

/-- An aligned text is the text with spaces in the place of its tabs: it holds no tab, has the same
line ends, does not change when it is aligned again, and has the same characters but for tabs and
spaces. -/
theorem align_only_replaces_tabs (text : String) (padding : Int) :
    let aligned := align text padding
    Spaced text.toList aligned.toList ∧ '\t' ∉ aligned.toList ∧
      aligned.toList.count '\n' = text.toList.count '\n' ∧
      (∀ padding' : Int, align aligned padding' = aligned) ∧
      aligned.toList.filter (· ≠ ' ') = text.toList.filter fun c => c ≠ ' ' ∧ c ≠ '\t' := by
  intro aligned
  have hspaced : Spaced text.toList aligned.toList := spaced_align text padding
  refine ⟨hspaced, hspaced.tab_notMem, count_lineFeed_align text padding, ?_, hspaced.filter_eq⟩
  intro padding'
  -- No tab is left that could be replaced.
  rw [← String.toList_inj]
  exact (spaced_align aligned padding').eq_of_tab_notMem hspaced.tab_notMem

end Manuscript.Table
