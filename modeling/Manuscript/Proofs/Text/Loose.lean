import Manuscript.Text.Loose
import Mathlib.Data.List.TakeWhile

/-! # Texts without halves

A loose text is that of a string exactly if no half of a surrogate pair stands in
it (`eq_ofString_iff`), and then, and only then, it has an encoding
(`fault?_eq_none_iff`).
-/

namespace Manuscript

namespace LooseText

/-- The characters of a loose text without halves. -/
theorem map_char_shown {points : List CodePoint}
    (hpoints : ∀ point ∈ points, point.isHalf = false) :
    (points.map CodePoint.shown).map .char = points := by
  rw [List.map_map]
  refine (List.map_congr_left fun point hmem => ?_).trans points.map_id
  cases point with
  | char c => rfl
  | half place => cases hpoints _ hmem

theorem eq_ofString_iff (text : LooseText) :
    text = text.shown ↔ ∀ point ∈ text.points, point.isHalf = false := by
  constructor
  · intro heq point hmem
    rw [heq, ofString, List.mem_map] at hmem
    obtain ⟨c, -, rfl⟩ := hmem
    rfl
  · intro hpoints
    rw [ofString, shown, String.toList_ofList, map_char_shown hpoints]

theorem fault?_eq_none_iff (text : LooseText) : text.fault? = none ↔ text = text.shown := by
  rw [eq_ofString_iff, fault?]
  cases hrest : text.points.dropWhile (!·.isHalf) with
  | nil => simpa using List.dropWhile_eq_nil_iff.mp hrest
  | cons first rest =>
      simp only [reduceCtorEq, false_iff, not_forall]
      have hfirst := List.head_dropWhile_not (!·.isHalf) (l := text.points) (by simp [hrest])
      have hmem : first ∈ text.points :=
        (List.dropWhile_suffix (!·.isHalf)).subset (hrest ▸ List.mem_cons_self)
      simp only [hrest, List.head_cons] at hfirst
      exact ⟨first, hmem, by simpa using hfirst⟩

end LooseText

end Manuscript
