import Manuscript.Proofs.Text.Split
import Manuscript.Table.Layout

/-! # Lines of aligned text

Aligning a text writes one line for each of its lines. A buffer therefore has a
layout exactly if it holds a line feed (`layout_error_iff`). The layout is made of
these lines (`layout_of_rows`).
-/

namespace Manuscript.Table

open Text (splitBy)

/-- A layout has a line for every row. -/
theorem length_layOut (padding : Int) (widths : List Nat) (rows : List Row) :
    (layOut padding widths rows).length = rows.length := by
  fun_induction layOut padding widths rows with
  | case1 => rfl
  | case2 widths row rest _ run after ihrun ihafter =>
      -- A block and the rows after it are laid out apart.
      have hrest : (run ++ after).length = rest.length :=
        congrArg List.length List.takeWhile_append_dropWhile
      rw [List.length_append] at hrest
      rw [List.length_append, ihrun, ihafter, List.length_cons, List.length_cons]
      omega
  | case3 widths row rest _ ih => rw [List.length_cons, ih, List.length_cons]

/-- Each line is a row, written with some widths. -/
theorem exists_write_of_mem_layOut {padding : Int} {widths : List Nat} {rows : List Row}
    {line : List Char} (hmem : line ∈ layOut padding widths rows) :
    ∃ row ∈ rows, ∃ widths, line = row.write widths := by
  fun_induction layOut padding widths rows with
  | case1 => simp at hmem
  | case2 widths row rest _ run after ihrun ihafter =>
      rcases List.mem_append.mp hmem with hmem | hmem
      · obtain ⟨row', hrow, hline⟩ := ihrun hmem
        refine ⟨row', ?_, hline⟩
        rcases List.mem_cons.mp hrow with rfl | hrow
        · exact List.mem_cons_self
        · exact List.mem_cons_of_mem _ (List.takeWhile_subset _ hrow)
      · obtain ⟨row', hrow, hline⟩ := ihafter hmem
        exact ⟨row', List.mem_cons_of_mem _ (List.dropWhile_subset _ hrow), hline⟩
  | case3 widths row rest _ ih =>
      rcases List.mem_cons.mp hmem with rfl | hmem
      · exact ⟨row, List.mem_cons_self, widths, rfl⟩
      · obtain ⟨row', hrow, hline⟩ := ih hmem
        exact ⟨row', List.mem_cons_of_mem _ hrow, hline⟩

/-- A written row holds the characters of its cells and of its rest, and spaces. -/
theorem Row.of_mem_write {widths : List Nat} {row : Row} {c : Char} (hmem : c ∈ row.write widths) :
    (∃ cell ∈ row.cells, c ∈ cell) ∨ c ∈ row.rest ∨ c = ' ' := by
  rcases List.mem_append.mp hmem with hcells | hrest
  · obtain ⟨cell, hcell, hc⟩ := List.mem_flatten.mp hcells
    obtain ⟨i, hi, hget⟩ := List.mem_iff_getElem.mp hcell
    rw [List.getElem_zipWith] at hget
    subst hget
    rcases List.mem_append.mp hc with hc | hc
    · exact .inl ⟨_, List.getElem_mem _, hc⟩
    · exact .inr (.inr (List.mem_replicate.mp hc).2)
  · exact .inr (.inl hrest)

theorem Row.of_mem_ofLine {line : List Char} {c : Char}
    (hmem : (∃ cell ∈ (Row.ofLine line).cells, c ∈ cell) ∨ c ∈ (Row.ofLine line).rest) :
    c ∈ line := by
  have hparts : ∃ part ∈ splitBy (· == '\t') line, c ∈ part := by
    rcases hmem with ⟨cell, hcell, hc⟩ | hc
    · exact ⟨cell, List.dropLast_subset _ hcell, hc⟩
    · have hne := Text.splitBy_ne_nil (· == '\t') line
      rw [Row.ofLine, List.getLastD_eq_getLast?, List.getLast?_eq_some_getLast hne] at hc
      exact ⟨_, List.getLast_mem hne, hc⟩
  obtain ⟨part, hpart, hc⟩ := hparts
  exact (Text.of_mem_splitBy hpart hc).2

/-- No line of a layout holds a line feed. -/
theorem lineFeed_notMem_layOut {padding : Int} {text line : List Char}
    (hline : line ∈ layOut padding [] (rowsOf text)) : '\n' ∉ line := by
  intro hmem
  obtain ⟨row, hrow, widths, rfl⟩ := exists_write_of_mem_layOut hline
  obtain ⟨part, hpart, rfl⟩ := List.mem_map.mp hrow
  apply Text.notMem_of_mem_splitBy _ hpart
  rcases Row.of_mem_write hmem with hcell | hrest | hspace
  · exact Row.of_mem_ofLine (.inl hcell)
  · exact Row.of_mem_ofLine (.inr hrest)
  · cases hspace

theorem layOut_rowsOf_ne_nil (padding : Int) (text : List Char) :
    layOut padding [] (rowsOf text) ≠ [] := by
  apply List.ne_nil_of_length_pos
  rw [length_layOut, rowsOf, List.length_map, Text.length_splitBy]
  omega

/-- The lines of an aligned text are those that were laid out. -/
theorem lines_align (text : String) (padding : Int) :
    splitBy (· == '\n') (align text padding).toList = layOut padding [] (rowsOf text.toList) := by
  rw [align, String.toList_ofList]
  exact Text.splitBy_intercalate '\n' (fun line hline => lineFeed_notMem_layOut hline)
    (layOut_rowsOf_ne_nil _ _)

/-- Aligning keeps the number of lines. -/
theorem count_lineFeed_align (text : String) (padding : Int) :
    (align text padding).toList.count '\n' = text.toList.count '\n' := by
  have hlines := congrArg List.length (lines_align text padding)
  rw [length_layOut, rowsOf, List.length_map, Text.length_splitBy, Text.length_splitBy] at hlines
  exact Nat.succ.inj hlines

/-- A text without a line feed has no first line. -/
theorem firstLine?_eq_none_iff (text : List Char) : firstLine? text = none ↔ '\n' ∉ text := by
  fun_induction firstLine? text with
  | case1 => simp
  | case2 => simp
  | case3 c rest hc ih =>
      have hne : '\n' ≠ c := fun heq => hc heq.symm
      rw [Option.map_eq_none_iff, ih, List.mem_cons, or_iff_right hne]

/-- A buffer has no layout exactly if it holds no line feed. -/
theorem layout_error_iff (buffer : String) (padding : Int) :
    (∃ error, layout buffer padding = .error error) ↔ '\n' ∉ buffer.toList := by
  have halign : '\n' ∉ (align buffer padding).toList ↔ '\n' ∉ buffer.toList := by
    rw [← List.count_eq_zero, ← List.count_eq_zero, count_lineFeed_align]
  unfold layout
  split
  · simp_all
  · rw [← halign, ← firstLine?_eq_none_iff]
    split <;> simp_all

theorem lineFeed_mem_of_layout {buffer : String} {padding : Int} {result : Layout}
    (hlayout : layout buffer padding = .ok result) : '\n' ∈ buffer.toList := by
  refine Decidable.byContradiction fun hnone => ?_
  obtain ⟨error, herror⟩ := (layout_error_iff buffer padding).mpr hnone
  rw [hlayout] at herror
  cases herror

/-! ## Texts that end with the end of a line -/

/-- A test that an element fails ends a run at it. -/
theorem run_append_of_fails {α : Type} {test : α → Bool} {x : α} (hfails : test x = false)
    (xs : List α) :
    (xs ++ [x]).takeWhile test = xs.takeWhile test ∧
      (xs ++ [x]).dropWhile test = xs.dropWhile test ++ [x] := by
  induction xs with
  | nil => simp [hfails]
  | cons first rest ih =>
      cases hfirst : test first with
      | false => simp [hfirst]
      | true => simp [hfirst, ih]

/-- The row of an empty line. -/
def Row.empty : Row := ⟨[], []⟩

/-- An empty line at the end stays one and takes part in no block. -/
theorem layOut_append_empty (padding : Int) (widths : List Nat) (rows : List Row) :
    layOut padding widths (rows ++ [Row.empty]) = layOut padding widths rows ++ [[]] := by
  have hend (column : Nat) : Row.empty.reaches column = false := rfl
  fun_induction layOut padding widths rows with
  | case1 widths =>
      rw [List.nil_append, layOut, if_neg (by simp [hend]), layOut]
      simp [Row.write, Row.empty]
  | case2 widths row rest hreaches run after ihrun ihafter =>
      obtain ⟨hrun, hafter⟩ := run_append_of_fails (hend widths.length) rest
      rw [List.cons_append, layOut, if_pos hreaches]
      simp only [hrun, hafter]
      rw [ihafter, List.append_assoc]
  | case3 widths row rest hreaches ih =>
      rw [List.cons_append, layOut, if_neg hreaches, ih, List.cons_append]

theorem rowsOf_append_lineFeed (text : List Char) :
    rowsOf (text ++ ['\n']) = rowsOf text ++ [Row.empty] := by
  have hparts : splitBy (· == '\n') (text ++ ['\n']) = splitBy (· == '\n') text ++ [[]] := by
    rw [Text.splitBy_eq_splitOnP, Text.splitBy_eq_splitOnP, List.splitOnP_append_cons _ _ rfl]
    rfl
  rw [rowsOf, hparts, List.map_append, rowsOf]
  rfl

theorem intercalate_append_empty {α : Type} (separator : List α) (parts : List (List α)) :
    separator.intercalate (parts ++ [[]]) = parts.flatMap (· ++ separator) := by
  induction parts with
  | nil => rfl
  | cons part rest ih =>
      obtain ⟨next, others, hrest⟩ : ∃ next others, rest ++ [[]] = next :: others :=
        List.exists_cons_of_ne_nil (by simp)
      rw [List.cons_append, hrest, List.intercalate_cons_cons, ← hrest, ih, List.flatMap_cons]

theorem firstLine?_append {line : List Char} (hline : '\n' ∉ line) (rest : List Char) :
    firstLine? (line ++ '\n' :: rest) = some (line, rest) := by
  induction line with
  | nil => rfl
  | cons c others ih =>
      obtain ⟨hne, hothers⟩ : '\n' ≠ c ∧ '\n' ∉ others := by simpa using hline
      rw [List.cons_append, firstLine?, ih hothers]
      · rfl
      · exact fun heq => hne heq.symm

/-- A buffer whose last line is ended has a layout: its first line, and the others with their
ends. -/
theorem layout_of_rows {buffer : String} {padding : Int} {rows : List Row} {first : List Char}
    {others : List (List Char)} (hrows : rowsOf buffer.toList = rows ++ [Row.empty])
    (hlines : layOut padding [] rows = first :: others) :
    layout buffer padding =
      .ok ⟨String.ofList first, String.ofList (others.flatMap (· ++ ['\n']))⟩ := by
  have hall : layOut padding [] (rowsOf buffer.toList) = first :: others ++ [[]] := by
    rw [hrows, layOut_append_empty, hlines]
  have halign : (align buffer padding).toList = first ++ '\n' :: others.flatMap (· ++ ['\n']) := by
    rw [align, String.toList_ofList, hall, intercalate_append_empty, List.flatMap_cons,
      List.append_assoc]
    rfl
  have hfeed : '\n' ∉ first := by
    apply lineFeed_notMem_layOut
    rw [hall]
    exact List.mem_cons_self
  have hfull : buffer.isEmpty = false := by
    cases hempty : buffer.isEmpty with
    | false => rfl
    | true =>
        rw [String.isEmpty_iff.mp hempty] at hall
        have hlength := congrArg List.length hall
        rw [length_layOut] at hlength
        simp [rowsOf, splitBy] at hlength
  rw [layout, hfull, if_neg Bool.false_ne_true, halign, firstLine?_append hfeed]

/-- If the last line of a buffer is ended, so is the last line of the body. -/
theorem body_ended {buffer : String} {padding : Int} {result : Layout}
    (hbuffer : buffer = "" ∨ buffer.toList.getLast? = some '\n')
    (hlayout : layout buffer padding = .ok result) :
    result.body = "" ∨ result.body.toList.getLast? = some '\n' := by
  obtain ⟨text, htext⟩ : ∃ text, buffer.toList = text ++ ['\n'] := by
    rcases hbuffer with rfl | hlast
    · cases hlayout
    · exact List.getLast?_eq_some_iff.mp hlast
  obtain ⟨first, others, hlines⟩ :
      ∃ first others, layOut padding [] (rowsOf text) = first :: others :=
    List.exists_cons_of_ne_nil (layOut_rowsOf_ne_nil _ _)
  have hrows : rowsOf buffer.toList = rowsOf text ++ [Row.empty] := by
    rw [htext, rowsOf_append_lineFeed]
  rw [layout_of_rows hrows hlines] at hlayout
  cases hlayout
  cases hothers : others.getLast? with
  | none =>
      left
      rw [List.getLast?_eq_none_iff.mp hothers]
      rfl
  | some last =>
      right
      obtain ⟨before, rfl⟩ := List.getLast?_eq_some_iff.mp hothers
      simp

end Manuscript.Table
