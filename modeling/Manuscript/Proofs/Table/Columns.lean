import Mathlib.Algebra.BigOperators.Group.List.Lemmas
import Mathlib.Algebra.GroupWithZero.Nat
import Mathlib.Data.List.DropRight
import Mathlib.Data.List.Forall2
import Mathlib.Data.List.GetD
import Mathlib.Data.List.TakeWhile
import Manuscript.Proofs.Table.Lines

/-! # Columns of a layout

In a buffer of rows that all have the same number of cells, each column is one
block. Its cells then stand at the same place in every line, and each is followed
by the spaces of the gutter (`layout_of_cells`).
-/

namespace Manuscript.Table

open Text (splitBy)

/-- Where a column starts if the columns have these widths. -/
def columnStart (widths : List Nat) (column : Nat) : Nat := (widths.take column).sum

/-- What stands in a line from the start of a column to the start of the next one. -/
def slice (widths : List Nat) (column : Nat) (line : List Char) : List Char :=
  (line.take (columnStart widths (column + 1))).drop (columnStart widths column)

/-- A line shows cells at the starts of columns, each with the spaces of the gutter after it. -/
structure ShowsCells (widths : List Nat) (line : List Char) (cells : List (List Char)) : Prop where
  width : line.length = columnStart widths cells.length
  noFeed : '\n' ∉ line
  cell : ∀ column (hcolumn : column < cells.length), ∃ spaces, 4 ≤ spaces ∧
    slice widths column line = cells[column] ++ List.replicate spaces ' '

/-- The cells that are read off a line, without the spaces around them. -/
def readCells (widths : List Nat) (columns : Nat) (line : List Char) : List (List Char) :=
  (List.range columns).map fun column => Text.trimBy (· == ' ') (slice widths column line)

/-- The widths of the columns of rows. -/
def columnWidths (padding : Int) (rows : List Row) (columns : Nat) : List Nat :=
  (List.range columns).map fun column => columnWidth padding column rows

section

variable {padding : Int} {widths : List Nat} {rows : List Row} {row : Row} {column columns : Nat}

/-! ## Blocks -/

/-- Rows that go no further than the widths are written with them. -/
theorem layOut_of_done (hdone : ∀ row ∈ rows, row.cells.length ≤ widths.length) :
    layOut padding widths rows = rows.map (Row.write widths) := by
  induction rows with
  | nil => rw [layOut, List.map_nil]
  | cons row rest ih =>
      obtain ⟨hrow, hrest⟩ := List.forall_mem_cons.mp hdone
      have hreaches : ¬ row.reaches widths.length = true := by
        simpa [Row.reaches] using hrow
      rw [layOut, if_neg hreaches, ih hrest, List.map_cons]

/-- Rows that all have a cell in the next column are one block of it. -/
theorem layOut_block (hreach : ∀ row ∈ rows, widths.length < row.cells.length) :
    layOut padding widths rows =
      layOut padding (widths ++ [columnWidth padding widths.length rows]) rows := by
  cases rows with
  | nil => rw [layOut, layOut]
  | cons first rest =>
      have hall : ∀ row ∈ first :: rest, row.reaches widths.length = true := by
        simpa [Row.reaches] using hreach
      obtain ⟨hfirst, hrest⟩ := List.forall_mem_cons.mp hall
      rw [layOut, if_pos hfirst]
      simp only [List.takeWhile_eq_self_iff.mpr hrest, List.dropWhile_eq_nil_iff.mpr hrest]
      have hnil : layOut padding widths [] = [] := by rw [layOut]
      rw [hnil, List.append_nil]

theorem columnWidths_succ (padding : Int) (rows : List Row) (columns : Nat) :
    columnWidths padding rows (columns + 1) =
      columnWidths padding rows columns ++ [columnWidth padding columns rows] := by
  rw [columnWidths, List.range_succ, List.map_append, columnWidths]
  rfl

@[simp] theorem length_columnWidths (padding : Int) (rows : List Row) (columns : Nat) :
    (columnWidths padding rows columns).length = columns := by
  simp [columnWidths]

/-- Rows of one number of cells are all written with the same widths. -/
theorem layOut_rectangular (hrows : ∀ row ∈ rows, row.cells.length = columns) :
    layOut padding [] rows = rows.map (Row.write (columnWidths padding rows columns)) := by
  have hblocks : ∀ done, done ≤ columns →
      layOut padding [] rows = layOut padding (columnWidths padding rows done) rows := by
    intro done
    induction done with
    | zero =>
        intro _
        rfl
    | succ done ih =>
        intro hdone
        rw [ih (by omega), layOut_block, columnWidths_succ, length_columnWidths]
        intro row hmem
        rw [hrows row hmem, length_columnWidths]
        omega
  rw [hblocks columns (Nat.le_refl _)]
  apply layOut_of_done
  intro row hmem
  rw [hrows row hmem, length_columnWidths]

theorem le_foldl_max {α : Type} (f : α → Nat) (xs : List α) (start : Nat) :
    start ≤ xs.foldl (fun most x => max most (f x)) start ∧
      ∀ x ∈ xs, f x ≤ xs.foldl (fun most x => max most (f x)) start := by
  induction xs generalizing start with
  | nil => simp
  | cons first rest ih =>
      obtain ⟨hstart, hrest⟩ := ih (max start (f first))
      rw [List.foldl_cons]
      refine ⟨(Nat.le_max_left _ _).trans hstart, List.forall_mem_cons.mpr ⟨?_, hrest⟩⟩
      exact (Nat.le_max_right _ _).trans hstart

/-- A column is as wide as each of its cells with the gutter. -/
theorem le_columnWidth (hmem : row ∈ rows) :
    (row.cells.getD column []).length + 4 ≤ columnWidth gutter column rows := by
  have hwidth := (le_foldl_max (fun row : Row =>
    ((((row.cells.getD column []).length : Int) + gutter).toNat)) rows 0).2 row hmem
  rw [columnWidth]
  have hgutter : (((row.cells.getD column []).length : Int) + gutter).toNat =
      (row.cells.getD column []).length + 4 := by
    rw [gutter]
    omega
  omega

/-! ## Slices -/

theorem length_widen {width : Nat} {cell : List Char} (hfits : cell.length ≤ width) :
    (widen width cell).length = width := by
  rw [widen, List.length_append, List.length_replicate]
  omega

variable (hlength : row.cells.length = widths.length) (hrest : row.rest = [])
  (hfits : ∀ column (hcolumn : column < widths.length),
    (row.cells.getD column []).length ≤ widths[column])
include hlength hfits

theorem lengths_zipWith_widen : (List.zipWith widen widths row.cells).map List.length = widths := by
  apply List.ext_getElem
  · simp [hlength]
  · intro column hcolumn hwidths
    have hcell : column < row.cells.length := by omega
    have hfit := hfits column hwidths
    rw [List.getD_eq_getElem _ _ hcell] at hfit
    rw [List.getElem_map, List.getElem_zipWith, length_widen hfit]

include hrest

/-- A written row is as long as its columns. -/
theorem length_write : (row.write widths).length = columnStart widths widths.length := by
  rw [Row.write, hrest, List.append_nil, List.length_flatten,
    lengths_zipWith_widen hlength hfits, columnStart, List.take_length]

/-- In a written row each cell stands at the start of its column. -/
theorem slice_write (hcolumn : column < widths.length) :
    slice widths column (row.write widths) = widen widths[column] (row.cells.getD column []) := by
  have hcell : column < row.cells.length := by omega
  have hzip : column < (List.zipWith widen widths row.cells).length := by simp [hlength, hcolumn]
  have hpart := List.drop_take_succ_flatten_eq_getElem (List.zipWith widen widths row.cells) column
    hzip
  rw [lengths_zipWith_widen hlength hfits, List.getElem_zipWith] at hpart
  rw [slice, columnStart, columnStart, Row.write, hrest, List.append_nil, hpart,
    List.getD_eq_getElem _ _ hcell]

end

/-! ## Rows of texts -/

section

variable {cells : List (List Char)} {rows : List (List (List Char))} {columns : Nat}

/-- The text of a row: each cell is followed by a tab. -/
def rowText (cells : List (List Char)) : List Char := cells.flatMap (· ++ ['\t'])

theorem splitBy_flatMap (separator : Char) {parts : List (List Char)}
    (hparts : ∀ part ∈ parts, separator ∉ part) :
    splitBy (· == separator) (parts.flatMap (· ++ [separator])) = parts ++ [[]] := by
  rw [← intercalate_append_empty]
  apply Text.splitBy_intercalate separator _ (by simp)
  intro part hmem
  rcases List.mem_append.mp hmem with hmem | hmem
  · exact hparts part hmem
  · rw [List.mem_singleton.mp hmem]
    exact List.not_mem_nil

theorem ofLine_rowText (htabs : ∀ cell ∈ cells, '\t' ∉ cell) :
    Row.ofLine (rowText cells) = ⟨cells, []⟩ := by
  rw [Row.ofLine, rowText, splitBy_flatMap '\t' htabs]
  simp

theorem rowsOf_rowTexts
    (hcells : ∀ row ∈ rows, ∀ cell ∈ row, '\t' ∉ cell ∧ '\n' ∉ cell) :
    rowsOf ((rows.map rowText).flatMap (· ++ ['\n'])) =
      rows.map (fun row => ⟨row, []⟩) ++ [Row.empty] := by
  have hfeeds : ∀ line ∈ rows.map rowText, '\n' ∉ line := by
    intro line hline hfeed
    obtain ⟨row, hrow, rfl⟩ := List.mem_map.mp hline
    obtain ⟨cell, hcell, hmem⟩ := List.mem_flatMap.mp hfeed
    rcases List.mem_append.mp hmem with hmem | hmem
    · exact (hcells row hrow cell hcell).2 hmem
    · simp at hmem
  have hrows : rows.map (Row.ofLine ∘ rowText) = rows.map fun row => ⟨row, []⟩ := by
    apply List.map_congr_left
    intro row hrow
    exact ofLine_rowText fun cell hcell => (hcells row hrow cell hcell).1
  rw [rowsOf, splitBy_flatMap '\n' hfeeds, List.map_append, List.map_map, hrows]
  rfl

/-- A row is shown by the line that it is written to with the widths of its columns. -/
theorem showsCells_write {tableRows : List Row} (hmem : ⟨cells, []⟩ ∈ tableRows)
    (hfeeds : ∀ cell ∈ cells, '\n' ∉ cell) :
    ShowsCells (columnWidths gutter tableRows cells.length)
      (Row.write (columnWidths gutter tableRows cells.length) ⟨cells, []⟩) cells := by
  have hlength : cells.length = (columnWidths gutter tableRows cells.length).length := by simp
  have hwide : ∀ column (hcolumn : column < (columnWidths gutter tableRows cells.length).length),
      (cells.getD column []).length + 4 ≤ (columnWidths gutter tableRows cells.length)[column] := by
    intro column hcolumn
    simp only [columnWidths, List.getElem_map, List.getElem_range]
    exact le_columnWidth hmem
  have hfits : ∀ column (hcolumn : column < (columnWidths gutter tableRows cells.length).length),
      (cells.getD column []).length ≤ (columnWidths gutter tableRows cells.length)[column] := by
    intro column hcolumn
    have := hwide column hcolumn
    omega
  constructor
  · rw [length_write hlength rfl hfits, length_columnWidths]
  · intro hfeed
    rcases Row.of_mem_write hfeed with ⟨cell, hcell, hmem⟩ | hrest | hspace
    · exact hfeeds cell hcell hmem
    · cases hrest
    · cases hspace
  · intro column hcolumn
    have hwidth : column < (columnWidths gutter tableRows cells.length).length := by
      rw [length_columnWidths]
      exact hcolumn
    have hspaces := hwide column hwidth
    rw [List.getD_eq_getElem _ _ hcolumn] at hspaces
    rw [slice_write hlength rfl hfits hwidth, List.getD_eq_getElem _ _ hcolumn]
    exact ⟨_, by omega, rfl⟩

/-- The layout of rows of one number of cells shows these cells, one line for each row. -/
theorem layout_of_cells (hne : rows ≠ []) (hcolumns : ∀ row ∈ rows, row.length = columns)
    (hcells : ∀ row ∈ rows, ∀ cell ∈ row, '\t' ∉ cell ∧ '\n' ∉ cell) {buffer : String}
    (hbuffer : buffer.toList = (rows.map rowText).flatMap (· ++ ['\n'])) :
    ∃ widths first others, widths.length = columns ∧
      layout buffer =
        .ok ⟨String.ofList first, String.ofList (others.flatMap (· ++ ['\n']))⟩ ∧
      List.Forall₂ (ShowsCells widths) (first :: others) rows := by
  let tableRows : List Row := rows.map fun row => ⟨row, []⟩
  have hlengths : ∀ row ∈ tableRows, row.cells.length = columns := by
    intro row hmem
    obtain ⟨cells, hcells, rfl⟩ := List.mem_map.mp hmem
    exact hcolumns cells hcells
  obtain ⟨first, others, hcons⟩ : ∃ first others,
      tableRows.map (Row.write (columnWidths gutter tableRows columns)) = first :: others := by
    apply List.exists_cons_of_ne_nil
    simpa [tableRows] using hne
  have hlines : layOut gutter [] tableRows = first :: others :=
    (layOut_rectangular hlengths).trans hcons
  have hrows : rowsOf buffer.toList = tableRows ++ [Row.empty] := by
    rw [hbuffer, rowsOf_rowTexts hcells]
  refine ⟨columnWidths gutter tableRows columns, first, others, length_columnWidths _ _ _,
    layout_of_rows hrows hlines, ?_⟩
  rw [← hcons, List.map_map, List.forall₂_map_left_iff, List.forall₂_same]
  intro row hmem
  rw [← hcolumns row hmem]
  exact showsCells_write (List.mem_map_of_mem hmem) fun cell hcell => (hcells row hmem cell hcell).2

/-! ## Reading cells -/

/-- Spaces around a text are trimmed away. -/
theorem trimBy_append_spaces (cs : List Char) (spaces : Nat) :
    Text.trimBy (· == ' ') (cs.dropWhile (· == ' ') ++ List.replicate spaces ' ') =
      Text.trimBy (· == ' ') cs := by
  have hspaces : (List.replicate spaces ' ').dropWhile (· == ' ') = [] := by simp
  have hleading : (cs.dropWhile (· == ' ')).dropWhile (· == ' ') = cs.dropWhile (· == ' ') :=
    List.dropWhile_idempotent _ _
  have htrailing (text : List Char) :
      Text.dropTrailing (· == ' ') (text ++ List.replicate spaces ' ') =
        Text.dropTrailing (· == ' ') text := by
    rw [Text.dropTrailing, List.reverse_append, List.reverse_replicate, List.dropWhile_append,
      hspaces]
    rfl
  rw [Text.trimBy, List.dropWhile_append, hleading, hspaces, Text.trimBy]
  split
  next hempty => rw [List.isEmpty_iff.mp hempty]
  next => exact htrailing _

/-- Cells are read back from the columns that show them. -/
theorem ShowsCells.read {widths : List Nat} {line : List Char} {texts : List (List Char)}
    (hshows : ShowsCells widths line (texts.map (·.dropWhile (· == ' ')))) :
    readCells widths texts.length line = texts.map (Text.trimBy (· == ' ')) := by
  apply List.ext_getElem
  · simp [readCells]
  · intro column hcolumn htexts
    rw [List.length_map] at htexts
    obtain ⟨spaces, -, hslice⟩ := hshows.cell column (by simpa using htexts)
    simp [readCells, hslice, trimBy_append_spaces]

end

end Manuscript.Table
