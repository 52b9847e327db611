import Manuscript.Text.Blank

/-! # Aligned columns

A text of rows and tab-terminated cells is laid out with spaces. Rows are
aligned in blocks: a block of a column is a maximal run of consecutive rows
that all have a tab-terminated cell there, and each of its cells is widened to
the widest of them and the gutter. What follows the last tab of a row belongs
to no column and is copied. Widths are counted in characters.
-/

namespace Manuscript.Table

/-- A row of a text: its tab-terminated cells and what follows the last tab. -/
structure Row where
  cells : List (List Char)
  rest : List Char
  deriving DecidableEq, Repr

/-- Read one line as a row. -/
def Row.ofLine (line : List Char) : Row :=
  let parts := Text.splitBy (· == '\t') line
  { cells := parts.dropLast, rest := parts.getLastD [] }

/-- Read the lines of a text as rows. -/
def rowsOf (text : List Char) : List Row :=
  (Text.splitBy (· == '\n') text).map Row.ofLine

/-- Widen a cell with spaces on its right. -/
def widen (width : Nat) (cell : List Char) : List Char :=
  cell ++ List.replicate (width - cell.length) ' '

/-- Write a row whose cells have the given widths. -/
def Row.write (widths : List Nat) (row : Row) : List Char :=
  (List.zipWith widen widths row.cells).flatten ++ row.rest

/-- The width of a column over a block of rows: its widest cell and the gutter. -/
def columnWidth (padding : Int) (column : Nat) (block : List Row) : Nat :=
  block.foldl
    (fun width row => max width ((((row.cells.getD column []).length : Int) + padding).toNat)) 0

/-- Whether a row has a tab-terminated cell in a column. -/
def Row.reaches (column : Nat) (row : Row) : Bool := decide (column < row.cells.length)

/-- The number of cells of the rows from a column on, and one more for each row. -/
def cellsFrom (column : Nat) : List Row → Nat
  | [] => 0
  | row :: rest => (row.cells.length - column + 1) + cellsFrom column rest

theorem cellsFrom_append (column : Nat) (first second : List Row) :
    cellsFrom column (first ++ second) = cellsFrom column first + cellsFrom column second := by
  induction first with
  | nil => simp [cellsFrom]
  | cons row rest ih => simp only [List.cons_append, cellsFrom, ih]; omega

theorem cellsFrom_run_add_rest (column : Nat) (rows : List Row) :
    cellsFrom column (rows.takeWhile (Row.reaches column)) +
      cellsFrom column (rows.dropWhile (Row.reaches column)) = cellsFrom column rows := by
  rw [← cellsFrom_append, List.takeWhile_append_dropWhile]

theorem cellsFrom_succ_le (column : Nat) (rows : List Row) :
    cellsFrom (column + 1) rows ≤ cellsFrom column rows := by
  induction rows with
  | nil => simp [cellsFrom]
  | cons row rest ih => simp only [cellsFrom]; omega

/-- Lay out rows that all have a cell in each of the columns with a width. Each block of the next
column gets its width and is laid out with it; the other rows are written as they stand. -/
def layOut (padding : Int) (widths : List Nat) (rows : List Row) : List (List Char) :=
  match rows with
  | [] => []
  | row :: rest =>
    if row.reaches widths.length then
      let run := rest.takeWhile (Row.reaches widths.length)
      let after := rest.dropWhile (Row.reaches widths.length)
      layOut padding (widths ++ [columnWidth padding widths.length (row :: run)]) (row :: run) ++
        layOut padding widths after
    else row.write widths :: layOut padding widths rest
  termination_by cellsFrom widths.length rows
  decreasing_by
    · rename_i h
      have reach : widths.length < row.cells.length := by simpa [Row.reaches] using h
      have split := cellsFrom_run_add_rest widths.length rest
      have mono := cellsFrom_succ_le widths.length (rest.takeWhile (Row.reaches widths.length))
      simp only [List.length_append, List.length_singleton, cellsFrom]
      omega
    · have split := cellsFrom_run_add_rest widths.length rest
      simp only [cellsFrom]
      omega
    · simp only [cellsFrom]
      omega

/-- The gutter between columns when none is asked for. -/
def gutter : Int := 4

/-- Replace the tabs of a text by the spaces that line its columns up. -/
def align (text : String) (padding : Int := gutter) : String :=
  String.ofList (['\n'].intercalate (layOut padding [] (rowsOf text.toList)))

end Manuscript.Table
