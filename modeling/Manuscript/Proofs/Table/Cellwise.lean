import Mathlib.Data.List.DropRight
import Mathlib.Data.List.TakeWhile
import Manuscript.Proofs.Text.Split
import Manuscript.Table.Columns

/-! # Aligned text, cell by cell

Where the cells of an aligned text stand can be told without blocks. Each cell is
padded to the widest one among the lines around it that have a cell in its column,
up to the first line on each side that has none (`align_cellwise`). These lines are
found in a block of the column before as well as in the whole text, since a line
with a cell in a column has cells in all columns before it.
-/

namespace Manuscript.Table

/-! ## The layout of a cell -/

/-- The tab-terminated cells of a line. -/
def cellsOf (line : List Char) : List (List Char) := (line.splitOn '\t').dropLast

/-- What follows the last tab of a line. -/
def restOf (line : List Char) : List Char := (line.splitOn '\t').getLastD []

/-- Whether a line has a tab-terminated cell in a column. -/
def hasCell (column : Nat) (line : List Char) : Bool := decide (column < (cellsOf line).length)

/-- The elements around a place that satisfy a test, back to the first one that fails it and on to
the first one that fails it. -/
def runAround {α : Type} (test : α → Bool) (place : Nat) (xs : List α) : List α :=
  (xs.take place).rtakeWhile test ++ (xs.drop place).takeWhile test

/-- The length of the longest of some texts. -/
def longest (texts : List (List Char)) : Nat := (texts.map List.length).foldr max 0

/-- The width of the cell of a line in a column: the padding and the longest cell of the column in
the lines around it. -/
def cellWidth (padding : Int) (lines : List (List Char)) (place column : Nat) : Int :=
  padding + longest
    ((runAround (hasCell column) place lines).map fun line => (cellsOf line).getD column [])

/-- Pad a text with spaces on its right. A width below its length adds nothing. -/
def padRight (width : Int) (text : List Char) : List Char :=
  text ++ List.replicate (width - text.length).toNat ' '

/-- A line with its cells padded. -/
def alignedLine (padding : Int) (lines : List (List Char)) (place : Nat) (line : List Char) :
    List Char :=
  ((cellsOf line).mapIdx fun column cell =>
    padRight (cellWidth padding lines place column) cell).flatten ++ restOf line

/-! ## Runs around a place -/

section Runs

variable {α β : Type} {test : α → Bool} {place : Nat} {x : α} {xs ys : List α}

theorem rtakeWhile_append_cons_of_fails (hfails : test x = false) :
    (xs ++ x :: ys).rtakeWhile test = ys.rtakeWhile test := by
  induction ys using List.reverseRecOn with
  | nil => rw [List.rtakeWhile_concat_neg _ _ _ (by simp [hfails]), List.rtakeWhile_nil]
  | append_singleton ys y ih =>
      have hassoc : xs ++ x :: (ys ++ [y]) = (xs ++ x :: ys) ++ [y] := by simp
      rw [hassoc, List.rtakeWhile_concat, List.rtakeWhile_concat, ih]

/-- An element that fails the test hides those before it from the places after it. -/
theorem runAround_append_of_fails (hfails : test x = false) :
    runAround test (xs.length + (place + 1)) (xs ++ x :: ys) = runAround test place ys := by
  rw [runAround, List.take_length_add_append, List.drop_length_add_append, List.take_succ_cons,
    List.drop_succ_cons, rtakeWhile_append_cons_of_fails hfails, runAround]

theorem runAround_cons_of_fails (hfails : test x = false) :
    runAround test (place + 1) (x :: xs) = runAround test place xs := by
  have happend : runAround test (([] : List α).length + (place + 1)) ([] ++ x :: xs) =
      runAround test place xs := runAround_append_of_fails hfails
  rwa [List.length_nil, Nat.zero_add, List.nil_append] at happend

/-- An element that fails the test hides those after it from the places before it. -/
theorem runAround_append_left (hplace : place < xs.length)
    (hfails : ∀ y ∈ ys.head?, test y = false) :
    runAround test place (xs ++ ys) = runAround test place xs := by
  have hend : ys.takeWhile test = [] := by
    cases ys with
    | nil => rfl
    | cons y ys => rw [List.takeWhile_cons, hfails y rfl, if_neg Bool.false_ne_true]
  rw [runAround, List.take_append_of_le_length hplace.le, List.drop_append_of_le_length hplace.le,
    List.takeWhile_append, hend, List.append_nil, runAround]
  split
  next hlength => rw [(List.takeWhile_prefix test).eq_of_length hlength]
  next => rfl

/-- What stands before a list does not reach into it if its first element fails the test. -/
theorem runAround_append_right (hplace : place < ys.length)
    (hfails : ∀ y ∈ ys.head?, test y = false) (htest : test ys[place] = true) :
    runAround test (place + xs.length) (xs ++ ys) = runAround test place ys := by
  cases ys with
  | nil => simp at hplace
  | cons y ys =>
      have hfirst : test y = false := hfails y rfl
      cases place with
      | zero => simp [hfirst] at htest
      | succ place =>
          rw [runAround_cons_of_fails hfirst, Nat.add_comm, runAround_append_of_fails hfirst]

/-- If all pass the test, the run is the whole list. -/
theorem runAround_eq_self (hall : ∀ y ∈ xs, test y = true) : runAround test place xs = xs := by
  have hbefore : (xs.take place).rtakeWhile test = xs.take place :=
    List.rtakeWhile_eq_self_iff.mpr fun y hmem => hall y (List.mem_of_mem_take hmem)
  have hafter : (xs.drop place).takeWhile test = xs.drop place :=
    List.takeWhile_eq_self_iff.mpr fun y hmem => hall y (List.mem_of_mem_drop hmem)
  rw [runAround, hbefore, hafter, List.take_append_drop]

/-- A place that passes the test is in its run. -/
theorem mem_runAround (hplace : place < xs.length) (htest : test xs[place] = true) :
    xs[place] ∈ runAround test place xs := by
  rw [runAround, List.drop_eq_getElem_cons hplace, List.takeWhile_cons, if_pos htest]
  exact List.mem_append_right _ List.mem_cons_self

theorem runAround_map (f : β → α) (place : Nat) (xs : List β) :
    runAround test place (xs.map f) = (runAround (test ∘ f) place xs).map f := by
  rw [runAround, ← List.map_take, ← List.map_drop, List.rtakeWhile, ← List.map_reverse,
    List.takeWhile_map, List.takeWhile_map, ← List.map_reverse, ← List.map_append]
  rfl

end Runs

/-! ## Widths of the cells of a row -/

/-- The widths of the cells of a row from a column on. -/
def widthsFrom (padding : Int) (column : Nat) (rows : List Row) (place : Nat) (row : Row) :
    List Nat :=
  (List.range' column (row.cells.length - column)).map fun column =>
    columnWidth padding column (runAround (Row.reaches column) place rows)

section Widths

variable {padding : Int} {column place : Nat} {row : Row} {rows others : List Row}

/-- The widths are told by the rows around a row that have a cell in the same column. -/
theorem widthsFrom_congr {place' : Nat}
    (hruns : ∀ next, column ≤ next → next < row.cells.length →
      runAround (Row.reaches next) place rows = runAround (Row.reaches next) place' others) :
    widthsFrom padding column rows place row = widthsFrom padding column others place' row := by
  apply List.map_congr_left
  intro next hmem
  rw [List.mem_range'_1] at hmem
  rw [hruns next hmem.1 (by omega)]

theorem widthsFrom_of_not_reaches (hreaches : row.reaches column = false) :
    widthsFrom padding column rows place row = [] := by
  have hcells : row.cells.length - column = 0 := by
    have : row.cells.length ≤ column := by simpa [Row.reaches] using hreaches
    omega
  rw [widthsFrom, hcells]
  rfl

theorem widthsFrom_of_reaches (hreaches : row.reaches column = true) :
    widthsFrom padding column rows place row =
      columnWidth padding column (runAround (Row.reaches column) place rows) ::
        widthsFrom padding (column + 1) rows place row := by
  have hcells : column < row.cells.length := by simpa [Row.reaches] using hreaches
  have hcount : row.cells.length - column = (row.cells.length - (column + 1)) + 1 := by omega
  rw [widthsFrom, hcount, List.range'_succ, List.map_cons, widthsFrom]

/-- A row without a cell in a column has none in the columns after it. -/
theorem not_reaches_of_le {next : Nat} (hreaches : row.reaches column = false)
    (hle : column ≤ next) : row.reaches next = false := by
  simp only [Row.reaches, decide_eq_false_iff_not] at hreaches ⊢
  omega

section Blocks

variable (hend : ∀ other ∈ others.head?, other.reaches column = false)
include hend

/-- The rows after a block do not change the widths in it. -/
theorem widthsFrom_append_left (hplace : place < rows.length) :
    widthsFrom padding column (rows ++ others) place row =
      widthsFrom padding column rows place row := by
  apply widthsFrom_congr
  intro next hle _
  apply runAround_append_left hplace
  exact fun other hmem => not_reaches_of_le (hend other hmem) hle

/-- A block does not change the widths in the rows after it. -/
theorem widthsFrom_append_right (hplace : place < others.length) :
    widthsFrom padding column (rows ++ others) (place + rows.length) others[place] =
      widthsFrom padding column others place others[place] := by
  apply widthsFrom_congr
  intro next hle hcell
  apply runAround_append_right hplace
  · exact fun other hmem => not_reaches_of_le (hend other hmem) hle
  · simpa [Row.reaches] using hcell

end Blocks

theorem widthsFrom_cons {first : Row} (hfails : first.reaches column = false) :
    widthsFrom padding column (first :: rows) (place + 1) row =
      widthsFrom padding column rows place row := by
  apply widthsFrom_congr
  intro next hle _
  exact runAround_cons_of_fails (not_reaches_of_le hfails hle)

/-- In a block of a column, the first of the widths from that column on is that of the block. -/
theorem widthsFrom_block (hblock : ∀ other ∈ rows, other.reaches column = true)
    (hplace : place < rows.length) :
    widthsFrom padding column rows place rows[place] =
      columnWidth padding column rows ::
        widthsFrom padding (column + 1) rows place rows[place] := by
  rw [widthsFrom_of_reaches (hblock _ (List.getElem_mem hplace)), runAround_eq_self hblock]

/-- The rows that are laid out with some widths are each written with these and, for the columns
after them, the widths of the rows around it. -/
theorem layOut_eq_mapIdx (padding : Int) (widths : List Nat) (rows : List Row) :
    layOut padding widths rows = rows.mapIdx fun place row =>
      row.write (widths ++ widthsFrom padding widths.length rows place row) := by
  fun_induction layOut padding widths rows with
  | case1 => rfl
  | case2 widths row rest hreaches run after ihrun ihafter =>
      have hrows : row :: rest = (row :: run) ++ after := by
        rw [List.cons_append, List.takeWhile_append_dropWhile]
      have hblock : ∀ other ∈ row :: run, other.reaches widths.length = true :=
        List.forall_mem_cons.mpr ⟨hreaches, fun _ hmem => List.mem_takeWhile_imp hmem⟩
      have hend : ∀ other ∈ after.head?, other.reaches widths.length = false := by
        intro other hmem
        have hhead := List.head?_dropWhile_not (Row.reaches widths.length) rest
        rw [hmem] at hhead
        exact hhead
      rw [hrows, ihrun, ihafter, List.mapIdx_append]
      congr 1 <;> rw [List.mapIdx_eq_mapIdx_iff] <;> intro place hplace
      · rw [widthsFrom_append_left hend hplace, widthsFrom_block hblock hplace]
        simp
      · rw [widthsFrom_append_right hend hplace]
  | case3 widths row rest hreaches ih =>
      have hfails : row.reaches widths.length = false := by simpa using hreaches
      rw [ih, List.mapIdx_cons, widthsFrom_of_not_reaches hfails, List.append_nil]
      simp only [widthsFrom_cons hfails]

end Widths

/-! ## Widths in numbers of characters -/

theorem foldl_max_toNat (padding : Int) (f : Row → Nat) (rows : List Row) (start : Nat) :
    rows.foldl (fun width row => max width ((f row : Int) + padding).toNat) start =
      max start (if rows = [] then 0 else (padding + (rows.map f).foldr max 0).toNat) := by
  induction rows generalizing start with
  | nil => simp
  | cons row rest ih =>
      rw [List.foldl_cons, ih, List.map_cons, List.foldr_cons, if_neg (List.cons_ne_nil row rest)]
      by_cases hrest : rest = []
      · subst hrest
        simp only [if_true, List.map_nil, List.foldr_nil]
        omega
      · rw [if_neg hrest]
        omega

/-- A block with a row is as wide as the padding and its longest cell. -/
theorem columnWidth_eq {padding : Int} {column : Nat} {rows : List Row} (hne : rows ≠ []) :
    columnWidth padding column rows =
      (padding + longest (rows.map fun row => row.cells.getD column [])).toNat := by
  rw [columnWidth, foldl_max_toNat padding (fun row => (row.cells.getD column []).length),
    if_neg hne, longest, List.map_map]
  exact Nat.zero_max _

/-- A cell is filled up with spaces to its width. -/
theorem widen_toNat (width : Int) (cell : List Char) :
    widen width.toNat cell = padRight width cell := by
  have hspaces : width.toNat - cell.length = (width - cell.length).toNat := by omega
  rw [widen, hspaces, padRight]

/-! ## Lines of texts -/

theorem ofLine_eq (line : List Char) : Row.ofLine line = ⟨cellsOf line, restOf line⟩ := by
  rw [Row.ofLine, Text.splitBy_eq_splitOn]
  rfl

theorem rowsOf_eq (text : List Char) : rowsOf text = (text.splitOn '\n').map Row.ofLine := by
  rw [rowsOf, Text.splitBy_eq_splitOn]

theorem reaches_ofLine (column : Nat) : Row.reaches column ∘ Row.ofLine = hasCell column := by
  funext line
  rw [Function.comp_apply, ofLine_eq]
  rfl

/-- The column around a cell is as wide in rows as it is in lines. -/
theorem columnWidth_runAround {padding : Int} {lines : List (List Char)} {place column : Nat}
    (hplace : place < lines.length) (hcell : column < (cellsOf lines[place]).length) :
    columnWidth padding column (runAround (Row.reaches column) place (lines.map Row.ofLine)) =
      (cellWidth padding lines place column).toNat := by
  have hmem : lines[place] ∈ runAround (hasCell column) place lines :=
    mem_runAround hplace (by simpa [hasCell] using hcell)
  have hcells : (fun line => (Row.ofLine line).cells.getD column []) =
      fun line => (cellsOf line).getD column [] := by
    funext line
    rw [ofLine_eq]
  rw [runAround_map, reaches_ofLine, columnWidth_eq (by simpa using List.ne_nil_of_mem hmem),
    List.map_map, cellWidth]
  exact congrArg (fun f => (padding + longest (List.map f _)).toNat) hcells

/-- A line is written with the widths of the runs around it. -/
theorem write_ofLine {padding : Int} {lines : List (List Char)} {place : Nat}
    (hplace : place < lines.length) :
    (Row.ofLine lines[place]).write
        (widthsFrom padding 0 (lines.map Row.ofLine) place (Row.ofLine lines[place])) =
      alignedLine padding lines place lines[place] := by
  rw [Row.write, alignedLine, ofLine_eq, widthsFrom]
  congr 2
  apply List.ext_getElem
  · simp
  · intro column hzip hcells
    have hcolumn : column < (cellsOf lines[place]).length := by simpa using hcells
    simp only [List.getElem_zipWith, List.getElem_map, List.getElem_range', List.getElem_mapIdx,
      Nat.zero_add, Nat.one_mul]
    rw [columnWidth_runAround hplace hcolumn, widen_toNat]

/-- Aligning a text pads each of its cells to the width of the column around it, which is the
padding and the longest cell among the neighbouring lines with a cell in the column, the line itself
among them. What follows the last tab of a line is kept, and so is the order of the lines. -/
theorem align_cellwise (text : String) (padding : Int) :
    let lines := text.toList.splitOn '\n'
    align text padding =
      String.ofList (['\n'].intercalate (lines.mapIdx (alignedLine padding lines))) := by
  intro lines
  have hlines : layOut padding [] (rowsOf text.toList) =
      lines.mapIdx (alignedLine padding lines) := by
    rw [rowsOf_eq, layOut_eq_mapIdx]
    apply List.ext_getElem
    · simp [lines]
    · intro place _ hplace
      rw [List.length_mapIdx] at hplace
      simp only [List.getElem_mapIdx, List.getElem_map, List.length_nil, List.nil_append]
      exact write_ofLine hplace
  rw [align, hlines]

/-- The second line ends the second column, the third one the first column, and what follows the
last tab of a line is in no column. -/
example :
    let lines := ["a\tbb\tcccc", "dddd\t", "ee", "f\t"].map String.toList
    lines.mapIdx (alignedLine 1 lines) =
      ["a    bb cccc", "dddd ", "ee", "f "].map String.toList := by
  decide

end Manuscript.Table
