import Manuscript.Table.Columns

/-! # Laying out in place

Aligned lines can be written one by one into a sheet that has a place for each
row. The widths of the blocks that are open stand on one stack, which each block
uses for its rows and for the blocks inside of it: the place of a width on the
stack is its column. Nothing is assumed about rows, places and columns, so any
access may fail. A layout has a number of steps, and running out of them gives no
result: how many are enough is left to be proved.
-/

namespace Manuscript.Table

/-- What an access may ask for in vain. -/
inductive Missing where
  /-- The row of a place. -/
  | row
  /-- The part of a row in a column. -/
  | part
  /-- What follows the last tab of a row. -/
  | rest
  /-- The width of a column. -/
  | width
  /-- The line of a place. -/
  | line
  /-- A width to be taken off the stack. -/
  | top
  deriving DecidableEq, Repr

/-- The lines of a layout that is being made. -/
structure Sheet where
  lines : List (List Char)
  /-- The widths of the open blocks, the innermost one last. -/
  widths : List Nat := []
  /-- The places whose lines were written, in order. -/
  written : List Nat := []
  deriving DecidableEq, Repr

/-- A sheet on which nothing is written yet. -/
def Sheet.blank (lines : Nat) : Sheet := { lines := List.replicate lines [] }

/-- Put a width on the stack. -/
def Sheet.push (sheet : Sheet) (width : Nat) : Sheet :=
  { sheet with widths := sheet.widths ++ [width] }

/-- Take the innermost width off the stack. -/
def Sheet.pop? (sheet : Sheet) : Option Sheet :=
  if sheet.widths = [] then none else some { sheet with widths := sheet.widths.dropLast }

/-- Write the line of a place. -/
def Sheet.write? (place : Nat) (line : List Char) (sheet : Sheet) : Option Sheet :=
  if place < sheet.lines.length then
    some { sheet with lines := sheet.lines.set place line, written := sheet.written ++ [place] }
  else none

/-- A layout of the rows from one place up to another that came to its end, with the sheet as it was
found and as it was left. -/
structure Call where
  start : Nat
  stop : Nat
  before : Sheet
  after : Sheet
  deriving DecidableEq, Repr

/-- The sheet, and the layouts that were made on it. -/
structure Progress where
  sheet : Sheet
  /-- The number of layouts that were begun. -/
  begun : Nat := 0
  /-- The layouts that came to their end, in this order. -/
  calls : List Call := []
  deriving DecidableEq, Repr

/-- A part of a layout in place. It may fail, and it may run out of steps. -/
abbrev Layouter := ExceptT Missing (StateT Progress Option)

/-- No step is left. -/
def outOfSteps : Layouter Unit := ExceptT.lift (StateT.lift none)

/-- What was asked for, if it is there. -/
def found {α : Type} (missing : Missing) : Option α → Layouter α
  | some value => pure value
  | none => throw missing

/-- Change the sheet if it can be changed. -/
def change (missing : Missing) (next : Sheet → Option Sheet) : Layouter Unit := do
  let sheet ← found missing (next (← get).sheet)
  modify fun progress => { progress with sheet }

section

variable (padding : Int) (rows : List (List (List Char)))

/-- Widen cells to the widths of their columns, the first one standing in a given column. -/
def widenCells (column : Nat) : List (List Char) → Layouter (List Char)
  | [] => pure []
  | cell :: cells => do
    let width ← found .width (← get).sheet.widths[column]?
    let others ← widenCells (column + 1) cells
    return widen width cell ++ others

/-- Write the row of a place into its line. A row is given by its parts between the tabs. -/
def writeLine (place : Nat) : Layouter Unit := do
  let parts ← found .row rows[place]?
  let cells ← widenCells 0 parts.dropLast
  let rest ← found .rest parts.getLast?
  change .line (Sheet.write? place (cells ++ rest))

/-- Write the rows from one place up to another. -/
def writeLines (start stop : Nat) : Layouter Unit :=
  forM (List.range' start (stop - start)) (writeLine rows)

/-- Go on to the first row that has no cell in a column. The answer is the width of the rows that
were passed, at least the given one, and the place of that row. -/
def measureBlock (column stop current width : Nat) : Layouter (Nat × Nat) := do
  if current < stop then
    let parts ← found .row rows[current]?
    if column < parts.length - 1 then
      let cell ← found .part parts[column]?
      measureBlock column stop (current + 1) (max width ((cell.length : Int) + padding).toNat)
    else return (width, current)
  else return (width, current)
  termination_by stop - current

mutual

/-- Lay out the rows from one place up to another with the widths on the stack. -/
def layOutBlock (steps start stop : Nat) : Layouter Unit := do
  match steps with
  | 0 => outOfSteps
  | steps + 1 =>
    let before := (← get).sheet
    modify fun progress => { progress with begun := progress.begun + 1 }
    layOutFrom steps before.widths.length stop start start
    modify fun progress =>
      { progress with calls := progress.calls ++ [⟨start, stop, before, progress.sheet⟩] }
  termination_by structural steps

/-- Go on with a layout whose next column is given. The rows from the current place on were not
looked at, and those from the start up to it have no cell in the column and are not written. -/
def layOutFrom (steps column stop start current : Nat) : Layouter Unit := do
  match steps with
  | 0 => outOfSteps
  | steps + 1 =>
    if current < stop then
      let parts ← found .row rows[current]?
      if parts.length - 1 ≤ column then layOutFrom steps column stop start (current + 1)
      else
        writeLines rows start current
        let (width, next) ← measureBlock padding rows column stop current 0
        modify fun progress => { progress with sheet := progress.sheet.push width }
        layOutBlock steps current next
        change .top Sheet.pop?
        layOutFrom steps column stop next next
    else writeLines rows start stop
  termination_by structural steps

end

/-- A number of steps for the layout of rows: two for each of their parts, and two more. -/
def stepsFor : Nat := 2 * rows.flatten.length + 2

/-- Lay out rows and join their lines. -/
def joinInPlace : Layouter String := do
  layOutBlock padding rows (stepsFor rows) 0 rows.length
  return String.ofList (['\n'].intercalate (← get).sheet.lines)

end

/-- Align a text in place. -/
def alignInPlace (text : String) (padding : Int := gutter) : Option (Except Missing String) :=
  let rows := (Text.splitBy (· == '\n') text.toList).map (Text.splitBy (· == '\t'))
  ((joinInPlace padding rows).run.run { sheet := .blank rows.length }).map Prod.fst

end Manuscript.Table
