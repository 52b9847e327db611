import Manuscript.Markdown.Cursor
import Manuscript.Document.Node
import Manuscript.Text.Digit

/-! # Blocks

A markdown text is a sequence of blocks, some of which hold blocks. Here are
the blocks and the rules by which a line, from its first character that is no
space, starts or ends one.
-/

namespace Manuscript.Markdown

/-- A block of a text. Texts within it are still unread. -/
inductive Block where
  | paragraph (text : List Char)
  | heading (level : Nat) (text : List Char)
  | thematicBreak
  | code (text : List Char)
  | html (text : List Char)
  | quote (children : List Block)
  | list (style : ListStyle) (items : List Block)
  | item (children : List Block)
  | table (header : List (List Char)) (rows : List (List (List Char)))

/-- A text without the spaces and tabs around it. -/
def trimGaps (cs : List Char) : List Char := Text.trimBy isGap cs

/-! ## Headings and rules -/

/-- The text of a heading without the number signs that close it. -/
def withoutClosing (text : List Char) : List Char :=
  let text := trimGaps text
  let opened := Text.dropTrailing (· == '#') text
  if opened.isEmpty then []
  else if (opened.getLast?.map isGap).getD false then Text.dropTrailing isGap opened
  else text

/-- The level and the text of a heading that starts with number signs. -/
def signedHeading? (line : List Char) : Option (Nat × List Char) :=
  let level := (line.takeWhile (· == '#')).length
  let rest := line.drop level
  if 1 ≤ level && level ≤ 6 && (rest.head?.map isGap).getD true then
    some (level, withoutClosing rest)
  else none

/-- The level of the heading that a line makes of the paragraph above it. -/
def underline? (line : List Char) : Option Nat :=
  let marks := Text.dropTrailing isGap line
  match marks.head? with
  | some '=' => if marks.all (· == '=') then some 1 else none
  | some '-' => if marks.all (· == '-') then some 2 else none
  | _ => none

/-- Whether a line is a rule: three or more of one mark and spaces. -/
def isRule (line : List Char) : Bool :=
  let marks := line.filter (!isGap ·)
  match marks.head? with
  | some mark => "*-_".toList.contains mark && 3 ≤ marks.length && marks.all (· == mark)
  | none => false

/-! ## Fences -/

/-- The line that opens a program: its mark, how many there are, and the indentation. -/
structure Fence where
  mark : Char
  count : Nat
  indent : Nat
  deriving DecidableEq, Repr

/-- The fence of a line. What follows backquotes holds none. -/
def fence? (indent : Nat) (line : List Char) : Option Fence :=
  match line with
  | mark :: _ =>
    let count := (line.takeWhile (· == mark)).length
    let info := line.drop count
    if 3 ≤ count && (mark == '~' || (mark == '\x60' && !info.contains mark)) then
      some { mark, count, indent }
    else none
  | [] => none

/-- Whether a line closes a program. -/
def Fence.isClosedBy (fence : Fence) (line : List Char) : Bool :=
  let marks := line.takeWhile (· == fence.mark)
  fence.count ≤ marks.length && (line.drop marks.length).all isGap

/-! ## Lists -/

/-- The mark of an item: the style of a list that it starts, and the number of its characters. -/
structure ItemMark where
  style : ListStyle
  size : Nat

/-- The mark of an item at the front of a line. -/
def itemMark? (line : List Char) : Option ItemMark :=
  let mark : Option ItemMark :=
    match line with
    | [] => none
    | c :: _ =>
      if "*-+".toList.contains c then some ⟨{ marker := c.toString }, 1⟩
      else
        let digits := line.takeWhile Text.isAsciiDigit
        match (line.drop digits.length).head? with
        | some delimiter =>
          if 1 ≤ digits.length && digits.length ≤ 9 && (delimiter == '.' || delimiter == ')') then
            let style : ListStyle :=
              { ordered := true, marker := delimiter.toString, start := Text.decimalValue digits }
            some ⟨style, digits.length + 1⟩
          else none
        | none => none
  match mark with
  | some mark => if ((line.drop mark.size).head?.map isGap).getD true then some mark else none
  | none => none

/-- Whether an item may start in the middle of a paragraph: it has text, and counts from one. -/
def ItemMark.interrupts (mark : ItemMark) (line : List Char) : Bool :=
  !(line.drop mark.size).all isGap && (!mark.style.ordered || mark.style.start == 1)

/-- Whether an item of a style goes on with a list of a style. -/
def continuesList (list item : ListStyle) : Bool :=
  list.ordered == item.ordered && list.marker == item.marker

/-! ## Tables -/

/-- Cut a row at its bars. A bar after a backslash is text. -/
def cutBars : List Char → List (List Char)
  | [] => [[]]
  | '\\' :: '|' :: cs =>
    match cutBars cs with
    | cell :: cells => ('|' :: cell) :: cells
    | [] => [['|']]
  | c :: cs =>
    match cutBars cs with
    | cell :: cells => if c == '|' then [] :: cell :: cells else (c :: cell) :: cells
    | [] => [[c]]

/-- The cells of a row, without the bars at its ends. -/
def rowCells (line : List Char) : List (List Char) :=
  let line := trimGaps line
  let cells := cutBars (if line.head? == some '|' then line.drop 1 else line)
  let closed := match cells.getLast? with
    | some last => last.isEmpty && 1 < cells.length
    | none => false
  (if closed then cells.dropLast else cells).map trimGaps

/-- Whether a cell is one of the line between the header and the rows. -/
def isRuleCell (cell : List Char) : Bool :=
  let inner := if cell.head? == some ':' then cell.drop 1 else cell
  let inner := if inner.getLast? == some ':' then inner.dropLast else inner
  !inner.isEmpty && inner.all (· == '-')

/-- Whether two lines are the header of a table and the line under it. -/
def isTableStart (header rule : List Char) : Bool :=
  header.contains '|' && rule.contains '|' && (rowCells rule).all isRuleCell &&
    (rowCells header).length == (rowCells rule).length

/-- Whether a line goes on with a table that has a header. -/
def continuesTable (header line : List Char) : Bool :=
  let line := trimGaps line
  line.contains '|' &&
    ((trimGaps header).head? != some '|' || (line.head? == some '|' && line.getLast? == some '|'))

/-- The table of its lines, if all of its rows have as many cells as its header. -/
def table? (lines : List (List Char)) : Option Block :=
  match lines with
  | header :: _ :: rows =>
    let cells := rowCells header
    let rows := rows.map rowCells
    if rows.all (·.length == cells.length) then some (.table cells rows) else none
  | _ => none

end Manuscript.Markdown
