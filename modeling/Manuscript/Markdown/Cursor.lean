import Manuscript.Text.Blank

/-! # Positions in a line

The structure of a markdown text depends on the columns at which its lines
start. A tab reaches to the next column that is a multiple of four, and where
only some of its columns are passed over, the others count as spaces.
-/

namespace Manuscript.Markdown

/-- A character of indentation. -/
def isGap (c : Char) : Bool := c == ' ' || c == '\t'

/-- The end of a line that is still to be read, and the column at which it starts. -/
structure Cursor where
  rest : List Char
  column : Nat := 0

namespace Cursor

/-- The columns that a tab at a column takes. -/
def tabWidth (column : Nat) : Nat := 4 - column % 4

/-- The columns of spaces and tabs from a column on. -/
def gapFrom (column : Nat) : List Char → Nat
  | ' ' :: cs => 1 + gapFrom (column + 1) cs
  | '\t' :: cs => tabWidth column + gapFrom (column + tabWidth column) cs
  | _ => 0

/-- The columns of spaces and tabs at a position. -/
def indent (cursor : Cursor) : Nat := gapFrom cursor.column cursor.rest

/-- Whether nothing but spaces and tabs is left. -/
def isBlank (cursor : Cursor) : Bool := cursor.rest.all isGap

/-- Pass over columns of spaces and tabs, as far as there are any. -/
def skipColumns : Nat → Cursor → Cursor
  | 0, cursor => cursor
  | n + 1, ⟨' ' :: cs, column⟩ => skipColumns n ⟨cs, column + 1⟩
  | n + 1, ⟨'\t' :: cs, column⟩ =>
    skipColumns n ⟨List.replicate (tabWidth column - 1) ' ' ++ cs, column + 1⟩
  | _, cursor => cursor

/-- Pass over all spaces and tabs. -/
def skipGap (cursor : Cursor) : Cursor := cursor.skipColumns cursor.indent

/-- Pass over characters that take one column each. -/
def skipChars (n : Nat) (cursor : Cursor) : Cursor := ⟨cursor.rest.drop n, cursor.column + n⟩

/-- What is left after the indentation. -/
def body (cursor : Cursor) : List Char := cursor.rest.dropWhile isGap

end Cursor

/-- The lines of a text without their ends, which are line feeds, carriage returns, or both. -/
def textLines : List Char → List (List Char)
  | [] => []
  | '\r' :: '\n' :: cs => [] :: textLines cs
  | '\r' :: cs => [] :: textLines cs
  | '\n' :: cs => [] :: textLines cs
  | c :: cs =>
    match cs, textLines cs with
    | [], _ => [[c]]
    | _, [] => [[c]]
    | next :: _, line :: lines =>
      if next == '\n' || next == '\r' then [c] :: lines else (c :: line) :: lines

end Manuscript.Markdown
