import Manuscript.Text.Digit

/-! # Places in a metadata text

A cursor is a place in a text: what is still to be read, and the line, the
column and the number of characters before it. Reading past the end gives a
zero character, which no text contains.
-/

namespace Manuscript.Yaml

/-- A line break. -/
def isBreak (c : Char) : Bool :=
  c == '\n' || c == '\r' || c == '\x85' || c == '\u2028' || c == '\u2029'

/-- The end of a line or of the text. -/
def endsLine (c : Char) : Bool := isBreak c || c == '\x00'

/-- A space, or the end of a line or of the text. -/
def endsWord (c : Char) : Bool := endsLine c || c == ' '

/-- A space, a tab, or the end of a line or of the text. -/
def endsToken (c : Char) : Bool := endsWord c || c == '\t'

/-- A character of anchors, handles and directive names. -/
def isWordChar (c : Char) : Bool := c.isAlphanum || c == '-' || c == '_'

/-- A character that a metadata text may hold. -/
def isAllowed (c : Char) : Bool :=
  let n := c.toNat
  n == 0x09 || n == 0x0a || n == 0x0d || (0x20 ≤ n && n ≤ 0x7e) || n == 0x85 ||
    (0xa0 ≤ n && n ≤ 0xfffd) || 0x10000 ≤ n

/-- A place in a text. -/
structure Cursor where
  rest : List Char
  index : Nat := 0
  line : Nat := 0
  column : Nat := 0
  deriving Repr

namespace Cursor

/-- The character so many places ahead. -/
def peek (cursor : Cursor) (ahead : Nat := 0) : Char := cursor.rest.getD ahead '\x00'

/-- The place after the next character. Byte order marks have no width. -/
def next (cursor : Cursor) : Cursor :=
  match cursor.rest with
  | [] => cursor
  | c :: rest =>
    if isBreak c && !(c == '\r' && rest.head? == some '\n') then
      ⟨rest, cursor.index + 1, cursor.line + 1, 0⟩
    else
      ⟨rest, cursor.index + 1, cursor.line,
        if c == '\ufeff' then cursor.column else cursor.column + 1⟩

/-- The place after so many characters. -/
def advance (cursor : Cursor) : Nat → Cursor
  | 0 => cursor
  | count + 1 => cursor.next.advance count

/-- Read characters as long as they satisfy a test. -/
def takeWhile (cursor : Cursor) (test : Char → Bool) : List Char × Cursor :=
  let taken := cursor.rest.takeWhile test
  (taken, cursor.advance taken.length)

/-- Pass over characters as long as they satisfy a test. -/
def dropWhile (cursor : Cursor) (test : Char → Bool) : Cursor := (cursor.takeWhile test).2

/-- Pass over spaces. -/
def dropSpaces (cursor : Cursor) : Cursor := cursor.dropWhile (· == ' ')

/-- Pass over spaces up to a column. -/
def dropIndent (cursor : Cursor) (column : Int) : Cursor :=
  let spaces := (cursor.rest.takeWhile (· == ' ')).length
  cursor.advance (min spaces (column - cursor.column).toNat)

/-- Pass over a comment. -/
def dropComment (cursor : Cursor) : Cursor :=
  if cursor.peek == '#' then cursor.dropWhile (!endsLine ·) else cursor

/-- Read a line break. Most breaks read as a line feed. -/
def takeBreak (cursor : Cursor) : Option (Char × Cursor) :=
  match cursor.rest with
  | '\r' :: '\n' :: _ => some ('\n', cursor.advance 2)
  | c :: _ =>
    if c == '\u2028' || c == '\u2029' then some (c, cursor.next)
    else if isBreak c then some ('\n', cursor.next)
    else none
  | [] => none

/-- Whether a document mark of three equal characters stands here. -/
def atMark (cursor : Cursor) (c : Char) : Bool :=
  cursor.rest.take 3 == [c, c, c] && endsToken (cursor.peek 3)

/-- Whether a mark that starts or ends a document stands here. -/
def atDocumentMark (cursor : Cursor) : Bool := cursor.atMark '-' || cursor.atMark '.'

/-- Pass over what may follow at the end of a line: spaces, a comment and the break. -/
def endLine (cursor : Cursor) : Option Cursor :=
  let cursor := cursor.dropSpaces.dropComment
  if endsLine cursor.peek then some ((cursor.takeBreak.map (·.2)).getD cursor) else none

end Cursor

end Manuscript.Yaml
