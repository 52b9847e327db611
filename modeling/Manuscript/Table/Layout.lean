import Manuscript.Table.Columns
import Manuscript.Text.Quoted

/-! # Layout of a buffered table

While a table is assembled, every cell is followed by a tab and every row by a
line feed. Its layout is the aligned text, cut after the first line into the
header and the body. A buffer without a row has no layout.
-/

namespace Manuscript.Table

/-- Why a buffer has no layout. -/
inductive LayoutError where
  /-- Nothing was buffered. -/
  | empty
  /-- The bytes of the buffer are no text. -/
  | notText
  /-- No row of the buffer was ended. -/
  | noRowEnd (buffer : String)
  deriving DecidableEq, Repr

def LayoutError.message : LayoutError → String
  | .empty => "Cannot lay out a table without rows"
  | .notText => "Table buffer is not valid UTF-8"
  | .noRowEnd buffer => "Table buffer has no row terminator: " ++ Text.quoted buffer

/-- The two parts of a laid out table: its first line, without the end, and all that follows. -/
structure Layout where
  header : String
  body : String
  deriving DecidableEq, Repr

/-- Cut a text after its first line. -/
def firstLine? (text : List Char) : Option (List Char × List Char) :=
  match text with
  | [] => none
  | '\n' :: rest => some ([], rest)
  | c :: rest => (firstLine? rest).map fun (line, after) => (c :: line, after)

/-- Lay out a buffer. -/
def layout (buffer : String) (padding : Int := gutter) : Except LayoutError Layout :=
  if buffer.isEmpty then .error .empty
  else
    match firstLine? (align buffer padding).toList with
    | some (header, body) => .ok ⟨String.ofList header, String.ofList body⟩
    | none => .error (.noRowEnd buffer)

/-- Lay out a buffer given by its bytes. -/
def layoutBytes (buffer : ByteArray) (padding : Int := gutter) : Except LayoutError Layout :=
  match String.fromUTF8? buffer with
  | some text => layout text padding
  | none => .error .notText

end Manuscript.Table
