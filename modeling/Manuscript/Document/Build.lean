import Manuscript.Document.Node

/-! # Building document trees

One function per kind of node. A heading checks its level, and a list hands
its style to its items.
-/

namespace Manuscript

namespace Node

def text (literal : String) : Node := { kind := .text, literal }

def codeSpan (literal : String) : Node := { kind := .codeSpan, literal }

def codeBlock (literal : String) : Node := { kind := .codeBlock, literal }

def htmlBlock (literal : String) : Node := { kind := .htmlBlock, literal }

def htmlSpan (literal : String) : Node := { kind := .htmlSpan, literal }

def document (children : List Node) : Node := { kind := .document, children }

def paragraph (children : List Node) : Node := { kind := .paragraph, children }

def emphasis (children : List Node) : Node := { kind := .emphasis, children }

def strong (children : List Node) : Node := { kind := .strong, children }

def blockQuote (children : List Node) : Node := { kind := .blockQuote, children }

def link (destination : String) (children : List Node) : Node :=
  { kind := .link, destination, children }

def image (destination : String) (children : List Node) : Node :=
  { kind := .image, destination, children }

/-- The level of a heading lies outside one to six. -/
structure LevelError where
  level : Int
  deriving DecidableEq, Repr

def LevelError.message (e : LevelError) : String :=
  s!"Heading level must be 1-6, got {e.level}"

/-- A heading of a level from one to six. -/
def heading (level : Int) (children : List Node) (isTitleBlock : Bool := false) :
    Except LevelError Node :=
  if 1 ≤ level ∧ level ≤ 6 then .ok { kind := .heading, level, isTitleBlock, children }
  else .error ⟨level⟩

def listItem (children : List Node) : Node := { kind := .listItem, children }

/-- A list whose style is also the style of each of its children. -/
def list (items : List Node) (style : ListStyle := {}) : Node :=
  { kind := .list, listStyle := some style,
    children := items.map fun item => { item with listStyle := some style } }

def tableCell (children : List Node) : Node := { kind := .tableCell, children }

def tableRow (cells : List Node) : Node := { kind := .tableRow, children := cells }

def tableHead (rows : List Node) : Node := { kind := .tableHead, children := rows }

def tableBody (rows : List Node) : Node := { kind := .tableBody, children := rows }

/-- A row of cells that hold one text each. -/
def textRow (cells : List String) : Node :=
  tableRow (cells.map fun cell => tableCell [text cell])

/-- A table of plain texts: the rows of its head and the rows of its body. -/
def table (header rows : List (List String)) : Node :=
  { kind := .table,
    children := [tableHead (header.map textRow), tableBody (rows.map textRow)] }

/-- The heading that carries a title block as its only text. -/
def titleBlockHeading (payload : String) : Node :=
  { kind := .heading, level := 1, isTitleBlock := true, children := [text payload] }

end Node

end Manuscript
