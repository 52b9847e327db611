import Manuscript.FrontMatter.TitleBlock
import Manuscript.Table.Layout
import Manuscript.Text.Encoding
import Manuscript.Troff.Request

/-! # Blocks of requests

Each function here writes one fixed sequence of requests: a font switch, a
paragraph, a display, a table or the parts of a title block. Nothing is
escaped, so text that looks like a request acts as one.
-/

namespace Manuscript.Troff

/-- A request without arguments. -/
def bare (name : String) : Piece := .request { name }

/-- A request with text arguments. -/
def withText (name : String) (args : List String) : Piece := .request { name, args }

/-- The end of a line. -/
def lineBreak : Piece := .text "\n"

def italic : Piece := bare Request.italic

def roman : Piece := bare Request.roman

def underline : Piece := bare Request.underline

/-- Switch to bold, or set a text in bold. -/
def bold (text : Option String := none) : Piece :=
  match text with
  | none => bare Request.bold
  | some text => withText Request.bold [text]

def indent : Piece := bare Request.indentStart

def outdent : Piece := bare Request.indentEnd

def tableHeading : Piece := bare Request.tableHeading

def beginParagraph : Piece := bare Request.paragraph

def signature : Piece := bare Request.signature

def sectionHeading : Piece := bare Request.sectionHeading

/-- Start an indented paragraph with a label. -/
def indentedParagraph (label : String) : Piece := withText Request.indentedParagraph [label]

/-- Start a paragraph. At a negative level it starts at the left margin; at other levels the text
goes on in the current indentation after a line break. -/
def paragraph (text : String) (level : Int) : List Piece :=
  if level < 0 then [withText Request.leftParagraph ["\n", text]] else [lineBreak, .text text]

/-- A program, without the spaces that it starts with. -/
def codeBlock (code : String) : List Piece :=
  [bare Request.codeStart, .text (Text.dropSpaces code), bare Request.codeEnd]

def html (content : String) : Piece := withText Request.html [content]

/-- Output between the lines of a display. -/
def display (content : List Piece) : List Piece :=
  bare Request.displayStart :: content ++ [bare Request.displayEnd]

/-- A laid out table in a display. -/
def tableDisplay (layout : Table.Layout) : List Piece :=
  display [
    withText Request.tableStart [Request.withHeading], .text layout.header, lineBreak, tableHeading,
    .text layout.body, bare Request.tableEnd]

/-- The table of a buffer. -/
def table (buffer : String) : Except Table.LayoutError (List Piece) :=
  (Table.layout buffer).map tableDisplay

/-! ## Title blocks -/

def htmlTitle (text : LooseText) : Draft := ⟨Request.html, [text]⟩

def title (text : LooseText) : Draft := ⟨Request.title, ["\n", text]⟩

/-- The abstract, without the spaces that it starts with. -/
def abstract (text : LooseText) : List Draft :=
  [⟨Request.abstractStart, ["\n", text.dropSpaces]⟩, ⟨Request.abstractEnd, []⟩]

/-- The name and address of an author, and the affiliation if it is longer than a character. -/
def authorEntry (author : Author) : List Draft :=
  [⟨Request.author, []⟩, ⟨Request.italic, [author.name]⟩, ⟨Request.italic, [author.email]⟩] ++
    if 1 < author.affiliation.length then [⟨Request.institution, [author.affiliation]⟩] else []

/-- The form in which the date request takes a date: month, day and year. -/
def dateText (date : Calendar.Date) : String :=
  s!"{date.monthAbbreviation} {date.day}, {date.year}"

/-- The date of the document; without a date, the date is suppressed. -/
def dateEntry (date : Option Calendar.Date) : Draft :=
  match date with
  | none => ⟨Request.date, []⟩
  | some date => ⟨Request.date, [dateText date]⟩

/-- The title block: title, authors, date and abstract, and the start of the text. -/
def titleBlock (block : TitleBlock) : List Draft :=
  [htmlTitle block.title, title block.title] ++ block.authors.flatMap authorEntry ++
    [dateEntry (block.date.map Calendar.Moment.date)] ++
    (if block.abstract.isEmpty then [] else abstract block.abstract) ++ [⟨Request.paragraph, []⟩]

/-! ## Blocks of bytes -/

/-- Bytes as they are. -/
def verbatim (bytes : ByteArray) : ByteArray := bytes

/-- Bytes between the lines of a display. -/
def displayBytes (bytes : ByteArray) : ByteArray :=
  (bare Request.displayStart).toText.toUTF8 ++ bytes ++ (bare Request.displayEnd).toText.toUTF8

/-- The table of a buffer given by its bytes. -/
def tableBytes (buffer : ByteArray) : Except Table.LayoutError ByteArray :=
  (Table.layoutBytes buffer).map fun layout => (textOf (tableDisplay layout)).toUTF8

end Manuscript.Troff
