import Manuscript.Log
import Manuscript.Markdown.Tree
import Manuscript.Text.Blank
import Manuscript.Text.Encoding
import Manuscript.Text.Lines

/-! # Reading a markdown document

The first lines of a document may be a title block: lines that start with a
percent sign, with metadata after it. They become a heading that carries the
metadata; what follows them is cut into tokens, and the nodes of the tokens
follow the heading. How texts are cut into tokens is left open here.
-/

namespace Manuscript.Markdown

/-- The choices of the one who reads. -/
structure Options where
  /-- Whether lines with a percent sign at the start are a title block. -/
  titleBlock : Bool := true
  /-- Whether there are tables. -/
  tables : Bool := true
  /-- Whether text may be struck through. -/
  strikethrough : Bool := false
  deriving DecidableEq, Repr

/-- An addition to plain markdown. -/
inductive Extension where
  | table
  | strikethrough
  deriving DecidableEq, Repr

/-- The additions that options ask for. -/
def Options.extensions (options : Options) : List Extension :=
  (if options.tables then [.table] else []) ++
    (if options.strikethrough then [.strikethrough] else [])

/-- How a text is cut into tokens. -/
abbrev Tokenizer := List Extension → String → List Token

/-! ## Title blocks -/

/-- The mark of a line of a title block. -/
def titleMark : Char := '%'

/-- Whether a line belongs to a title block. -/
def isMarked (line : List Char) : Bool := line.head? == some titleMark

/-- Whether a character is a carriage return or a line feed. -/
def endsLine (c : Char) : Bool := c == '\r' || c == '\n'

/-- What a line of a title block says: the line without its mark, its end, and one space. -/
def unmark (line : List Char) : List Char :=
  match (Text.dropTrailing endsLine line).drop 1 with
  | ' ' :: said => said
  | said => said

/-- Split off the title block that a text starts with, if it starts with one. -/
def splitTitleBlock (content : String) : Option String × String :=
  let lines := Text.lines content.toList
  let marked := lines.takeWhile isMarked
  if marked.isEmpty then (none, content)
  else
    (some (String.ofList (['\n'].intercalate (marked.map unmark))),
      String.ofList (lines.dropWhile isMarked).flatten)

/-! ## Documents -/

/-- What reading a document did: the tree or why there is none, the text that was cut into tokens,
and what was reported. -/
structure Reading where
  tree : Except TreeError Node
  content : String
  log : List Log.Record

/-- Read a text. -/
def readWith (tokenize : Tokenizer) (options : Options) (text : String) : Reading :=
  let (payload, content) := if options.titleBlock then splitTitleBlock text else (none, text)
  let front := (payload.map fun payload => [Node.titleBlockHeading payload]).getD []
  let count (payload : String) := (payload.toList.filter (· == '\n')).length + 1
  let report (payload : String) : Log.Record :=
    ⟨Log.debug, s!"Found {count payload} line title block"⟩
  { tree := (nodesOf (tokenize options.extensions content)).map fun nodes =>
      .document (front ++ nodes)
    content
    log := (payload.map report).toList }

/-- What is read: a text, or bytes. -/
inductive Source where
  | text (s : String)
  | bytes (b : ByteArray)

/-- The reports on the encodings that bytes are not in. -/
def encodingReports : List Log.Record :=
  ["utf-8", "utf-8-sig"].map fun encoding =>
    ⟨Log.debug, "Failed to decode markdown with " ++ encoding⟩

/-- The text of a source, and what there is to report. -/
def Source.decode : Source → String × List Log.Record
  | text s => (s, [])
  | bytes b =>
    let (s, strict) := Text.decode b
    (s, if strict then [] else encodingReports)

/-- Read a source. -/
def readSourceWith (tokenize : Tokenizer) (options : Options) (source : Source) : Reading :=
  let (text, log) := source.decode
  let reading := readWith tokenize options text
  { reading with log := log ++ reading.log }

end Manuscript.Markdown
