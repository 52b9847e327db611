import Manuscript.Document.Node

/-! # Markdown tokens

A reader of markdown cuts a text into tokens, which hold their parts as tokens
of their own. A token need not be one that any text gives: its kind may be
unknown or missing, and every kind may hold every kind.
-/

namespace Manuscript.Markdown

/-- The written names of the kinds that are known. -/
def kindNames : List String := [
  "blank_line", "heading", "paragraph", "block_text", "block_code", "block_quote", "block_html",
  "thematic_break", "list", "list_item", "table", "table_head", "table_body", "text", "softbreak",
  "linebreak", "emphasis", "strong", "strikethrough", "codespan", "inline_html", "link", "image"]

/-- What a token stands for. -/
inductive TokenKind where
  | blankLine
  | heading
  | paragraph
  /-- The text of an item of a list without blank lines. -/
  | itemText
  | codeBlock
  | blockQuote
  | htmlBlock
  | thematicBreak
  | list
  | listItem
  | table
  | tableHead
  | tableBody
  | text
  | softBreak
  | hardBreak
  | emphasis
  | strong
  | strikethrough
  | codeSpan
  | htmlSpan
  | link
  | image
  /-- A kind that is not known. -/
  | other (name : String) (unknown : name ∉ kindNames)
  /-- No kind is given. -/
  | missing
  /-- The kind is given as nothing. -/
  | null
  deriving DecidableEq, Repr

namespace TokenKind

/-- The kinds that are known. -/
def vocabulary : List TokenKind := [
  blankLine, heading, paragraph, itemText, codeBlock, blockQuote, htmlBlock, thematicBreak, list,
  listItem, table, tableHead, tableBody, text, softBreak, hardBreak, emphasis, strong,
  strikethrough, codeSpan, htmlSpan, link, image]

/-- The written name of a kind, empty if there is none. -/
def name : TokenKind → String
  | blankLine => "blank_line"
  | heading => "heading"
  | paragraph => "paragraph"
  | itemText => "block_text"
  | codeBlock => "block_code"
  | blockQuote => "block_quote"
  | htmlBlock => "block_html"
  | thematicBreak => "thematic_break"
  | list => "list"
  | listItem => "list_item"
  | table => "table"
  | tableHead => "table_head"
  | tableBody => "table_body"
  | text => "text"
  | softBreak => "softbreak"
  | hardBreak => "linebreak"
  | emphasis => "emphasis"
  | strong => "strong"
  | strikethrough => "strikethrough"
  | codeSpan => "codespan"
  | htmlSpan => "inline_html"
  | link => "link"
  | image => "image"
  | other name _ => name
  | missing | null => ""

/-- The kind with a written name. -/
def ofName (name : String) : TokenKind :=
  if unknown : name ∉ kindNames then other name unknown
  else (vocabulary.find? (·.name == name)).getD null

/-- The names are those of the vocabulary, in its order. -/
example : vocabulary.map name = kindNames := rfl

end TokenKind

/-- A token. Its fields mean something for some kinds only: the raw text of text-like tokens, the
level of headings, the target of links and images, and the style of lists, where an empty marker
stands for the usual one. -/
structure Token where
  kind : TokenKind
  raw : String := ""
  level : Int := 1
  target : String := ""
  style : ListStyle := { marker := "" }
  children : List Token := []

instance : Inhabited Token := ⟨{ kind := .missing }⟩

namespace Token

/-- The style of a list, with the usual marker if none is given. -/
def listStyle (token : Token) : ListStyle :=
  let usual := if token.style.ordered then "." else "*"
  { token.style with marker := if token.style.marker.isEmpty then usual else token.style.marker }

/-- The program text of a code block, which ends with a line end. -/
def program (raw : String) : String :=
  if raw.toList.getLast? == some '\n' then raw else raw ++ "\n"

end Token

end Manuscript.Markdown
