import Manuscript.Markdown.Inline
import Manuscript.Markdown.Reading
import Manuscript.Markdown.Structure

/-! # The tokens of a text

A text is cut into blocks first, because the definitions of addresses may
stand anywhere in it, and then the texts within the blocks are read.
-/

namespace Manuscript.Markdown

/-- The token of a cell. -/
def cellToken (context : InlineContext) (kind : TokenKind) (cell : List Char) : Token :=
  { kind, children := inlineTokens context cell }

/-- The kind of the cells of a table. -/
def cellKind : TokenKind := .other "table_cell" (by decide)

/-- The kind of the rows of the body of a table. -/
def rowKind : TokenKind := .other "table_row" (by decide)

mutual

/-- The token of a block. -/
def Block.token (context : InlineContext) : Block → Token
  | .paragraph text => { kind := .paragraph, children := inlineTokens context text }
  | .heading level text => { kind := .heading, level, children := inlineTokens context text }
  | .thematicBreak => { kind := .thematicBreak }
  | .code text => { kind := .codeBlock, raw := String.ofList text }
  | .html text => { kind := .htmlBlock, raw := String.ofList text }
  | .quote children => { kind := .blockQuote, children := blockTokens context children }
  | .list style items => { kind := .list, style, children := blockTokens context items }
  | .item children => { kind := .listItem, children := blockTokens context children }
  | .table header rows =>
    let row (cells : List (List Char)) : Token :=
      { kind := rowKind, children := cells.map (cellToken context cellKind) }
    { kind := .table
      children := [
        { kind := .tableHead, children := header.map (cellToken context cellKind) },
        { kind := .tableBody, children := rows.map row }] }

/-- The tokens of blocks. -/
def blockTokens (context : InlineContext) : List Block → List Token
  | [] => []
  | block :: rest => block.token context :: blockTokens context rest

end

/-- The tokens of a text. -/
def tokenize : Tokenizer := fun extensions text =>
  let (blocks, definitions) := Structure.ofText (extensions.contains .table) text.toList
  blockTokens { definitions, strikethrough := extensions.contains .strikethrough } blocks

/-- Read a source. -/
def read (options : Options) (source : Source) : Reading :=
  readSourceWith tokenize options source

end Manuscript.Markdown
