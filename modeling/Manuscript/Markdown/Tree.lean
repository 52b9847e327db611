import Manuscript.Document.Build
import Manuscript.Markdown.Token
import Manuscript.Text.Quoted

/-! # The document tree of tokens

A run of tokens gives a run of nodes: a blank line gives none, struck-through
tokens give their parts, and every other known token gives one node. Lists
hold items and tables hold a head and a body. The first token in document
order that is none of those that may stand in its place is refused; rows and
cells are taken for what their place demands.
-/

namespace Manuscript.Markdown

/-- A token that may not stand in its place. -/
inductive TreeError where
  | unsupported (kind : TokenKind)
  | inList (kind : TokenKind)
  | inTable (kind : TokenKind)
  deriving DecidableEq, Repr

namespace TreeError

/-- The kind of a part of a collection in messages. -/
def partName : TokenKind → String
  | .missing | .null => "None"
  | kind => Text.quoted kind.name

def message : TreeError → String
  | unsupported .null => "Unsupported markdown token: None"
  | unsupported kind => "Unsupported markdown token: " ++ Text.quoted kind.name
  | inList kind => "Unexpected token in list: " ++ partName kind
  | inTable kind => "Unexpected token in table: " ++ partName kind

/-- The part of reading a document that refuses tokens. -/
def stage : TreeError → String
  | unsupported _ | inList _ | inTable _ => "tree_building"

end TreeError

mutual

/-- The nodes of a token. -/
def Token.nodes : Token → Except TreeError (List Node)
  | ⟨kind, raw, level, target, style, children⟩ => do
    match kind with
    | .blankLine => return []
    | .heading => return [{ kind := .heading, level, children := ← nodesOf children }]
    | .paragraph | .itemText => return [.paragraph (← nodesOf children)]
    | .codeBlock => return [.codeBlock (Token.program raw)]
    | .blockQuote => return [.blockQuote (← nodesOf children)]
    | .htmlBlock => return [.htmlBlock raw]
    | .thematicBreak => return [{ kind := .thematicBreak }]
    | .list =>
      let style := Token.listStyle { kind, style }
      return [{ kind := .list, listStyle := some style, children := ← itemsOf style children }]
    | .table => return [{ kind := .table, children := ← sectionsOf children }]
    | .text => return [.text raw]
    | .softBreak | .hardBreak => return [.text "\n"]
    | .emphasis => return [.emphasis (← nodesOf children)]
    | .strong => return [.strong (← nodesOf children)]
    | .strikethrough => nodesOf children
    | .codeSpan => return [.codeSpan raw]
    | .htmlSpan => return [.htmlSpan raw]
    | .link => return [.link target (← nodesOf children)]
    | .image => return [.image target (← nodesOf children)]
    | kind => throw (.unsupported kind)

/-- The nodes of a run of tokens. -/
def nodesOf : List Token → Except TreeError (List Node)
  | [] => return []
  | token :: rest => do
    let nodes ← token.nodes
    return nodes ++ (← nodesOf rest)

/-- The items of a list of a style. -/
def itemsOf (style : ListStyle) : List Token → Except TreeError (List Node)
  | [] => return []
  | ⟨kind, _, _, _, _, children⟩ :: rest => do
    if kind ≠ .listItem then throw (.inList kind)
    let item : Node :=
      { kind := .listItem, listStyle := some style, children := ← nodesOf children }
    return item :: (← itemsOf style rest)

/-- The head and the body of a table. The head holds the cells of its only row. -/
def sectionsOf : List Token → Except TreeError (List Node)
  | [] => return []
  | ⟨kind, _, _, _, _, children⟩ :: rest => do
    let part ←
      match kind with
      | .tableHead => pure (Node.tableHead [.tableRow (← cellsOf children)])
      | .tableBody => Node.tableBody <$> rowsOf children
      | kind => throw (.inTable kind)
    return part :: (← sectionsOf rest)

/-- The rows of the body of a table. -/
def rowsOf : List Token → Except TreeError (List Node)
  | [] => return []
  | ⟨_, _, _, _, _, children⟩ :: rest => do
    let row := Node.tableRow (← cellsOf children)
    return row :: (← rowsOf rest)

/-- The cells of a row. -/
def cellsOf : List Token → Except TreeError (List Node)
  | [] => return []
  | ⟨_, _, _, _, _, children⟩ :: rest => do
    let cell := Node.tableCell (← nodesOf children)
    return cell :: (← cellsOf rest)

end

end Manuscript.Markdown
