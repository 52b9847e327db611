/-! # Document trees

A document is a tree of nodes. The kind of a node says what it stands for and
which of its other fields mean anything: the literal of text-like nodes, the
level and the title-block mark of headings, the style of lists and their
items, and the destination of links and images. Leaf kinds never have their
children visited, whatever is stored there.
-/

namespace Manuscript

/-- What a node stands for. A kind outside the vocabulary keeps its name. -/
inductive Kind where
  | document
  | text
  | paragraph
  | heading
  | list
  | listItem
  | emphasis
  | strong
  | codeSpan
  | codeBlock
  | table
  | tableRow
  | tableCell
  | tableHead
  | tableBody
  | blockQuote
  | htmlBlock
  | htmlSpan
  | link
  | image
  | thematicBreak
  | lineBreak
  | other (name : String)
  deriving DecidableEq, Repr

namespace Kind

/-- The kinds of the vocabulary. -/
def vocabulary : List Kind := [
  document, text, paragraph, heading, list, listItem, emphasis, strong, codeSpan, codeBlock, table,
  tableRow, tableCell, tableHead, tableBody, blockQuote, htmlBlock, htmlSpan, link, image,
  thematicBreak, lineBreak]

/-- The written name of a kind. -/
def name : Kind → String
  | document => "document"
  | text => "text"
  | paragraph => "paragraph"
  | heading => "heading"
  | list => "list"
  | listItem => "list-item"
  | emphasis => "emphasis"
  | strong => "strong"
  | codeSpan => "code-span"
  | codeBlock => "code-block"
  | table => "table"
  | tableRow => "table-row"
  | tableCell => "table-cell"
  | tableHead => "table-head"
  | tableBody => "table-body"
  | blockQuote => "block-quote"
  | htmlBlock => "html-block"
  | htmlSpan => "html-span"
  | link => "link"
  | image => "image"
  | thematicBreak => "thematic-break"
  | lineBreak => "line-break"
  | other name => name

/-- The kind with a written name. -/
def ofName (name : String) : Kind :=
  (vocabulary.find? (·.name == name)).getD (other name)

/-- A leaf is visited once, on entering, and its children are not. -/
def isLeaf : Kind → Bool
  | text | codeSpan | codeBlock | htmlBlock | htmlSpan | thematicBreak | lineBreak => true
  | _ => false

end Kind

/-- How a list and its items are marked in the source: whether they are numbered, the bullet or
the mark after the number, and the first number. -/
structure ListStyle where
  ordered : Bool := false
  marker : String := "*"
  start : Int := 1
  deriving DecidableEq, Repr

/-- A node of a document tree. -/
structure Node where
  kind : Kind
  literal : String := ""
  level : Int := 0
  isTitleBlock : Bool := false
  listStyle : Option ListStyle := none
  destination : String := ""
  children : List Node := []

instance : Inhabited Node := ⟨{ kind := .document }⟩

namespace Node

/-- Whether the node is visited both on entering and on leaving. -/
def isContainer (node : Node) : Bool := !node.kind.isLeaf

mutual

/-- The number of nodes of a tree. -/
def size : Node → Nat
  | ⟨_, _, _, _, _, _, children⟩ => 1 + sizeAll children

/-- The number of nodes of a forest. -/
def sizeAll : List Node → Nat
  | [] => 0
  | child :: rest => child.size + sizeAll rest

end

theorem size_eq (node : Node) : node.size = 1 + sizeAll node.children := by
  cases node; rfl

mutual

/-- Every node below this one, in document order. Stored children of leaves are among them. -/
def descendants : Node → List Node
  | ⟨_, _, _, _, _, _, children⟩ => descendantsAll children

/-- Every node of a forest, in document order. -/
def descendantsAll : List Node → List Node
  | [] => []
  | child :: rest => child :: (child.descendants ++ descendantsAll rest)

end

end Node

end Manuscript
