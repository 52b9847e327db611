import Manuscript.Log
import Manuscript.Render.Error
import Manuscript.Troff.Blocks

/-! # Rendering a node

Rendering visits the nodes of a tree and writes requests and text at each
visit. Between visits it remembers the numbers of the items of the open lists,
what has been written into the table that is being assembled, the title block,
and whether the next text is front matter.

`Render.visitWith` is one visit. It fails before it writes, unless a text of the
title block has no encoding: what comes before that text is written.
-/

namespace Manuscript.Render

/-- The choices of the one who renders. -/
structure Options where
  /-- What is written before the document. -/
  preamble : String := ""
  /-- Whether a first-level heading whose text starts like front matter is front matter. -/
  sniffFrontMatter : Bool := false
  deriving DecidableEq, Repr

/-- What rendering remembers between visits. The counters are those of the open lists, the
innermost first. -/
structure State where
  consumingFrontMatter : Bool := false
  titleBlock : Option TitleBlock := none
  counters : List Nat := []
  tableBuffer : Option String := none
  deriving DecidableEq, Repr

/-- The state of rendering, what has been written, and what has been reported. -/
structure Run where
  state : State := {}
  written : Array Troff.Piece := #[]
  log : Array Log.Record := #[]

/-- A part of rendering. -/
abbrev Writer := Action RenderError Run

/-- How the payload of front matter is loaded. -/
abbrev Loader := String → Except FrontMatter.LoadError TitleBlock

/-- Append to what is written. -/
def write (pieces : List Troff.Piece) : Writer Unit :=
  modify fun run => { run with written := run.written ++ pieces }

/-- Report at a level. -/
def report (level : Log.Level) (message : String) : Writer Unit :=
  modify fun run => { run with log := run.log.push ⟨level, message⟩ }

/-- Change what is remembered. -/
def update (change : State → State) : Writer Unit :=
  modify fun run => { run with state := change run.state }

/-- What is remembered. -/
def current : Writer State := return (← get).state

/-- Write text into the open table, or to the output if no table is open. -/
def writeText (s : String) : Writer Unit := do
  match (← current).tableBuffer with
  | some buffer => update fun state => { state with tableBuffer := some (buffer ++ s) }
  | none => write [.text s]

/-- The start of a text that is taken for front matter. -/
def frontMatterStart : String := "title:"

/-- Whether a heading carries front matter: it is marked as such, or front matter is looked for and
the first-level heading starts with a text that starts like it. -/
def isFrontMatter (options : Options) (node : Node) : Bool :=
  node.isTitleBlock ||
    (options.sniffFrontMatter && node.level == 1 &&
      match node.children with
      | first :: _ =>
        first.kind == .text &&
          frontMatterStart.toList.isPrefixOf (first.literal.toList.dropWhile Text.isBlank)
      | [] => false)

/-- Load front matter. -/
def loadTitleBlock (load : Loader) (payload : String) : Writer Unit := do
  match load payload with
  | .error e => throw (.frontMatter e)
  | .ok block =>
    report Log.debug
      s!"Loaded title block {block.title.quoted} with {block.authors.length} author(s)"
    update fun state => { state with titleBlock := some block, consumingFrontMatter := false }

/-- A text: the payload of front matter, or text without the spaces that it starts with. -/
def text (load : Loader) (node : Node) : Writer Unit := do
  if (← current).consumingFrontMatter then loadTitleBlock load node.literal
  else if !node.literal.isEmpty then writeText (Text.dropSpaces node.literal)

/-- The label of an item: its numbers from the outermost list to the innermost, each with a point
after it, or the mark of the list. -/
def itemLabel (style : ListStyle) (counters : List Nat) : String :=
  if style.ordered then String.join (counters.reverse.map fun count => s!"{count}.")
  else style.marker

/-- Count an item in the innermost list. -/
def countItem : Writer (List Nat) := do
  match (← current).counters with
  | [] => throw .outsideList
  | count :: outer =>
    let counters := (count + 1) :: outer
    update ({ · with counters })
    return counters

/-- What starts an item. -/
def itemStart (node : Node) (counters : List Nat) : Troff.Piece :=
  Troff.indentedParagraph (itemLabel (node.listStyle.getD {}) counters)

/-- Start an item. -/
def enterItem (node : Node) : Writer Unit := do
  write [itemStart node (← countItem)]

/-- Start a list. Lists inside lists are indented. -/
def enterList : Writer Unit := do
  if !(← current).counters.isEmpty then write [Troff.indent]
  update fun state => { state with counters := 0 :: state.counters }

/-- End a list. -/
def leaveList : Writer Unit := do
  update fun state => { state with counters := state.counters.tail }
  write [Troff.outdent]

/-- Start to assemble a table. -/
def enterTable : Writer Unit := do
  if (← current).tableBuffer.isSome then throw .nestedTable
  update ({ · with tableBuffer := some "" })

/-- Write the assembled table. -/
def leaveTable (kind : Kind) : Writer Unit := do
  match (← current).tableBuffer with
  | none => throw (.outsideTable kind)
  | some buffer =>
    update ({ · with tableBuffer := none })
    match Troff.table buffer with
    | .ok pieces => write pieces
    | .error e => throw (.layout e)

/-- End a part of a table with a mark. -/
def markTable (kind : Kind) (mark : String) : Writer Unit := do
  match (← current).tableBuffer with
  | none => throw (.outsideTable kind)
  | some buffer => update ({ · with tableBuffer := some (buffer ++ mark) })

/-- Start a heading. Once there is a title block, further front matter is passed over. -/
def enterHeading (options : Options) (node : Node) : Writer Step := do
  let frontMatter := isFrontMatter options node
  if frontMatter && (← current).titleBlock.isSome then
    report Log.warning "Ignoring additional front matter heading; the title block is already set"
    return .skipChildren
  else
    update ({ · with consumingFrontMatter := frontMatter })
    if !frontMatter then write [Troff.sectionHeading]
    return .next

/-- Write drafts in order, up to one that has no encoding. -/
def writeDrafts (drafts : List Troff.Draft) : Writer Unit := do
  let (pieces, fault?) := Troff.requests drafts
  write pieces
  match fault? with
  | none => return ()
  | some e => throw (.encoding e)

/-- End a heading. Front matter ends with the title block. -/
def leaveHeading (options : Options) (node : Node) : Writer Unit := do
  update ({ · with consumingFrontMatter := false })
  if !isFrontMatter options node then write [Troff.lineBreak]
  else
    match (← current).titleBlock with
    | none => throw .noPayload
    | some block => writeDrafts (Troff.titleBlock block)

/-- One visit of a node, given how front matter is loaded. -/
def visitWith (load : Loader) (options : Options) : Visitor RenderError Run := fun node phase => do
  match node.kind, phase with
  | .document, _ | .htmlSpan, _ | .tableHead, _ | .tableBody, _ | .link, _ => return .next
  | .text, _ => text load node
  | .paragraph, .enter => write (Troff.paragraph node.literal (← current).counters.length)
  | .blockQuote, .enter => write (Troff.paragraph node.literal 1)
  | .paragraph, .leave | .blockQuote, .leave => write [Troff.lineBreak]
  | .htmlBlock, _ => write [Troff.html node.literal]
  | .codeSpan, _ => write [Troff.lineBreak, Troff.bold (some node.literal), Troff.roman]
  | .codeBlock, _ => write (Troff.codeBlock node.literal)
  | .table, .enter => enterTable
  | .table, .leave => leaveTable node.kind
  | .tableRow, .leave => markTable node.kind "\n"
  | .tableCell, .leave => markTable node.kind "\t"
  | .tableRow, .enter | .tableCell, .enter => return .next
  | .list, .enter => enterList
  | .list, .leave => leaveList
  | .listItem, .enter => enterItem node
  | .listItem, .leave => return .next
  | .emphasis, .enter => write [Troff.italic]
  | .strong, .enter => write [Troff.bold]
  | .emphasis, .leave | .strong, .leave => write [Troff.lineBreak, Troff.roman]
  | .image, _ =>
    report Log.debug s!"Skipping image {node.destination}"
    return .skipChildren
  | .heading, .enter => return ← enterHeading options node
  | .heading, .leave => leaveHeading options node
  | .thematicBreak, _ | .lineBreak, _ | .other _, _ => throw (.unknownKind node.kind phase)
  return .next

end Manuscript.Render
