import Manuscript.Markdown.Block
import Manuscript.Markdown.Html
import Manuscript.Markdown.Link

/-! # The blocks of a text

A text is read line by line. Between lines some containers are open, one
inside the other, and in the innermost of them perhaps a leaf whose lines are
being collected. A line first goes on with as many of the open containers as
it can, from the outermost on; then it may open further blocks; and what is
left of it is text for the leaf. Containers that the line does not go on with
are closed, unless all it does is to go on with their paragraph.
-/

namespace Manuscript.Markdown

/-- A block that holds blocks. -/
inductive Container where
  | quote
  | list (style : ListStyle)
  /-- An item, and by how many columns its content is indented. -/
  | item (offset : Nat)

/-- An open container with the blocks that are complete in it, the last first. -/
structure Frame where
  container : Container
  blocks : List Block := []

/-- A block whose lines are being collected, the last first. -/
inductive Leaf where
  | none
  | paragraph (lines : List (List Char))
  | indented (lines : List (List Char))
  | fenced (fence : Fence) (lines : List (List Char))
  | html (ending : HtmlEnd) (lines : List (List Char))
  | table (lines : List (List Char))

/-- What has been read of a text: complete blocks, the last first, the open containers, the
innermost first, the open leaf, and the definitions. -/
structure Structure where
  blocks : List Block := []
  frames : List Frame := []
  leaf : Leaf := .none
  definitions : List Definition := []

namespace Structure

/-- Add a complete block to the innermost container. -/
def add (s : Structure) (block : Block) : Structure :=
  match s.frames with
  | [] => { s with blocks := block :: s.blocks }
  | frame :: outer => { s with frames := { frame with blocks := block :: frame.blocks } :: outer }

/-! ## Closing -/

/-- Lines as a text in which every line is ended. -/
def endedLines (lines : List (List Char)) : List Char := lines.flatMap (· ++ ['\n'])

/-- Lines as a text with line ends between them. -/
def joinedLines (lines : List (List Char)) : List Char := ['\n'].intercalate lines

/-- Add the paragraph of some lines: the definitions that they start with, and the text after. -/
def addParagraph (s : Structure) (lines : List (List Char)) : Structure :=
  let (definitions, text) := takeDefinitions lines.length (joinedLines lines)
  let text := Text.dropTrailing isMarkupBlank text
  let s := { s with definitions := s.definitions ++ definitions }
  if text.isEmpty then s else s.add (.paragraph text)

/-- Close the open leaf. -/
def closeLeaf (s : Structure) : Structure :=
  let rest := { s with leaf := .none }
  match s.leaf with
  | .none => rest
  | .paragraph lines => rest.addParagraph lines.reverse
  | .indented lines => rest.add (.code (endedLines (lines.dropWhile (·.all isGap)).reverse))
  | .fenced _ lines => rest.add (.code (endedLines lines.reverse))
  | .html _ lines => rest.add (.html (endedLines lines.reverse))
  | .table lines =>
    match table? lines.reverse with
    | some table => rest.add table
    | none => rest.addParagraph (lines.reverse.map (·.dropWhile isGap))

/-- The block of a container. -/
def Frame.block (frame : Frame) : Block :=
  let children := frame.blocks.reverse
  match frame.container with
  | .quote => .quote children
  | .list style => .list style children
  | .item _ => .item children

/-- Close the innermost container. -/
def closeFrame (s : Structure) : Structure :=
  match s.frames with
  | [] => s
  | frame :: outer => { s with frames := outer }.add (Frame.block frame)

/-- Close the innermost containers of a number. -/
def closeFrames : Nat → Structure → Structure
  | 0, s => s
  | count + 1, s => closeFrames count s.closeFrame

/-- Close the leaf and all containers but the outermost of a number. -/
def closeTo (s : Structure) (depth : Nat) : Structure :=
  let s := s.closeLeaf
  s.closeFrames (s.frames.length - depth)

/-- Close the innermost container if it is a list, which holds nothing but items. -/
def closeList (s : Structure) : Structure :=
  match s.frames with
  | ⟨.list _, _⟩ :: _ => s.closeFrame
  | _ => s

/-! ## Going on -/

/-- Whether a line goes on with a container, and where the line goes on if it does. A blank line
goes on with an item unless nothing is in it. -/
def follow (isEmpty : Bool) (container : Container) (cursor : Cursor) : Option Cursor :=
  match container with
  | .list _ => some cursor
  | .quote =>
    if cursor.indent ≤ 3 && cursor.body.head? == some '>' then
      some ((cursor.skipGap.skipChars 1).skipColumns 1)
    else none
  | .item offset =>
    if offset ≤ cursor.indent then some (cursor.skipColumns offset)
    else if cursor.isBlank && !isEmpty then some cursor.skipGap
    else none

/-- How many of the open containers, the outermost first, a line goes on with, and where the line
goes on. -/
def followAll (leafIsOpen : Bool) : List Frame → Cursor → Nat × Cursor
  | [], cursor => (0, cursor)
  | frame :: inner, cursor =>
    let isEmpty := frame.blocks.isEmpty && inner.isEmpty && !leafIsOpen
    match follow isEmpty frame.container cursor with
    | some cursor =>
      let (count, cursor) := followAll leafIsOpen inner cursor
      (count + 1, cursor)
    | none => (0, cursor)

/-! ## Starting -/

/-- How the paragraph that is open stands to a line: there is none, the line goes on with its
containers, or it does not. -/
inductive ParagraphState where
  | closed
  | reached
  | lazy
  deriving DecidableEq

/-- What a line starts. Containers come with the place where the line goes on. -/
inductive Start where
  | quote (cursor : Cursor)
  | item (style : ListStyle) (offset : Nat) (cursor : Cursor)
  | complete (block : Block)
  | leaf (leaf : Leaf)
  /-- The paragraph above becomes a heading. -/
  | underline (level : Nat)

/-- The place and the indentation of the content of an item after its mark. -/
def itemContent (cursor : Cursor) (mark : ItemMark) : Nat × Cursor :=
  let indent := cursor.indent
  let marked := cursor.skipGap.skipChars mark.size
  let gap := marked.indent
  if marked.isBlank then (indent + mark.size + 1, marked.skipGap)
  else if 5 ≤ gap then (indent + mark.size + 1, marked.skipColumns 1)
  else (indent + mark.size + gap, marked.skipGap)

/-- A block of markup that starts with a line, and ends with it if its mark is there. -/
def htmlStart (ending : HtmlEnd) (line : List Char) : Start :=
  match ending with
  | .mark marks =>
    if holdsMark marks line then .complete (.html (line ++ ['\n'])) else .leaf (.html ending [line])
  | .blankLine => .leaf (.html ending [line])

/-- What a line starts at a place, if it starts anything. -/
def start? (paragraph : ParagraphState) (cursor : Cursor) : Option Start :=
  let body := cursor.body
  if cursor.isBlank then none
  else if 4 ≤ cursor.indent then
    if paragraph = .closed then some (.leaf (.indented [(cursor.skipColumns 4).rest])) else none
  else if body.head? == some '>' then
    some (.quote ((cursor.skipGap.skipChars 1).skipColumns 1))
  else
    match signedHeading? body with
    | some (level, text) => some (.complete (.heading level text))
    | none =>
    match fence? cursor.indent body with
    | some fence => some (.leaf (.fenced fence []))
    | none =>
    match htmlStart? (decide (paragraph = .closed)) body with
    | some ending => some (htmlStart ending cursor.rest)
    | none =>
    match if paragraph = .reached then underline? body else none with
    | some level => some (.underline level)
    | none =>
    if isRule body then some (.complete .thematicBreak)
    else
      match itemMark? body with
      | some mark =>
        if paragraph = .reached && !mark.interrupts body then none
        else
          let (offset, cursor) := itemContent cursor mark
          some (.item mark.style offset cursor)
      | none => none

/-- Start an item, in the list before it if it goes on with that. -/
def addItem (s : Structure) (style : ListStyle) (offset : Nat) : Structure :=
  let item : Frame := { container := .item offset }
  match s.frames with
  | ⟨.list open', _⟩ :: _ =>
    if continuesList open' style then { s with frames := item :: s.frames }
    else
      let s := s.closeFrame
      { s with frames := item :: { container := .list style } :: s.frames }
  | frames => { s with frames := item :: { container := .list style } :: frames }

/-! ## Lines -/

/-- The text of the last line of a paragraph and the lines before it, the last first, if with a
line under it that line is the header of a table. -/
def tableStart? (tables : Bool) (s : Structure) (line : List Char) : Option (List (List Char)) :=
  match s.leaf with
  | .paragraph (header :: _) =>
    if tables && s.frames.isEmpty && isTableStart header line then some [header] else none
  | _ => none

/-- Take what is left of a line as text. -/
def addText (tables : Bool) (s : Structure) (depth : Nat) (paragraph : ParagraphState)
    (cursor : Cursor) : Structure :=
  let body := cursor.body
  if cursor.isBlank then
    if paragraph = .reached then s.closeLeaf else s.closeTo depth
  else
    match paragraph, s.leaf with
    | .closed, _ =>
      let s := (s.closeTo depth).closeList
      { s with leaf := .paragraph [body] }
    | .reached, .paragraph (header :: before) =>
      if (tableStart? tables s body).isSome then
        let rest := { s with leaf := .none }
        let rest := if before.isEmpty then rest else rest.addParagraph before.reverse
        { rest with leaf := .table [body, header] }
      else { s with leaf := .paragraph (body :: header :: before) }
    | _, .paragraph lines => { s with leaf := .paragraph (body :: lines) }
    | _, _ => s

/-- Whether the open paragraph holds more than definitions. -/
def hasText (s : Structure) : Bool :=
  match s.leaf with
  | .paragraph lines =>
    let lines := lines.reverse
    !(takeDefinitions lines.length (joinedLines lines)).2.all isMarkupBlank
  | _ => false

/-- Make the open paragraph a heading. -/
def makeHeading (s : Structure) (level : Nat) : Structure :=
  match s.leaf with
  | .paragraph lines =>
    let lines := lines.reverse
    let (definitions, text) := takeDefinitions lines.length (joinedLines lines)
    let s := { s with leaf := .none, definitions := s.definitions ++ definitions }
    s.add (.heading level (Text.dropTrailing isMarkupBlank text))
  | _ => s

/-- Start blocks at a place in a line, no more than a number of them, and take the rest as text.
The line goes on with the outermost containers of a depth. -/
def openBlocks (tables : Bool) :
    Nat → Structure → Nat → ParagraphState → Cursor → Structure
  | 0, s, depth, paragraph, cursor => addText tables s depth paragraph cursor
  | most + 1, s, depth, paragraph, cursor =>
    match start? paragraph cursor with
    | none => addText tables s depth paragraph cursor
    | some (.underline level) =>
      if s.hasText then s.makeHeading level
      else if isRule cursor.body then (s.closeLeaf).add .thematicBreak
      else addText tables s depth paragraph cursor
    | some (.quote rest) =>
      let s := (s.closeTo depth).closeList
      let s := { s with frames := { container := .quote } :: s.frames }
      openBlocks tables most s s.frames.length .closed rest
    | some (.item style offset rest) =>
      let s := (s.closeTo depth).addItem style offset
      openBlocks tables most s s.frames.length .closed rest
    | some (.complete block) => ((s.closeTo depth).closeList).add block
    | some (.leaf leaf) => { (s.closeTo depth).closeList with leaf }

/-- Go on with a leaf whose lines are no text of their own. The answer is nothing if the line ends
the leaf without being a part of it. -/
def goOn (s : Structure) (cursor : Cursor) : Option Structure :=
  match s.leaf with
  | .fenced fence lines =>
    if cursor.indent ≤ 3 && fence.isClosedBy cursor.body then some s.closeLeaf
    else
      let line := (cursor.skipColumns (min fence.indent cursor.indent)).rest
      some { s with leaf := .fenced fence (line :: lines) }
  | .html (.mark marks) lines =>
    let s := { s with leaf := .html (.mark marks) (cursor.rest :: lines) }
    some (if holdsMark marks cursor.rest then s.closeLeaf else s)
  | .html .blankLine lines =>
    if cursor.isBlank then none
    else some { s with leaf := .html .blankLine (cursor.rest :: lines) }
  | .indented lines =>
    if 4 ≤ cursor.indent then
      some { s with leaf := .indented ((cursor.skipColumns 4).rest :: lines) }
    else if cursor.isBlank then some { s with leaf := .indented ([] :: lines) }
    else none
  | .table lines =>
    if !cursor.isBlank && (start? .closed cursor).isNone &&
        continuesTable (lines.getLastD []) cursor.body then
      some { s with leaf := .table (cursor.body :: lines) }
    else none
  | .none | .paragraph _ => none

/-- Take in one line. -/
def addLine (tables : Bool) (s : Structure) (line : List Char) : Structure :=
  let leafIsOpen := match s.leaf with
    | .none => false
    | _ => true
  let isParagraph := match s.leaf with
    | .paragraph _ => true
    | _ => false
  let (depth, cursor) := followAll leafIsOpen s.frames.reverse { rest := line }
  let most := line.length + 1
  if depth < s.frames.length then
    openBlocks tables most s depth (if isParagraph then .lazy else .closed) cursor
  else if isParagraph then openBlocks tables most s depth .reached cursor
  else
    match s.goOn cursor with
    | some s => s
    | none => openBlocks tables most s.closeLeaf depth .closed cursor

/-- The blocks and the definitions of a text. -/
def ofText (tables : Bool) (text : List Char) : List Block × List Definition :=
  let s := ((textLines text).foldl (addLine tables) {}).closeTo 0
  (s.blocks.reverse, s.definitions)

end Structure

end Manuscript.Markdown
