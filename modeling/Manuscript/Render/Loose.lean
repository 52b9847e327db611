import Manuscript.Render.Renderer

/-! # Rendering texts without an encoding

The texts of trees and options are made of characters, so that all of them have an
encoding. Trees can also be built with texts in which halves of surrogate pairs stand
alone. Rendering treats a half like any other character until the text is encoded to
be written, and fails there. `Faults` tells which texts fail, and `visitLoose` is a
visit that encodes each text of its node just before it would be written.
-/

namespace Manuscript.Render

open Troff (Piece)

/-- Which texts have no encoding, and why. A text with halves of surrogate pairs is given as one in
which characters that it does not use stand for the halves. -/
def Faults := String → Option EncodingError

/-- Every text has an encoding. -/
def Faults.absent : Faults := fun _ => none

/-- Fail at a text that has no encoding. -/
def encode (faults : Faults) (s : String) : Writer Unit := do
  match faults s with
  | none => return ()
  | some e => throw (.encoding e)

/-- How a literal is written: what comes before it, the piece that it is encoded with, and what
comes after it. -/
structure Enclosed where
  before : List Piece := []
  literal : Piece
  after : List Piece := []

/-- The literal that a visit writes whatever is remembered. Paragraphs are never at a negative
level. -/
def enclosedLiteral? (node : Node) (phase : Phase) : Option Enclosed :=
  match node.kind, phase with
  | .paragraph, .enter | .blockQuote, .enter =>
    some { before := [Troff.lineBreak], literal := .text node.literal }
  | .htmlBlock, _ => some { literal := Troff.html node.literal }
  | .codeSpan, _ =>
    some {
      before := [Troff.lineBreak]
      literal := Troff.bold (some node.literal)
      after := [Troff.roman] }
  | .codeBlock, _ =>
    some {
      before := [Troff.bare Troff.Request.codeStart]
      literal := .text (Text.dropSpaces node.literal)
      after := [Troff.bare Troff.Request.codeEnd] }
  | _, _ => none

/-- Write a literal with what surrounds it. -/
def writeEnclosed (faults : Faults) (enclosed : Enclosed) : Writer Unit := do
  write enclosed.before
  encode faults enclosed.literal.toText
  write (enclosed.literal :: enclosed.after)

/-- A text: the payload of front matter, or text that is encoded. -/
def textLoose (faults : Faults) (load : Loader) (node : Node) : Writer Unit := do
  if !(← current).consumingFrontMatter && !node.literal.isEmpty then
    encode faults (Text.dropSpaces node.literal)
  text load node

/-- Start an item. It is counted before its label is encoded. -/
def enterItemLoose (faults : Faults) (node : Node) : Writer Unit := do
  let start := itemStart node (← countItem)
  encode faults start.toText
  write [start]

/-- One visit of a node whose texts need not have an encoding. -/
def visitLoose (faults : Faults) (load : Loader) (options : Options) :
    Visitor RenderError Run := fun node phase => do
  match enclosedLiteral? node phase, node.kind, phase with
  | some enclosed, _, _ => writeEnclosed faults enclosed
  | none, .text, _ => textLoose faults load node
  | none, .listItem, .enter => enterItemLoose faults node
  | none, _, _ => return ← visitWith load options node phase
  return .next

end Manuscript.Render

namespace Manuscript.Renderer

open Render

/-- Write a preamble that need not have an encoding. -/
def headerLoose (faults : Faults) (options : Options) : Writer Unit := do
  if !options.preamble.isEmpty then encode faults options.preamble
  header options

/-- Render a whole document from a fresh start, also if it has texts without an encoding. -/
def renderLoose (faults : Faults) (load : Loader) (renderer : Renderer) (root : Node) :
    Rendering Unit :=
  renderer.perform {} do
    headerLoose faults renderer.options
    discard (walk (visitLoose faults load renderer.options) root)
    ending

/-- Render one visit of a node, also if its texts have no encoding. -/
def renderVisitLoose (faults : Faults) (load : Loader) (renderer : Renderer) (node : Node)
    (phase : Phase) : Rendering Step :=
  renderer.perform renderer.state (visitLoose faults load renderer.options node phase)

/-- Write the header alone, also if it has no encoding. -/
def renderHeaderLoose (faults : Faults) (renderer : Renderer) : Rendering Unit :=
  renderer.perform renderer.state (headerLoose faults renderer.options)

end Manuscript.Renderer
