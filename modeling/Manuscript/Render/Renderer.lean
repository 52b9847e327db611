import Manuscript.Render.Visit

/-! # Renderers

A renderer has options and remembers what its last operation left behind. It
renders whole documents, each from a fresh start, and also single visits, the
header and the footer, which go on from what it remembers.
-/

namespace Manuscript

/-- A renderer. -/
structure Renderer where
  options : Render.Options := {}
  state : Render.State := {}

/-- What an operation of a renderer did: its result, what it wrote, what it reported, and the
renderer after it. -/
structure Rendering (α : Type) where
  result : Except RenderError α
  written : List Troff.Piece
  log : List Log.Record
  renderer : Renderer

namespace Renderer

/-- Perform an operation from a state. -/
def perform {α : Type} (renderer : Renderer) (state : Render.State) (action : Render.Writer α) :
    Rendering α :=
  let (result, run) := action.run.run { state }
  { result
    written := run.written.toList
    log := run.log.toList
    renderer := { renderer with state := run.state } }

/-- Write the preamble, if there is one. -/
def header (options : Render.Options) : Render.Writer Unit :=
  if options.preamble.isEmpty then pure () else Render.write [.text options.preamble]

/-- Write the request that ends a document. -/
def footer : Render.Writer Unit := Render.write [Troff.signature]

/-- End a document and report its size. -/
def ending : Render.Writer Unit := do
  footer
  let size := (Troff.textOf (← get).written.toList).utf8ByteSize
  Render.report Log.debug s!"Rendered {size} bytes of ms macros"

/-- Write a whole document: the preamble, the tree, and the end. -/
def document (load : Render.Loader) (options : Render.Options) (root : Node) :
    Render.Writer Unit := do
  header options
  discard (walk (Render.visitWith load options) root)
  ending

/-- Render a whole document from a fresh start, given how front matter is loaded. -/
def renderWith (load : Render.Loader) (renderer : Renderer) (root : Node) : Rendering Unit :=
  renderer.perform {} (document load renderer.options root)

/-- Render one visit of a node, given how front matter is loaded. -/
def renderVisitWith (load : Render.Loader) (renderer : Renderer) (node : Node) (phase : Phase) :
    Rendering Step :=
  renderer.perform renderer.state (Render.visitWith load renderer.options node phase)

/-- Render a whole document from a fresh start. -/
def render (renderer : Renderer) (root : Node) : Rendering Unit :=
  renderer.renderWith FrontMatter.load root

/-- Render one visit of a node. -/
def renderVisit (renderer : Renderer) (node : Node) (phase : Phase) : Rendering Step :=
  renderer.renderVisitWith FrontMatter.load node phase

/-- Write the footer alone. -/
def renderFooter (renderer : Renderer) : Rendering Unit :=
  renderer.perform renderer.state footer

end Renderer

/-- The text that a document renders to. -/
def Node.toTroff (root : Node) (options : Render.Options := {}) : Except RenderError String :=
  let rendering := Renderer.render { options } root
  rendering.result.map fun _ => Troff.textOf rendering.written

end Manuscript
