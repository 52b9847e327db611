import Manuscript.Document.Walk
import Manuscript.FrontMatter.Loading
import Manuscript.Table.Layout

/-! # Why rendering fails

A tree cannot be rendered if it has a node of a kind without a rendering, a
row, cell or item outside of its collection, a table inside a table or without
a row, or front matter that gives no title block or one without an encoding.
-/

namespace Manuscript

/-- Why rendering fails. -/
inductive RenderError where
  | unknownKind (kind : Kind) (phase : Phase)
  | outsideTable (kind : Kind)
  | outsideList
  | nestedTable
  | layout (error : Table.LayoutError)
  /-- A heading of front matter held no text. -/
  | noPayload
  | frontMatter (error : FrontMatter.LoadError)
  /-- A text of the title block has no encoding. -/
  | encoding (error : EncodingError)
  deriving DecidableEq, Repr

namespace RenderError

/-- The name of a phase in messages. -/
def phaseName : Phase → String
  | .enter => "enter"
  | .leave => "exit"

/-- The message on a kind that has no rendering, and on the phase of the visit if it is known. -/
def unknownKindMessage (quotedKind : String) (phase : Option Phase) : String :=
  "Cannot render node of unknown kind " ++ quotedKind ++
    match phase with
    | some phase => " (" ++ phaseName phase ++ ")"
    | none => ""

def message : RenderError → String
  | unknownKind kind phase => unknownKindMessage (Text.quoted kind.name) (some phase)
  | outsideTable kind => kind.name ++ " outside of a table"
  | outsideList => "List item outside of a list"
  | nestedTable => "Tables cannot be nested"
  | layout error => error.message
  | noPayload => "Front matter heading carries no metadata payload"
  | frontMatter error => error.message
  | encoding error => error.message

/-- The part of rendering in which an error arises. -/
inductive Stage where
  | dispatch
  | list
  | table
  | frontMatter
  deriving DecidableEq, Repr

def Stage.name : Stage → String
  | .dispatch => "dispatch"
  | .list => "list"
  | .table => "table"
  | .frontMatter => "front_matter"

/-- The part of rendering that reports an error. A front matter scalar without a value, a date
beyond all calendars and a text without an encoding are reported by no part. -/
def stage? : RenderError → Option Stage
  | unknownKind .. => some .dispatch
  | outsideList => some .list
  | outsideTable _ | nestedTable | layout _ => some .table
  | noPayload | frontMatter (.refused ..) => some .frontMatter
  | frontMatter _ | encoding _ => none

end RenderError

end Manuscript
