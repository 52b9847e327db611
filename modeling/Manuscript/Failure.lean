import Manuscript.Render.Error
import Manuscript.Settings

/-! # Failures

Every error of a stage is a failure of the program. A failure has an origin,
which decides with which status the program ends: bad options and values, a
program that failed, a file that cannot be used, or anything else.
-/

namespace Manuscript

/-- The status with which the program ends. -/
inductive ExitStatus where
  | success
  | failed
  | usage
  | invalid
  | file
  | tool
  deriving DecidableEq, Repr

def ExitStatus.code : ExitStatus → Nat
  | success => 0
  | failed => 1
  | usage => 2
  | invalid => 3
  | file => 4
  | tool => 6

/-- The kinds of failure that the stages report. -/
inductive FailureKind where
  | general
  | validation
  | stageMismatch
  | parsing
  | rendering
  | unknownNode
  | frontMatter
  | tableLayout
  | tool
  deriving DecidableEq, Repr

/-- A kind and those that it is a special case of, up to the general kind. -/
def FailureKind.lineage : FailureKind → List FailureKind
  | general => [general]
  | validation => [validation, general]
  | stageMismatch => [stageMismatch, validation, general]
  | parsing => [parsing, general]
  | rendering => [rendering, general]
  | unknownNode => [unknownNode, rendering, general]
  | frontMatter => [frontMatter, rendering, general]
  | tableLayout => [tableLayout, rendering, general]
  | tool => [tool, general]

/-- Where a failure comes from. -/
inductive FailureOrigin where
  /-- A stage reported it. -/
  | reported (kind : FailureKind)
  /-- A value is out of range or of the wrong type. -/
  | badValue
  /-- The operating system refused a request. -/
  | system
  /-- Nobody foresaw it. -/
  | unforeseen
  deriving DecidableEq, Repr

/-- The status that a failure ends the program with. -/
def FailureOrigin.exitStatus : FailureOrigin → ExitStatus
  | reported kind =>
    if kind.lineage.contains .validation then .invalid
    else if kind.lineage.contains .tool then .tool
    else .failed
  | badValue => .invalid
  | system => .file
  | unforeseen => .failed

/-- Where an error on a scalar comes from. -/
def Yaml.ScalarError.origin : Yaml.ScalarError → FailureOrigin
  | .codePoint code => if code < Yaml.codeLimit then .badValue else .unforeseen
  | .numberPlaces | .noText | .truth _ | .timestamp | .endless => .unforeseen
  | .other isBadValue _ => if isBadValue then .badValue else .unforeseen
  | _ => .badValue

/-- Where an error of rendering comes from. -/
def RenderError.origin : RenderError → FailureOrigin
  | unknownKind .. => .reported .unknownNode
  | outsideTable _ | outsideList | nestedTable => .reported .rendering
  | layout _ => .reported .tableLayout
  | noPayload | frontMatter (.refused ..) => .reported .frontMatter
  | frontMatter (.scalar error) => error.origin
  | frontMatter (.overflow _) => .unforeseen
  | encoding _ => .badValue

/-- An error of any stage. -/
inductive Failure where
  | setting (error : SettingError)
  | mismatch (error : StageMismatch)
  | tree (error : Markdown.TreeError)
  | render (error : RenderError)
  | tool (error : Typeset.ToolError)
  | file (error : FileError)

namespace Failure

def message : Failure → String
  | setting error => error.message
  | mismatch error => error.message
  | tree error => error.message
  | render error => error.message
  | tool error => error.message
  | file error => error.message

/-- Where a failure comes from. -/
def origin : Failure → FailureOrigin
  | setting _ => .badValue
  | mismatch _ => .reported .stageMismatch
  | tree _ => .reported .parsing
  | render error => error.origin
  | tool _ => .reported .tool
  | file (.system _) => .system
  | file .zeroInPath => .badValue

end Failure

end Manuscript
