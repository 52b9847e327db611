import Manuscript.Value

/-! # Formatter requests

The formatter is told what to do by request lines: a point, the name of the
request and its arguments, each after one space. Arguments are written as they
are. Written output is a sequence of pieces, each of them a request line or
text, so that a request can be told from text that looks like one.

Arguments that come from metadata may have no encoding. A request with such an
argument is a draft only: it is never written, and neither is what follows it.
-/

namespace Manuscript.Troff

/-- A request to the formatter. -/
structure Request where
  name : String
  args : List String := []
  deriving DecidableEq, Repr

/-- The line of a request. -/
def Request.line (request : Request) : String :=
  " ".intercalate (("." ++ request.name) :: request.args) ++ "\n"

/-- A part of written output. -/
inductive Piece where
  | request (request : Request)
  | text (s : String)
  deriving DecidableEq, Repr

def Piece.toText : Piece → String
  | .request r => r.line
  | .text s => s

/-- The text of output. -/
def textOf (pieces : List Piece) : String := String.join (pieces.map Piece.toText)

/-! ## Drafts -/

/-- A request whose arguments need not have an encoding. -/
structure Draft where
  name : String
  args : List LooseText := []
  deriving DecidableEq, Repr

namespace Draft

/-- The line of a draft. -/
def line (draft : Draft) : LooseText :=
  ⟨("." ++ draft.name).toList.map .char ++
    draft.args.flatMap (fun arg => .char ' ' :: arg.points) ++ [.char '\n']⟩

/-- The request of a draft, unless its line has no encoding. -/
def request (draft : Draft) : Except EncodingError Request :=
  match draft.line.fault? with
  | some e => .error e
  | none => .ok { name := draft.name, args := draft.args.map LooseText.shown }

end Draft

/-- What is written of drafts in order: the requests of those before the first that has no
encoding, and why that one has none. -/
def requests : List Draft → List Piece × Option EncodingError
  | [] => ([], none)
  | draft :: rest =>
    match draft.request with
    | .error e => ([], some e)
    | .ok request =>
      let (following, fault?) := requests rest
      (.request request :: following, fault?)

/-- A value that no request takes as an argument. -/
structure ArgError where
  typeName : String
  deriving DecidableEq, Repr

def ArgError.message (e : ArgError) : String :=
  "ms macro arguments must be str or int, got " ++ e.typeName

/-- The text of the argument that a value is; truth values count as numbers. -/
def argOf : Value → Except ArgError LooseText
  | .text s => .ok s
  | .int n => .ok (toString n)
  | .bool b => .ok (if b then "1" else "0")
  | value => .error ⟨value.typeName⟩

/-! ## Names -/

namespace Request

def abstractStart : String := "AB"
def abstractEnd : String := "AE"
def institution : String := "AI"
def author : String := "AU"
def bold : String := "B"
def displayEnd : String := "DE"
def displayStart : String := "DS"
def tableEnd : String := "TE"
def tableStart : String := "TS"
def italic : String := "I"
def indentedParagraph : String := "IP"
def leftParagraph : String := "LP"
def date : String := "ND"
def paragraph : String := "PP"
def roman : String := "R"
def indentEnd : String := "RE"
def indentStart : String := "RS"
def signature : String := "SG"
def sectionHeading : String := "SH"
def title : String := "TL"
def tableHeading : String := "TH"
def underline : String := "UL"
def codeStart : String := "P1"
def codeEnd : String := "P2"
def html : String := "HTML"

/-- The argument that says that a table has a heading. -/
def withHeading : String := "H"

end Request

end Manuscript.Troff
