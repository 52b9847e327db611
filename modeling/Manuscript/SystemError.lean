import Manuscript.Text.Quoted

/-! # Errors of the operating system

A request to the operating system that fails gives the number and the text of
its error, and the path that it was about if it was about one. A path in which
the character zero stands is not even asked for.
-/

namespace Manuscript

/-- An error of the operating system. -/
structure SystemError where
  number : Int
  text : String
  path : Option String := none
  deriving DecidableEq, Repr

def SystemError.message (e : SystemError) : String :=
  s!"[Errno {e.number}] {e.text}" ++ (e.path.map fun path => ": " ++ Text.quoted path).getD ""

/-- Why a file cannot be used. -/
inductive FileError where
  | system (error : SystemError)
  /-- The character zero stands in the path. -/
  | zeroInPath
  deriving DecidableEq, Repr

def FileError.message : FileError → String
  | .system error => error.message
  | .zeroInPath => "embedded null byte"

end Manuscript
