import Manuscript.Text.Blank

/-! # Paths

A path is a sequence of steps, of which empty ones and those that stay in
place mean nothing. Messages show paths without them. A settled path has also
lost every step up together with the step that it undoes.
-/

namespace Manuscript.CommandLine

/-- The steps of a path that mean something. -/
def pathSteps (path : String) : List String :=
  ((Text.splitBy (· == '/') path.toList).map String.ofList).filter fun step =>
    !step.isEmpty && step != "."

/-- The path of some steps. -/
def pathOf (isAbsolute : Bool) (steps : List String) : String :=
  let joined := "/".intercalate steps
  if isAbsolute then "/" ++ joined else if steps.isEmpty then "." else joined

/-- Whether the character zero stands in a path, so that the system cannot be asked for it. -/
def holdsZero (path : String) : Bool := path.toList.contains '\x00'

/-- Whether a path starts at the root. -/
def isAbsolutePath (path : String) : Bool := path.toList.head? == some '/'

/-- A path without the steps that mean nothing. -/
def tidyPath (path : String) : String := pathOf (isAbsolutePath path) (pathSteps path)

/-- Take a step, where a step up undoes the last step down; the steps are the last first. -/
def settleStep (taken : List String) (step : String) : List String :=
  match step, taken with
  | "..", last :: before => if last == ".." then step :: taken else before
  | _, _ => step :: taken

/-- A path in which steps up stand at the front only. -/
def settledPath (path : String) : String :=
  pathOf (isAbsolutePath path) ((pathSteps path).foldl settleStep []).reverse

end Manuscript.CommandLine
