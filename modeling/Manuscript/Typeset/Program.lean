import Manuscript.Decimal.Notation
import Manuscript.SystemError
import Manuscript.Text.Encoding

/-! # External programs

Typesetting is done by external programs, each of which turns bytes into
bytes. What a program does in a run is not known here: `Tools` gives the
outcome of a run from its position among all runs and its command.
-/

namespace Manuscript.Typeset

/-- A time in seconds. -/
inductive Seconds where
  | whole (n : Int)
  | real (x : Float)
  deriving BEq, Repr

namespace Seconds

/-- The written form of a time. -/
def text : Seconds → String
  | whole n => toString n
  | real x => Decimal.write x

/-- Whether a time is zero or less. The undefined number is not. -/
def isSpent : Seconds → Bool
  | whole n => n ≤ 0
  | real x => x ≤ 0

end Seconds

/-- A program: its executable file and its fixed arguments. -/
structure Program where
  binary : String
  args : List String := []
  deriving DecidableEq, Repr

/-- A run to be made. -/
structure Command where
  program : Program
  input : ByteArray
  timeout : Option Seconds

/-- How a run went. -/
inductive Outcome where
  | finished (status : Int) (output diagnostics : ByteArray)
  | notStarted (error : SystemError)
  | timedOut

/-- What programs do, given how many runs were made before. -/
abbrev Tools := Nat → Command → Outcome

/-- A run that gave no output, and its exit status if it ended by itself. -/
structure ToolError where
  program : Program
  status : Option Int
  diagnostics : String := ""
  deriving DecidableEq, Repr

def ToolError.message (e : ToolError) : String :=
  e.program.binary ++ ": " ++
    (match e.status with
      | some status => s!"exited with status {status}"
      | none => "could not be run") ++
    "\nargs= " ++ Text.bracketed (e.program.args.map Text.quoted) ++
    if e.diagnostics.isEmpty then "" else "\n" ++ e.diagnostics

/-- The output of a run, which it gives only if it ends with status zero. -/
def Outcome.output (command : Command) : Outcome → Except ToolError ByteArray
  | .finished status output diagnostics =>
    if status = 0 then .ok output
    else .error {
      program := command.program
      status := some status
      diagnostics := Text.trim (Text.ofUtf8Lossy diagnostics) }
  | .notStarted error =>
    .error { program := command.program, status := none, diagnostics := error.message }
  | .timedOut =>
    let limit := (command.timeout.map Seconds.text).getD "None"
    .error {
      program := command.program
      status := none
      diagnostics := s!"timed out after {limit} seconds" }

end Manuscript.Typeset
