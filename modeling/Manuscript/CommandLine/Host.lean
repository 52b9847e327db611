import Manuscript.Conversion
import Manuscript.Log.Setup

/-! # The outside of a command

A command reads and writes files, reads an input, writes an output and
diagnostics, and has documents read and external programs run by others. A host
is what does this for it, in a monad of its own, so that a command runs in the
world as it does on files that are a value.
-/

namespace Manuscript.CommandLine

/-- What does the work outside of a command. -/
structure Host (m : Type → Type) where
  readFile : String → m (Except FileError ByteArray)
  writeFile : String → ByteArray → m (Except FileError Unit)
  /-- Open a file that lines are appended to; it is made if it is not there. -/
  openLog : String → m (Except FileError Unit)
  /-- Append a line to a file that was opened. -/
  appendLog : String → String → m Unit
  readInput : m ByteArray
  writeOutput : ByteArray → m Unit
  writeDiagnostics : String → m Unit
  /-- The present time, as traces show it. -/
  stamp : m String
  /-- The formatter that the surroundings name. -/
  formatter : Option String
  tools : Typeset.Tools
  readers : Readers := {}

end Manuscript.CommandLine
