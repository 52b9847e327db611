import Manuscript.CommandLine.Path
import Manuscript.CommandLine.Run

/-! # The command

The host here is the surrounding system. It runs no programs of its own, so
typesetting ends with the report that its first program could not be run.
-/

namespace Manuscript.CommandLine

/-- An error of the surrounding system on a path. -/
def systemError (path : String) : IO.Error → SystemError
  | .noFileOrDirectory _ _ _ => ⟨2, "No such file or directory", some path⟩
  | .permissionDenied _ _ _ => ⟨13, "Permission denied", some path⟩
  | .inappropriateType _ code _ =>
    if code = 20 then ⟨20, "Not a directory", some path⟩ else ⟨21, "Is a directory", some path⟩
  | error => ⟨5, toString error, some path⟩

/-- Try something that is done to a path. -/
def attempt {α : Type} (path : String) (action : IO α) : IO (Except FileError α) := do
  if holdsZero path then return .error .zeroInPath
  try return .ok (← action)
  catch error => return .error (.system (systemError path error))

/-- Read a stream to its end. -/
partial def readToEnd (stream : IO.FS.Stream) (done : ByteArray) : IO ByteArray := do
  let chunk ← stream.read 65536
  if chunk.isEmpty then return done else readToEnd stream (done ++ chunk)

/-- Append to a file. -/
def appendTo (path : String) (text : String) : IO Unit := do
  let file ← IO.FS.Handle.mk path .append
  file.putStr text

/-- The surrounding system as a host. -/
def systemHost (formatter : Option String) : Host IO where
  readFile path := attempt path (IO.FS.readBinFile path)
  writeFile path content := attempt path (IO.FS.writeBinFile path content)
  openLog path := attempt path (appendTo path "")
  appendLog path line := appendTo path line
  readInput := do readToEnd (← IO.getStdin) .empty
  writeOutput content := do
    let output ← IO.getStdout
    output.write content
    output.flush
  writeDiagnostics text := do (← IO.getStderr).putStr text
  stamp := return toString (← IO.monoMsNow)
  formatter
  tools _ command :=
    .notStarted ⟨38, "Function not implemented", some command.program.binary⟩

end Manuscript.CommandLine

/-- Run the command line of the process. -/
def main (words : List String) : IO UInt32 := do
  let formatter ← IO.getEnv Manuscript.CommandLine.formatterVariable
  let host := Manuscript.CommandLine.systemHost formatter
  let ending ← Manuscript.CommandLine.run host words
  match ending.unforeseen with
  | some failure => (← IO.getStderr).putStr (failure.message ++ "\n")
  | none => pure ()
  return ending.status.code.toUInt32
