import Manuscript.CommandLine.Help
import Manuscript.CommandLine.Logger

/-! # Running a command

A command reads its document, converts it, has it typeset if that is asked
for, and writes the result, which is the last thing that it does. It stops at
the first failure; the status tells which part failed.
-/

namespace Manuscript.CommandLine

/-- How a command ended: its status, the runs of programs that it had made, and, if it ended with a
failure that nobody foresaw, that failure. -/
structure Ending where
  status : ExitStatus
  calls : List Typeset.Command := []
  unforeseen : Option Failure := none

/-- The end with a failure that nobody foresaw. -/
def Ending.ofUnforeseen (failure : Failure) (calls : List Typeset.Command := []) : Ending :=
  { status := .failed, calls, unforeseen := some failure }

variable {m : Type → Type} [Monad m]

/-- The word that stands for the input in place of a file. -/
def inputWord : String := "-"

/-- Read the document. -/
def readDocument (host : Host m) (arguments : Arguments) : m (Except FileError ByteArray) := do
  if arguments.input == inputWord then return .ok (← host.readInput)
  else host.readFile (tidyPath arguments.input)

/-- The options of typesetting. The formatter that the arguments name goes before the one that the
surroundings name. -/
def typesetOptions (arguments : Arguments) (surroundings : Option String) :
    Except SettingError Typeset.Options := do
  let named := if arguments.formatter.isEmpty then surroundings.getD "" else arguments.formatter
  let timeout := ("timeout", Settings.timeoutValue (arguments.timeout.map .real))
  let changes := if named.isEmpty then [] else [("troff_binary", Value.text named)]
  match ← Stage.typesetting.settings (timeout :: changes) with
  | .typesetting options => return options
  | _ => return {}

/-- The options of reading. -/
def Arguments.reading (arguments : Arguments) : Markdown.Options :=
  { titleBlock := arguments.titleBlock }

/-- The options of rendering. -/
def Arguments.rendering (arguments : Arguments) : Render.Options :=
  { sniffFrontMatter := arguments.sniffFrontMatter }

/-- What is logged. Tracing logs everything. -/
def Arguments.logging (arguments : Arguments) : Log.Setup :=
  if arguments.trace then { threshold := Log.debug, form := .traced }
  else { threshold := Log.levelOf arguments.logLevel }

/-- What came of a document before it is written. -/
structure Product where
  content : Except Failure ByteArray
  log : List Log.Record
  calls : List Typeset.Command := []

/-- Convert a document, and have it typeset if that is asked for. -/
def produce (readers : Readers) (tools : Typeset.Tools) (arguments : Arguments)
    (options : Typeset.Options) (document : ByteArray) : Product :=
  let conversion := convert readers arguments.reading arguments.rendering (.bytes document)
  match conversion.result with
  | .error failure => { content := .error failure, log := conversion.log }
  | .ok text =>
    if arguments.typeset then
      let (result, progress) := (Typeset.typeset tools options text.toUTF8).run.run {}
      { content := result.mapError .tool
        log := conversion.log ++ progress.log.toList
        calls := progress.calls.toList }
    else { content := .ok text.toUTF8, log := conversion.log }

/-- Write the result. -/
def writeResult (host : Host m) (logger : Logger) (output : String) (content : ByteArray) :
    m (Except FileError Unit) := do
  if output.isEmpty then
    host.writeOutput content
    return .ok ()
  else
    match ← host.writeFile (tidyPath output) content with
    | .ok () =>
      logger.log host ⟨Log.info, s!"Wrote {content.size} bytes to {output}"⟩
      return .ok ()
    | .error error => return .error error

/-- End with a failure. -/
def fail (host : Host m) (logger : Logger) (calls : List Typeset.Command) (failure : Failure) :
    m Ending := do
  if failure.origin = .unforeseen then return .ofUnforeseen failure calls
  else
    logger.log host ⟨Log.debug, "Conversion failed"⟩
    host.writeDiagnostics ("Error: " ++ failure.message ++ "\n")
    return { status := failure.origin.exitStatus, calls }

/-- Log what came of a document, and write the result if there is one. -/
def finish (host : Host m) (logger : Logger) (arguments : Arguments) (product : Product) :
    m Ending := do
  logger.logAll host product.log
  match product.content with
  | .error failure => fail host logger product.calls failure
  | .ok content =>
    match ← writeResult host logger arguments.output content with
    | .ok () => return { status := .success, calls := product.calls }
    | .error error => fail host logger product.calls (.file error)

/-- Do what arguments ask for. -/
def perform (host : Host m) (arguments : Arguments) : m Ending := do
  match ← Logger.start arguments.logging host arguments.logFile with
  | .error error => return .ofUnforeseen (.file error)
  | .ok logger =>
    match ← readDocument host arguments with
    | .error (.system error) =>
      host.writeDiagnostics s!"Error: cannot read {arguments.input}: {error.message}\n"
      return { status := .file }
    | .error .zeroInPath => return .ofUnforeseen (.file .zeroInPath)
    | .ok document =>
      match typesetOptions arguments host.formatter with
      | .error error => fail host logger [] (.setting error)
      | .ok options =>
        finish host logger arguments (produce host.readers host.tools arguments options document)

/-- Run a command line. -/
def run (host : Host m) (words : List String) : m Ending := do
  match Arguments.ofList words with
  | .ok arguments => perform host arguments
  | .error .help =>
    host.writeOutput helpText.toUTF8
    return { status := .success }
  | .error .version =>
    host.writeOutput versionText.toUTF8
    return { status := .success }
  | .error (.misused message) =>
    host.writeDiagnostics (misuseText message)
    return { status := .usage }

end Manuscript.CommandLine
