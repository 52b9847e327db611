import Manuscript.CommandLine.Host
import Manuscript.CommandLine.Path

/-! # Logging of a command

Records go to the diagnostics and, once it has been opened, to a log file. A
log file that the system does not open is reported and done without.
-/

namespace Manuscript.CommandLine

/-- What is logged, and the log file if there is one. -/
structure Logger where
  setup : Log.Setup
  file : Option String := none
  deriving DecidableEq, Repr

namespace Logger

variable {m : Type → Type} [Monad m]

/-- Log a record. -/
def log (logger : Logger) (host : Host m) (record : Log.Record) : m Unit := do
  if logger.setup.accepts record then
    let line := logger.setup.form.line (← host.stamp) record
    host.writeDiagnostics line
    match logger.file with
    | some file => host.appendLog file line
    | none => pure ()

/-- Log records in order. -/
def logAll (logger : Logger) (host : Host m) (records : List Log.Record) : m Unit :=
  records.forM (logger.log host)

/-- Start to log, also to a file if a name is given for it. -/
def start (setup : Log.Setup) (host : Host m) (file : String) : m (Except FileError Logger) := do
  let logger : Logger := { setup }
  if file.isEmpty then return .ok logger
  else
    let path := settledPath file
    match ← host.openLog path with
    | .ok () =>
      let logger := { logger with file := some path }
      logger.log host (Log.openedReport file)
      return .ok logger
    | .error (.system error) =>
      logger.log host (Log.unopenedReport file error.message)
      return .ok logger
    | .error .zeroInPath => return .error .zeroInPath

end Logger

end Manuscript.CommandLine
