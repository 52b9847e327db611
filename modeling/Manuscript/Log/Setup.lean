import Manuscript.Log
import Manuscript.Text.Letter

/-! # Where log records go

Log records are written as lines to the console and, if one is named, to a log
file. A threshold says which records are written. Levels have names, and a
threshold may be given by name in any letter case.
-/

namespace Manuscript.Log

/-- The levels with a name; the first name of a level is the one it is written by. -/
def names : List (String × Level) := [
  ("CRITICAL", critical), ("FATAL", critical), ("ERROR", error), ("WARNING", warning),
  ("WARN", warning), ("INFO", info), ("DEBUG", debug), ("NOTSET", 0)]

/-- The written form of a level. -/
def levelName (level : Level) : String :=
  match names.find? (·.2 == level) with
  | some (name, _) => name
  | none => s!"Level {level}"

/-- The level of a name; a name of no level stands for reports. -/
def levelOf (name : String) : Level :=
  ((names.find? (·.1 == Text.capitalized name)).map (·.2)).getD info

/-- The form of log lines: a short one for users, or one that helps to trace what happened when. -/
inductive Form where
  | plain
  | traced
  deriving DecidableEq, Repr

/-- What is written of records, and how. -/
structure Setup where
  threshold : Level
  form : Form := .plain
  deriving DecidableEq, Repr

/-- Whether a record is written. Records at level zero and below never are. -/
def Setup.accepts (setup : Setup) (record : Record) : Bool :=
  0 < record.level && setup.threshold ≤ record.level

/-- The program's name at the start of lines. -/
def programName : String := "md2troff"

/-- The line of a record, given the time in the form of traces. -/
def Form.line (form : Form) (stamp : String) (record : Record) : String :=
  match form with
  | .plain => s!"{programName}: {levelName record.level}: {record.message}\n"
  | .traced => s!"[{stamp}] [{levelName record.level}] {record.message}\n"

/-- The report on a log file that has been opened. -/
def openedReport (path : String) : Record := ⟨debug, "Appending log records to " ++ path⟩

/-- The report on a log file that cannot be opened. -/
def unopenedReport (path cause : String) : Record :=
  ⟨warning, s!"Could not open log file {path}: {cause}"⟩

end Manuscript.Log
