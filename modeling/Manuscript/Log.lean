/-! # Log records

Every part of the program reports what it does as records with a level. Where
the records go is decided by the one who collects them.
-/

namespace Manuscript.Log

/-- How much a record matters. -/
abbrev Level := Int

def debug : Level := 10
def info : Level := 20
def warning : Level := 30
def error : Level := 40
def critical : Level := 50

/-- A message of a level. -/
structure Record where
  level : Level
  message : String
  deriving DecidableEq, Repr

/-- The messages of a level among some records. -/
def messagesAt (level : Level) (records : List Record) : List String :=
  (records.filter (·.level == level)).map Record.message

end Manuscript.Log
