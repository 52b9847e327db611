import Manuscript.FrontMatter.TitleBlock
import Manuscript.Yaml.Load

/-! # Loading a title block

The payload of the front matter is a metadata text whose value has to be a
mapping with the fields of a title block. A payload that is malformed, is no
mapping or has a field of the wrong shape is refused as front matter. Two
faults are not: a scalar that cannot be read although the text is well formed,
such as a day that no month has or the number of no code point, and a date with
numbers beyond all calendars. How metadata texts are read is left open first.
-/

namespace Manuscript.FrontMatter

/-- Why a payload is refused as front matter. -/
inductive Refusal where
  | malformed
  | notMapping (typeName : String)
  | field (fault : FieldFault)
  deriving DecidableEq, Repr

def Refusal.message : Refusal → String
  | .malformed => "Front matter is not valid YAML"
  | .notMapping typeName => "Front matter must be a mapping, got " ++ typeName
  | .field fault => "Invalid front matter: " ++ fault.message

/-- Why a payload gives no title block. -/
inductive LoadError where
  | refused (payload : String) (refusal : Refusal)
  | scalar (error : Yaml.ScalarError)
  | overflow (cause : Calendar.Overflow)
  deriving DecidableEq, Repr

def LoadError.message : LoadError → String
  | .refused _ refusal => refusal.message
  | .scalar error => error.message
  | .overflow cause => cause.message

/-- How metadata texts are read. -/
abbrev Reader := String → Except Yaml.LoadError Value

/-- The title block that a payload holds, given how metadata texts are read. -/
def loadWith (read : Reader) (payload : String) : Except LoadError TitleBlock :=
  match read payload with
  | .error .malformed => .error (.refused payload .malformed)
  | .error (.scalar error) => .error (.scalar error)
  | .ok (.mapping entries) =>
    match TitleBlock.ofEntries entries with
    | .ok block => .ok block
    | .error (.date (.overflow cause)) => .error (.overflow cause)
    | .error fault => .error (.refused payload (.field fault))
  | .ok value => .error (.refused payload (.notMapping value.typeName))

/-- The title block that a payload holds. -/
def load : String → Except LoadError TitleBlock := loadWith Yaml.load

end Manuscript.FrontMatter
