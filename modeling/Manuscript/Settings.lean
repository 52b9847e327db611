import Manuscript.Markdown.Reading
import Manuscript.Render.Visit
import Manuscript.Typeset.Passes

/-! # Settings

Each stage of the program has options of its own. Here the options of all
stages are seen as settings: named fields with values, which can be listed,
explained and replaced. Replacing is all or nothing, and gives only options
that a stage can work with.
-/

namespace Manuscript

/-- The stages that have options. -/
inductive Stage where
  | reading
  | rendering
  | typesetting
  deriving DecidableEq, Repr

/-- The options of a stage. -/
inductive Settings where
  | reading (options : Markdown.Options)
  | rendering (options : Render.Options)
  | typesetting (options : Typeset.Options)

namespace Stage

/-- The name of the options of a stage in messages. -/
def optionsName : Stage → String
  | reading => "MarkdownParserOptions"
  | rendering => "MsRendererOptions"
  | typesetting => "TypesetOptions"

/-- The options of a stage when nothing is chosen. -/
def defaults : Stage → Settings
  | reading => .reading {}
  | rendering => .rendering {}
  | typesetting => .typesetting {}

/-- The names of the options of a stage, each with its explanation. -/
def explanations : Stage → List (String × String)
  | reading => [
    ("parse_title_block", "Parse leading '%' lines as YAML front matter"),
    ("parse_tables", "Parse pipe tables"),
    ("parse_strikethrough", "Parse ~~strikethrough~~ spans as plain text")]
  | rendering => [
    ("preamble", "Text written before the rendered document"),
    ("sniff_front_matter",
      "Detect front matter by its 'title:' prefix when the parser does not flag it " ++
        "(heuristic, best effort)")]
  | typesetting => [
    ("troff_binary", "troff executable"),
    ("troff_args", "Arguments passed to troff"),
    ("tr2post_binary", "tr2post executable"),
    ("tr2post_args", "Arguments passed to tr2post"),
    ("ps2pdf_binary", "ps2pdf executable"),
    ("ps2pdf_args", "Arguments passed to ps2pdf"),
    ("timeout", "Seconds each pass may run")]

end Stage

/-- Why settings are not accepted. -/
inductive SettingError where
  /-- A stage has no option of that name. -/
  | unexpected (stage : Stage) (name : String)
  /-- The value of an option is of another type than the option. -/
  | wrongType (name : String) (demand : String) (typeName : String)
  /-- The timeout cannot be compared with a number. -/
  | incomparableTimeout (typeName : String)
  /-- No time is left. -/
  | spentTimeout (timeout : Typeset.Seconds)

def SettingError.message : SettingError → String
  | .unexpected stage name =>
    s!"{stage.optionsName}.__init__() got an unexpected keyword argument '{name}'"
  | .wrongType name demand typeName => s!"{name} must be {demand}, got {typeName}"
  | .incomparableTimeout typeName =>
    s!"'<=' not supported between instances of '{typeName}' and 'int'"
  | .spentTimeout timeout => "timeout must be positive, got " ++ timeout.text

/-- An option that is looked up but that its stage does not have. -/
structure NoSuchOption where
  stage : Stage
  name : String
  deriving DecidableEq, Repr

def NoSuchOption.message (e : NoSuchOption) : String :=
  e.stage.optionsName ++ " has no option " ++ Text.quoted e.name

/-- The explanation of an option. -/
def Stage.explain (stage : Stage) (name : String) : Except NoSuchOption String :=
  match stage.explanations.find? (·.1 == name) with
  | some (_, explanation) => .ok explanation
  | none => .error ⟨stage, name⟩

/-- Options were given to a stage that they are not for. -/
structure StageMismatch where
  receiver : String
  expected : Stage
  received : Stage
  deriving DecidableEq, Repr

def StageMismatch.message (e : StageMismatch) : String :=
  s!"{e.receiver} expected options of type '{e.expected.optionsName}' " ++
    s!"but received '{e.received.optionsName}'."

/-! ## Fields -/

namespace Settings

/-- The stage of settings. -/
def stage : Settings → Stage
  | reading _ => .reading
  | rendering _ => .rendering
  | typesetting _ => .typesetting

/-- Arguments of a program as a value. -/
def argsValue (args : List String) : Value := .list (args.map fun (arg : String) => .text arg)

/-- A timeout as a value. -/
def timeoutValue : Option Typeset.Seconds → Value
  | none => .null
  | some (.whole n) => .int n
  | some (.real x) => .real x

/-- The fields of settings with their values. -/
def fields : Settings → List (String × Value)
  | reading o => [
    ("parse_title_block", .bool o.titleBlock), ("parse_tables", .bool o.tables),
    ("parse_strikethrough", .bool o.strikethrough)]
  | rendering o => [
    ("preamble", .text o.preamble), ("sniff_front_matter", .bool o.sniffFrontMatter)]
  | typesetting o => [
    ("troff_binary", .text o.formatter.binary), ("troff_args", argsValue o.formatter.args),
    ("tr2post_binary", .text o.converter.binary), ("tr2post_args", argsValue o.converter.args),
    ("ps2pdf_binary", .text o.finisher.binary), ("ps2pdf_args", argsValue o.finisher.args),
    ("timeout", timeoutValue o.timeout)]

/-- A text given for an option. Options hold characters only, so that a half of a surrogate pair
counts as the character it is shown as. -/
def textOf (name : String) : Value → Except SettingError String
  | .text s => .ok s.shown
  | value => .error (.wrongType name "a string" value.typeName)

/-- Arguments given for an option. -/
def argsOf (name : String) : Value → Except SettingError (List String)
  | .list items => items.mapM (textOf name)
  | value => .error (.wrongType name "a list" value.typeName)

/-- A timeout given for an option. -/
def timeoutOf : Value → Except SettingError (Option Typeset.Seconds)
  | .null => .ok none
  | .int n => .ok (some (.whole n))
  | .real x => .ok (some (.real x))
  | value => .error (.incomparableTimeout value.typeName)

/-- Replace one field of settings. -/
def assign (settings : Settings) (name : String) (value : Value) : Except SettingError Settings :=
  match settings, name with
  | reading o, "parse_title_block" => .ok (reading { o with titleBlock := value.holds })
  | reading o, "parse_tables" => .ok (reading { o with tables := value.holds })
  | reading o, "parse_strikethrough" => .ok (reading { o with strikethrough := value.holds })
  | rendering o, "preamble" => do return rendering { o with preamble := ← textOf name value }
  | rendering o, "sniff_front_matter" => .ok (rendering { o with sniffFrontMatter := value.holds })
  | typesetting o, "troff_binary" => do
    return typesetting { o with formatter.binary := ← textOf name value }
  | typesetting o, "troff_args" => do
    return typesetting { o with formatter.args := ← argsOf name value }
  | typesetting o, "tr2post_binary" => do
    return typesetting { o with converter.binary := ← textOf name value }
  | typesetting o, "tr2post_args" => do
    return typesetting { o with converter.args := ← argsOf name value }
  | typesetting o, "ps2pdf_binary" => do
    return typesetting { o with finisher.binary := ← textOf name value }
  | typesetting o, "ps2pdf_args" => do
    return typesetting { o with finisher.args := ← argsOf name value }
  | typesetting o, "timeout" => do return typesetting { o with timeout := ← timeoutOf value }
  | _, _ => .error (.unexpected settings.stage name)

/-- Refuse settings that their stage cannot work with. -/
def check (settings : Settings) : Except SettingError Settings :=
  match settings with
  | typesetting { timeout := some timeout, .. } =>
    if timeout.isSpent then .error (.spentTimeout timeout) else .ok settings
  | _ => .ok settings

/-- Replace fields of settings by new values. A name that is no option is reported before anything
that is wrong with a value. -/
def update (settings : Settings) (changes : List (String × Value)) :
    Except SettingError Settings := do
  let known := settings.stage.explanations.map (·.1)
  match changes.find? fun change => !known.contains change.1 with
  | some (name, _) => throw (.unexpected settings.stage name)
  | none => (← changes.foldlM (fun now (name, value) => now.assign name value) settings).check

end Settings

/-- The settings of a stage with some values chosen. -/
def Stage.settings (stage : Stage) (choices : List (String × Value)) :
    Except SettingError Settings :=
  stage.defaults.update choices

end Manuscript
