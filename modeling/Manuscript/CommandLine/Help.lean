import Manuscript.CommandLine.Arguments

/-! # Help

The help text is laid out for a screen of eighty columns, of which it uses
seventy-eight: the usage as far as possible on one line, and the explanations
side by side with what they explain.
-/

namespace Manuscript.CommandLine

/-- The explanation of an option of a stage. -/
def explained (stage : Stage) (name : String) : String :=
  match stage.explain name with
  | .ok text => text
  | .error _ => ""

/-- The explanation of an option. -/
def Choice.explanation : Choice → String
  | help => "show this help message and exit"
  | output => "Write the result to OUTPUT instead of stdout"
  | typeset => "Typeset the macros with troff, tr2post and ps2pdf and write PDF"
  | sniffFrontMatter => explained .rendering "sniff_front_matter"
  | noTitleBlock =>
    "Do not " ++
      String.ofList (Text.lowered (explained .reading "parse_title_block").toList)
  | formatter => explained .typesetting "troff_binary"
  | timeout => explained .typesetting "timeout"
  | logLevel => "Set logging level (default: WARNING)"
  | logFile => "Also write log messages to PATH"
  | trace => "Enable trace logging with timestamps"
  | version => "show program's version number and exit"

/-- The columns in use. -/
def screenWidth : Nat := 78

/-- The column at which explanations start. -/
def explanationColumn : Nat := 24

/-- Blanks of a number. -/
def blanks (count : Nat) : String := String.ofList (List.replicate count ' ')

/-- Go on with a line of a width, and then with further lines, for as long as there are parts. -/
def fillFrom (width : Nat) (line : String) : List String → List String
  | [] => [line]
  | part :: rest =>
    if line.length + 1 + part.length ≤ width then fillFrom width (line ++ " " ++ part) rest
    else line :: fillFrom width part rest

/-- Fill lines of a width with parts that have a space between them; a part that is too long has a
line of its own. -/
def fill (width : Nat) : List String → List String
  | [] => []
  | part :: rest => fillFrom width part rest

/-- An option as it stands in the usage. -/
def Choice.usage (choice : Choice) : String :=
  let name := choice.names.headD ""
  "[" ++ name ++ ((choice.argument?.map (" " ++ ·)).getD "") ++ "]"

/-- The start of the usage. -/
def usageStart : String := "usage: " ++ Log.programName

/-- The usage. -/
def usage : String :=
  let indent := blanks (usageStart.length + 1)
  let lines := fill (screenWidth - indent.length) (Choice.all.map Choice.usage) ++ ["INPUT"]
  usageStart ++ " " ++ ("\n" ++ indent).intercalate lines ++ "\n"

/-- An entry: what is explained, and its explanation beside it, or below it if it is long. -/
def entry (title explanation : String) : String :=
  let lines := fill (screenWidth - explanationColumn) (Text.words explanation)
  let column := blanks explanationColumn
  let title := "  " ++ title
  let start :=
    if title.length + 2 ≤ explanationColumn then
      title ++ blanks (explanationColumn - title.length)
    else title ++ "\n" ++ column
  start ++ ("\n" ++ column).intercalate lines ++ "\n"

/-- An option as it stands in its entry. -/
def Choice.entryTitle (choice : Choice) : String :=
  let argument := (choice.argument?.map (" " ++ ·)).getD ""
  ", ".intercalate (choice.names.map (· ++ argument))

/-- The variable of the surroundings that names the formatter. -/
def formatterVariable : String := "MD2TROFF_TROFF"

/-- The help text. -/
def helpText : String :=
  usage ++ "\nRender markdown as troff ms macros, or typeset it to PDF.\n\n" ++
    "positional arguments:\n" ++
    entry "INPUT" "Markdown file to render, or '-' to read stdin" ++
    "\noptions:\n" ++
    String.join (Choice.all.map fun choice => entry choice.entryTitle choice.explanation) ++
    s!"\nThe troff binary defaults to ${formatterVariable} when it is set.\n"

/-- The version of the program. -/
def version : String := "0.1.0"

/-- The version text. -/
def versionText : String := Log.programName ++ " " ++ version ++ "\n"

/-- The diagnostics on a misuse. -/
def misuseText (message : String) : String :=
  usage ++ Log.programName ++ ": error: " ++ message ++ "\n"

end Manuscript.CommandLine
