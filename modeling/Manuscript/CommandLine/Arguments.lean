import Manuscript.Decimal.Notation
import Manuscript.Log.Setup
import Manuscript.Settings

/-! # Command line arguments

The words of a command line are options, whose names start with hyphens, and
the name of the input. A long name may be shortened as long as it can be told
from the others; the argument of an option follows an equals sign, or a short
name, or is the next word. After two hyphens alone every word is plain.
-/

namespace Manuscript.CommandLine

/-- What is asked for on a command line. -/
structure Arguments where
  input : String
  output : String := ""
  typeset : Bool := false
  sniffFrontMatter : Bool := false
  titleBlock : Bool := true
  formatter : String := ""
  timeout : Option Float := none
  logLevel : String := "WARNING"
  logFile : String := ""
  trace : Bool := false

/-- The options. -/
inductive Choice where
  | help
  | output
  | typeset
  | sniffFrontMatter
  | noTitleBlock
  | formatter
  | timeout
  | logLevel
  | logFile
  | trace
  | version
  deriving DecidableEq, Repr

/-- The levels that can be chosen. -/
def levelChoices : List String := ["DEBUG", "INFO", "WARNING", "ERROR", "CRITICAL"]

namespace Choice

/-- All options in the order in which they are explained. -/
def all : List Choice := [
  help, output, typeset, sniffFrontMatter, noTitleBlock, formatter, timeout, logLevel, logFile,
  trace, version]

/-- The names of an option. -/
def names : Choice → List String
  | help => ["-h", "--help"]
  | output => ["--out", "-o"]
  | typeset => ["--pdf"]
  | sniffFrontMatter => ["--sniff-front-matter"]
  | noTitleBlock => ["--no-title-block"]
  | formatter => ["--troff"]
  | timeout => ["--timeout"]
  | logLevel => ["--log-level"]
  | logFile => ["--log-file"]
  | trace => ["--trace"]
  | version => ["--version"]

/-- What stands for the argument of an option that has one. -/
def argument? : Choice → Option String
  | output => some "OUTPUT"
  | formatter | logFile => some "PATH"
  | timeout => some "SECONDS"
  | logLevel => some ("\x7b" ++ ",".intercalate levelChoices ++ "\x7d")
  | _ => none

/-- The name of an option in messages. -/
def title (choice : Choice) : String := "/".intercalate choice.names

end Choice

/-- All names with their options. -/
def optionNames : List (String × Choice) :=
  Choice.all.flatMap fun choice => choice.names.map (·, choice)

/-- The option of a name. -/
def choiceOf (name : String) : Option Choice :=
  (optionNames.find? (·.1 == name)).map (·.2)

/-- Why a command line asks for no run: it asks for help or for the version, or is misused. -/
inductive Stop where
  | help
  | version
  | misused (message : String)
  deriving DecidableEq, Repr

/-- A fault in the use of an option. -/
def Stop.argument (choice : Choice) (fault : String) : Stop :=
  .misused s!"argument {choice.title}: {fault}"

/-! ## Words -/

/-- An option as it stands in a word: the name it is meant by, and the argument in the word. -/
structure OptionUse where
  choice : Choice
  name : String
  argument : Option (List Char) := none

/-- A word of a command line. -/
inductive Word where
  | plain (text : String)
  | separator
  | option (use : OptionUse)
  | unknown (text : String)

/-- The text before the first equals sign, and what follows it. -/
def cutEquals (cs : List Char) : List Char × Option (List Char) :=
  match cs.dropWhile (· != '=') with
  | _ :: value => (cs.takeWhile (· != '='), some value)
  | [] => (cs, none)

/-- The options that a word may be short for. -/
def abbreviated (word : List Char) : List OptionUse :=
  if (word.drop 1).head? == some '-' then
    let (start, argument) := cutEquals word
    (optionNames.filter fun (name, _) => start.isPrefixOf name.toList).map fun (name, choice) =>
      { choice, name, argument }
  else
    let short := word.take 2
    optionNames.filterMap fun (name, choice) =>
      if name.toList == short then some { choice, name, argument := some (word.drop 2) }
      else if word.isPrefixOf name.toList then some { choice, name }
      else none

/-- Whether a word is a number below zero. -/
def isNegativeNumber (word : List Char) : Bool :=
  match word with
  | '-' :: digits =>
    let digits := if digits.getLast? == some '\n' then digits.dropLast else digits
    match Text.splitBy (· == '.') digits with
    | [whole] => !whole.isEmpty && whole.all Text.isDigit
    | [whole, part] => whole.all Text.isDigit && !part.isEmpty && part.all Text.isDigit
    | _ => false
  | _ => false

/-- What a word before the separator is. -/
def wordOf (text : String) : Except Stop Word :=
  let cs := text.toList
  if cs.head? != some '-' then .ok (.plain text)
  else
    match choiceOf text with
    | some choice => .ok (.option { choice, name := text })
    | none =>
      if cs.length = 1 then .ok (.plain text)
      else
        let (start, argument) := cutEquals cs
        match argument, choiceOf (String.ofList start) with
        | some argument, some choice =>
          .ok (.option { choice, name := String.ofList start, argument := some argument })
        | _, _ =>
          match abbreviated cs with
          | [use] => .ok (.option use)
          | [] =>
            if isNegativeNumber cs || cs.contains ' ' then .ok (.plain text)
            else .ok (.unknown text)
          | uses =>
            let matching := ", ".intercalate (uses.map (·.name))
            .error (.misused s!"ambiguous option: {text} could match {matching}")

/-- The words of a command line. -/
def wordsOf : List String → Except Stop (List Word)
  | [] => .ok []
  | text :: rest =>
    if text == "--" then .ok (.separator :: rest.map .plain)
    else do
      let word ← wordOf text
      return word :: (← wordsOf rest)

/-! ## Options with their arguments -/

/-- The options of a word with their arguments, given the words after it, and what is left of
those. Short options without argument may share a word with the next short option. -/
def gather (use : OptionUse) (rest : List Word) :
    Except Stop (List (Choice × String) × List Word) :=
  match use with
  | { choice, name, argument := some cs } =>
    if choice.argument?.isSome then .ok ([(choice, String.ofList cs)], rest)
    else
      let ignored := Stop.argument choice
        ("ignored explicit argument " ++ Text.quoted (String.ofList cs))
      match cs with
      | [] => .error ignored
      | c :: more =>
        if name.toList.take 2 == "--".toList then .error ignored
        else
          let next := "-" ++ c.toString
          match choiceOf next with
          | none => .error ignored
          | some following => do
            let argument := if more.isEmpty then none else some more
            let (others, rest) ← gather { choice := following, name := next, argument } rest
            return ((choice, "") :: others, rest)
  | { choice, argument := none, .. } =>
    if choice.argument?.isSome then
      match rest with
      | .plain text :: rest => .ok ([(choice, text)], rest)
      | _ => .error (Stop.argument choice "expected one argument")
    else .ok ([(choice, "")], rest)
  termination_by (use.argument.map List.length).elim 0 (· + 1)
  decreasing_by
    by_cases h : more.isEmpty <;> simp [h]

/-- Take up an option. -/
def Arguments.choose (arguments : Arguments) (choice : Choice) (text : String) :
    Except Stop Arguments :=
  match choice with
  | .help => .error .help
  | .version => .error .version
  | .output => .ok { arguments with output := text }
  | .typeset => .ok { arguments with typeset := true }
  | .sniffFrontMatter => .ok { arguments with sniffFrontMatter := true }
  | .noTitleBlock => .ok { arguments with titleBlock := false }
  | .formatter => .ok { arguments with formatter := text }
  | .logFile => .ok { arguments with logFile := text }
  | .trace => .ok { arguments with trace := true }
  | .timeout =>
    match Decimal.read? text.toList with
    | some seconds => .ok { arguments with timeout := some seconds }
    | none => .error (Stop.argument choice ("invalid float value: " ++ Text.quoted text))
  | .logLevel =>
    if levelChoices.contains text then .ok { arguments with logLevel := text }
    else
      let choices := ", ".intercalate (levelChoices.map Text.quoted)
      .error (Stop.argument choice
        ("invalid choice: " ++ Text.quoted text ++ " (choose from " ++ choices ++ ")"))

/-! ## Command lines -/

/-- What has been found on a command line so far. -/
structure Found where
  arguments : Arguments := { input := "" }
  hasInput : Bool := false
  extras : List String := []

/-- Pass over words that are the separator. -/
def skipSeparators (words : List Word) : List Word :=
  words.dropWhile fun word => match word with
    | .separator => true
    | _ => false

/-- The text of a word that is no option. -/
def Word.text : Word → String
  | .plain text | .unknown text => text
  | .separator => "--"
  | .option use => use.name

/-- Take the input from words that are not options, if it is still open, and keep the others. -/
def Found.takeInput (found : Found) (words : List Word) : Found :=
  let keepAll : Found := { found with extras := found.extras ++ words.map Word.text }
  if found.hasInput then keepAll
  else
    match skipSeparators words with
    | first :: rest =>
      { arguments := { found.arguments with input := first.text }
        hasInput := true
        extras := found.extras ++ (skipSeparators rest).map Word.text }
    | [] => keepAll

/-- Whether a word is an option, known or not. -/
def Word.isOption : Word → Bool
  | .option _ | .unknown _ => true
  | .plain _ | .separator => false

/-- Take up words in order, of which there are no more than a number. -/
def takeWords : Nat → Found → List Word → Except Stop Found
  | 0, found, _ => .ok found
  | _, found, [] => .ok found
  | most + 1, found, word :: rest =>
    match word with
    | .unknown text => takeWords most { found with extras := found.extras ++ [text] } rest
    | .option use => do
      let (chosen, rest) ← gather use rest
      let arguments ← chosen.foldlM (fun now (choice, text) => now.choose choice text)
        found.arguments
      takeWords most { found with arguments } rest
    | _ =>
      let plain := (word :: rest).takeWhile (!·.isOption)
      takeWords most (found.takeInput plain) ((word :: rest).drop plain.length)

/-- What a command line asks for. -/
def Arguments.ofList (texts : List String) : Except Stop Arguments := do
  let words ← wordsOf texts
  let found ← takeWords words.length {} words
  if !found.hasInput then throw (.misused "the following arguments are required: INPUT")
  if !found.extras.isEmpty then
    throw (.misused ("unrecognized arguments: " ++ " ".intercalate found.extras))
  return found.arguments

end Manuscript.CommandLine
