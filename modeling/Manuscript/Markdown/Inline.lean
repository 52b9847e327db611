import Manuscript.Markdown.Emphasis
import Manuscript.Markdown.Html
import Manuscript.Markdown.Link

/-! # Tokens of a line of text

The text of a paragraph, a heading or a cell is read from left to right. Code,
markup and addresses in angle brackets are taken whole; brackets are matched
as soon as the closing one is met, and form a link or an image if an address
follows or their text is a label; runs of emphasis are resolved inside each
link and at the end.
-/

namespace Manuscript.Markdown

/-- What the reading of text depends on. -/
structure InlineContext where
  definitions : List Definition
  strikethrough : Bool

/-- The mark of code within a text. -/
def codeMark : Char := '\x60'

/-! ## Code -/

/-- Take code up to a run of as many marks as opened it: the code and what follows. -/
def takeCode (marks : Nat) : Nat → List Char → Option (List Char × List Char)
  | _, [] => none
  | 0, _ => none
  | steps + 1, c :: cs =>
    if c == codeMark then
      let run := (c :: cs).takeWhile (· == codeMark)
      let rest := cs.dropWhile (· == codeMark)
      if run.length == marks then some ([], rest)
      else (takeCode marks steps rest).map fun (code, rest) => (run ++ code, rest)
    else (takeCode marks steps cs).map fun (code, rest) => (c :: code, rest)

/-- Code with line ends as spaces, and without one space on both sides if there is one on both. -/
def codeText (code : List Char) : List Char :=
  let flat := code.map fun c => if c == '\n' then ' ' else c
  if flat.head? == some ' ' && flat.getLast? == some ' ' && !flat.all (· == ' ') then
    (flat.drop 1).dropLast
  else flat

/-! ## Brackets -/

/-- An open bracket: whether it is that of an image, whether it may still become a link, the text
after it, and the parts before it, the last first. -/
structure Bracket where
  isImage : Bool
  active : Bool := true
  start : List Char
  before : List InlinePart

/-- The parts since the innermost open bracket, the last first, and the open brackets. -/
structure InlineState where
  parts : List InlinePart := []
  brackets : List Bracket := []

namespace InlineState

/-- Add a token. -/
def add (state : InlineState) (token : Token) : InlineState :=
  { state with parts := .token token :: state.parts }

/-- Add text. -/
def addText (state : InlineState) (text : List Char) : InlineState := state.add (.plain text)

/-- Open a bracket before a text. -/
def openBracket (state : InlineState) (isImage : Bool) (start : List Char) : InlineState :=
  { parts := [], brackets := { isImage, start, before := state.parts } :: state.brackets }

/-- The text of a bracket that is none of a link. -/
def Bracket.text (bracket : Bracket) : List Char := if bracket.isImage then ['!', '['] else ['[']

/-- Take the innermost bracket as text. -/
def abandonBracket (state : InlineState) : InlineState :=
  match state.brackets with
  | [] => state
  | bracket :: rest =>
    { parts := state.parts ++ .token (.plain (Bracket.text bracket)) :: bracket.before
      brackets := rest }

/-- Take all open brackets as text. -/
def abandonAll : Nat → InlineState → InlineState
  | 0, state => state
  | count + 1, state => abandonAll count state.abandonBracket

/-- Drop the last line's spaces at its end. -/
def trimEnd (state : InlineState) : InlineState :=
  match state.parts with
  | .token token :: before =>
    if token.kind == .text then
      let text := Text.dropTrailing (· == ' ') token.raw.toList
      { state with parts := .token (.plain text) :: before }
    else state
  | _ => state

/-- Make the innermost bracket a link or an image to a target. No link stands in another. -/
def closeLink (state : InlineState) (bracket : Bracket) (outer : List Bracket) (target : String) :
    InlineState :=
  let token : Token := {
    kind := if bracket.isImage then .image else .link
    target
    children := resolveEmphasis state.parts.reverse }
  { parts := .token token :: bracket.before
    brackets :=
      if bracket.isImage then outer
      else outer.map fun other => { other with active := other.active && other.isImage } }

/-- The target of the text in a bracket and what follows its notation, given what follows the
closing bracket. -/
def linkAfter (context : InlineContext) (bracket : Bracket) (rest : List Char) :
    Option (String × List Char) :=
  let inner := bracket.start.take (bracket.start.length - rest.length - 1)
  let ofLabel (label : Option String) (rest : List Char) : Option (String × List Char) := do
    return (← targetOf context.definitions (← label), rest)
  let own : Option String :=
    match takeLabelText (inner ++ [']']) with
    | some (label, []) => labelKey label
    | _ => none
  match takeTarget rest with
  | some found => some found
  | none =>
    match rest with
    | '[' :: ']' :: more => ofLabel own more
    | _ =>
      match takeLabel rest with
      | some (label, more) => ofLabel (some label) more
      | none => ofLabel own rest

/-- Meet a closing bracket before a text, and give what is left of the text. -/
def closeBracket (context : InlineContext) (state : InlineState) (rest : List Char) :
    InlineState × List Char :=
  match state.brackets with
  | [] => (state.addText [']'], rest)
  | bracket :: outer =>
    match if bracket.active then linkAfter context bracket rest else none with
    | some (target, more) => (state.closeLink bracket outer target, more)
    | none => (state.abandonBracket.addText [']'], rest)

end InlineState

/-! ## Reading -/

/-- The end of a line within a text: two spaces before it make it a hard one. -/
def lineEnd (state : InlineState) : InlineState :=
  let hard : Bool :=
    match state.parts with
    | .token token :: _ => token.kind == .text && [' ', ' '].isSuffixOf token.raw.toList
    | _ => false
  state.trimEnd.add { kind := if hard then .hardBreak else .softBreak }

/-- Whether a character is ordinary text. -/
def isOrdinary (context : InlineContext) (c : Char) : Bool :=
  !("\\\n[]!<*_".toList.contains c || c == codeMark || (context.strikethrough && c == '~'))

/-- Read one piece of a text after a character, and give what is left of it. -/
def readPiece (context : InlineContext) (before : Option Char) (state : InlineState) :
    List Char → InlineState × List Char
  | [] => (state, [])
  | '\\' :: '\n' :: rest => (state.add { kind := .hardBreak }, rest.dropWhile isGap)
  | '\\' :: c :: rest =>
    if isPunctuation c then (state.addText [c], rest) else (state.addText ['\\'], c :: rest)
  | '\n' :: rest => (lineEnd state, rest.dropWhile isGap)
  | '!' :: '[' :: rest => (state.openBracket true rest, rest)
  | '[' :: rest => (state.openBracket false rest, rest)
  | ']' :: rest => state.closeBracket context rest
  | '<' :: rest =>
    match takeAutolink rest with
    | some ((written, shown), more) =>
      let token : Token :=
        { kind := .link, target := plainAddress written, children := [.plain shown] }
      (state.add token, more)
    | none =>
      match takeSkipped '<' skipMarkup rest with
      | some (markup, more) => (state.add { kind := .htmlSpan, raw := String.ofList markup }, more)
      | none => (state.addText ['<'], rest)
  | c :: rest =>
    if c == codeMark then
      let marks := (c :: rest).takeWhile (· == codeMark)
      let inner := rest.dropWhile (· == codeMark)
      match takeCode marks.length inner.length inner with
      | some (code, more) =>
        (state.add { kind := .codeSpan, raw := String.ofList (codeText code) }, more)
      | none => (state.addText marks, inner)
    else if c == '*' || c == '_' || (context.strikethrough && c == '~') then
      let marks := (c :: rest).takeWhile (· == c)
      let more := rest.dropWhile (· == c)
      let run := DelimiterRun.between before c marks.length more.head?
      ({ state with parts := .run run :: state.parts }, more)
    else
      let text := c :: rest.takeWhile (isOrdinary context)
      (state.addText text, rest.dropWhile (isOrdinary context))

/-- The last of the characters that were read. -/
def lastRead (before : Option Char) (text rest : List Char) : Option Char :=
  let read := text.take (text.length - rest.length)
  match read.getLast? with
  | some c => some c
  | none => before

/-- Read a text in no more pieces than a number. -/
def readPieces (context : InlineContext) :
    Nat → Option Char → InlineState → List Char → InlineState
  | 0, _, state, _ => state
  | _, _, state, [] => state
  | steps + 1, before, state, text =>
    let (state, rest) := readPiece context before state text
    readPieces context steps (lastRead before text rest) state rest

/-- The tokens of a text. -/
def inlineTokens (context : InlineContext) (text : List Char) : List Token :=
  let state := readPieces context text.length none {} text
  resolveEmphasis (state.abandonAll state.brackets.length).parts.reverse

end Manuscript.Markdown
