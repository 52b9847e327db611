import Manuscript.Markdown.Address
import Manuscript.Markdown.Token
import Manuscript.Text.Blank

/-! # Emphasis

Runs of asterisks, underscores or tildes around a text emphasise it or strike
it through. Whether a run may open or close is seen from the characters beside
it. A run that may close is joined to the nearest run before it that it can be
joined to; what stands between them becomes the content, and runs in it that
are joined to nothing are text.
-/

namespace Manuscript.Markdown

/-- A run of one mark. -/
structure DelimiterRun where
  mark : Char
  count : Nat
  opens : Bool
  closes : Bool
  deriving DecidableEq, Repr

/-- The run of a mark between two characters; the start and the end of a text count as blanks. -/
def DelimiterRun.between (before : Option Char) (mark : Char) (count : Nat) (next : Option Char) :
    DelimiterRun :=
  let blank (c : Option Char) := (c.map Text.isBlank).getD true
  let punctuation (c : Option Char) := (c.map isPunctuation).getD false
  let leading := !blank next && (!punctuation next || blank before || punctuation before)
  let trailing := !blank before && (!punctuation before || blank next || punctuation next)
  if mark == '_' then
    { mark, count
      opens := leading && (!trailing || punctuation before)
      closes := trailing && (!leading || punctuation next) }
  else { mark, count, opens := leading, closes := trailing }

/-- A part of a line of text: what is already a token, or a run. -/
inductive InlinePart where
  | token (token : Token)
  | run (run : DelimiterRun)

/-- A text token. -/
def Token.plain (raw : List Char) : Token := { kind := .text, raw := String.ofList raw }

/-- Join neighbouring texts and drop empty ones. -/
def joinTexts : List Token → List Token
  | [] => []
  | token :: rest =>
    if token.kind == .text then
      match joinTexts rest with
      | next :: more =>
        if next.kind == .text then { next with raw := token.raw ++ next.raw } :: more
        else if token.raw.isEmpty then next :: more
        else token :: next :: more
      | [] => if token.raw.isEmpty then [] else [token]
    else token :: joinTexts rest

/-- A run that waits for its end: the marks left of it, and the tokens after it, the last first. -/
structure OpenRun where
  run : DelimiterRun
  left : Nat
  inner : List Token := []

/-- The tokens of a run that is joined to nothing and of what follows it, the last first. -/
def OpenRun.abandoned (waiting : OpenRun) : List Token :=
  waiting.inner ++ [Token.plain (List.replicate waiting.left waiting.run.mark)]

/-- Tokens so far, the last first, and the runs that wait, the innermost first. -/
structure EmphasisState where
  base : List Token := []
  waiting : List OpenRun := []

/-- Put tokens after those of the innermost waiting run. -/
def EmphasisState.append (state : EmphasisState) (tokens : List Token) : EmphasisState :=
  match state.waiting with
  | [] => { state with base := tokens ++ state.base }
  | first :: rest => { state with waiting := { first with inner := tokens ++ first.inner } :: rest }

/-- Give up the innermost waiting runs of a number. -/
def EmphasisState.abandon : Nat → EmphasisState → EmphasisState
  | 0, state => state
  | count + 1, state =>
    match state.waiting with
    | [] => state
    | first :: rest =>
      EmphasisState.abandon count ({ state with waiting := rest }.append first.abandoned)

/-- Whether a closing run can be joined to a waiting one. Runs that both open and close are not
joined if their lengths add up to a multiple of three, unless both are such multiples. -/
def canJoin (waiting : OpenRun) (closing : DelimiterRun) : Bool :=
  let first := waiting.run
  first.mark == closing.mark &&
    if closing.mark == '~' then first.count == 2 && closing.count == 2
    else
      !((first.closes || closing.opens) && (first.count + closing.count) % 3 == 0 &&
        !(first.count % 3 == 0 && closing.count % 3 == 0))

/-- The token that two joined runs make of a content. -/
def joined (mark : Char) (marks : Nat) (content : List Token) : Token :=
  { kind := if mark == '~' then .strikethrough else if marks = 2 then .strong else .emphasis
    children := joinTexts content }

/-- Join a closing run with marks left to waiting runs until no mark is left or none can be
joined. The marks that are left wait for their own end or are text. -/
def closeRun (run : DelimiterRun) : Nat → EmphasisState → EmphasisState
  | 0, state => state
  | left + 1, state =>
    let found := if run.closes then state.waiting.findIdx? (canJoin · run) else none
    match found with
    | none =>
      if run.opens then { state with waiting := { run, left := left + 1 } :: state.waiting }
      else state.append [Token.plain (List.replicate (left + 1) run.mark)]
    | some depth =>
      let cleared := state.abandon depth
      match cleared.waiting with
      | [] => cleared
      | first :: rest =>
        let marks := if 2 ≤ first.left && 1 ≤ left then 2 else 1
        let token := joined run.mark marks first.inner.reverse
        let after : EmphasisState :=
          if first.left ≤ marks then { cleared with waiting := rest }.append [token]
          else
            { cleared with
              waiting := { first with left := first.left - marks, inner := [token] } :: rest }
        closeRun run (left + 1 - marks) after
  termination_by left => left
  decreasing_by split <;> omega

/-- Take in one part. -/
def EmphasisState.add (state : EmphasisState) : InlinePart → EmphasisState
  | .token token => state.append [token]
  | .run run => closeRun run run.count state

/-- The tokens of a line of parts. -/
def resolveEmphasis (parts : List InlinePart) : List Token :=
  let state := parts.foldl EmphasisState.add {}
  joinTexts (state.abandon state.waiting.length).base.reverse

end Manuscript.Markdown
