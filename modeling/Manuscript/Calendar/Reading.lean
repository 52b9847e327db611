import Manuscript.Calendar.Iso
import Manuscript.Calendar.Mail
import Manuscript.Calendar.Pattern
import Manuscript.Text.Loose

/-! # Reading dates

A date text is collapsed to single spaces and then read in the first way that
works: one of the accepted forms; the form of a clock stamp once the
abbreviation of a zone before the year is left out; a standard timestamp; a
date line of a message. Every way but the last two gives a naive moment.
-/

namespace Manuscript.Calendar

/-- Why a text is no date. -/
inductive ReadError where
  | empty
  | unrecognized (text : LooseText)
  | overflow (cause : Overflow)
  deriving DecidableEq, Repr

def ReadError.message : ReadError → String
  | .empty => "Cannot parse an empty date"
  | .unrecognized text => "Unrecognized date format: " ++ text.quoted
  | .overflow cause => cause.message

/-- Whether a word is the abbreviation of a zone: two to five capitals. -/
def isZoneWord (word : List Char) : Bool :=
  2 ≤ word.length && word.length ≤ 5 && word.all fun c => 'A' ≤ c && c ≤ 'Z'

/-- Leave out the abbreviation of a zone that stands before a four-digit year at the end. -/
def dropZone (words : List (List Char)) : Option (List (List Char)) :=
  match words.reverse with
  | year :: zone :: before :: rest =>
    if year.length == 4 && year.all Text.isDigit && isZoneWord zone then
      some (rest.reverse ++ [before, year])
    else none
  | _ => none

/-- The moment that a text writes in one of the forms before the date line of a message. -/
def readForm? (text : String) : Option Moment :=
  let candidate := Text.collapse text
  let zoneless : Option Moment := do
    let words ← dropZone ((Text.words text).map String.toList)
    Form.read? (Form.clockStamp ++ [.gap, .year]) ([' '].intercalate words)
  Form.accepted.findSome? (Form.read? · candidate.toList) <|> zoneless <|> Iso.moment? candidate

/-- The moment that a text writes. To all ways of reading, half of a surrogate pair is a character
that they do not know. -/
def read (text : LooseText) : Except ReadError Moment :=
  let words := (Text.words text.shown).map String.toList
  if words.isEmpty then .error .empty
  else
    match readForm? text.shown with
    | some moment => .ok moment
    | none =>
      match Mail.read? words with
      | .ok (some moment) => .ok moment
      | .ok none => .error (.unrecognized text)
      | .error cause => .error (.overflow cause)

end Manuscript.Calendar
