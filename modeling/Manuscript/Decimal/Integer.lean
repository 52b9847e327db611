import Manuscript.Text.Blank
import Manuscript.Text.Digit

/-! # Whole numbers in text

A whole number is written by an optional sign and digits of any script, with
blank characters around it and single underscores between digits. In base ten
the digits are limited in number; in base two, eight and sixteen a zero and the
letter of the base may stand before them.
-/

namespace Manuscript.Decimal

/-- Why a text writes no whole number. -/
inductive IntegerError where
  | malformed
  | tooLong (digits : Nat)
  deriving DecidableEq, Repr

/-- The most digits that are read or written in base ten. -/
def digitLimit : Nat := 4300

/-- Split off a sign; the flag says whether it is a minus. -/
def takeSign : List Char → Bool × List Char
  | '-' :: cs => (true, cs)
  | '+' :: cs => (false, cs)
  | cs => (false, cs)

/-- The digits of a list of digits with single underscores between them. -/
def separatedDigits (isDigit : Char → Bool) : List Char → Option (List Char)
  | [] => none
  | [c] => if isDigit c then some [c] else none
  | c :: '_' :: cs => if isDigit c then (separatedDigits isDigit cs).map (c :: ·) else none
  | c :: cs => if isDigit c then (separatedDigits isDigit cs).map (c :: ·) else none

/-- The whole number that a text writes in base ten. -/
def readInteger (cs : List Char) : Except IntegerError Int :=
  let (negative, body) := takeSign (Text.trimBy Text.isBlank cs)
  match separatedDigits Text.isDigit body with
  | none => .error .malformed
  | some digits =>
    if digitLimit < digits.length then .error (.tooLong digits.length)
    else
      let value : Int := Text.decimalValue digits
      .ok (if negative then -value else value)

/-- The letters that may stand after a zero before the digits of a base. -/
def baseLetters : Nat → List Char
  | 2 => ['b', 'B']
  | 8 => ['o', 'O']
  | 16 => ['x', 'X']
  | _ => []

/-- Leave out the zero and the letter of a base, and an underscore after them. -/
def dropBase (base : Nat) : List Char → List Char
  | '0' :: letter :: cs =>
    if (baseLetters base).contains letter then
      match cs with
      | '_' :: digits => digits
      | digits => digits
    else '0' :: letter :: cs
  | cs => cs

/-- The whole number that a text writes in a base up to sixteen. -/
def readIntegerInBase (base : Nat) (cs : List Char) : Except IntegerError Int :=
  let (negative, body) := takeSign (Text.trimBy Text.isBlank cs)
  let isDigit (c : Char) := ((Text.placeValue? c).map (decide <| · < base)).getD false
  match separatedDigits isDigit (dropBase base body) with
  | none => .error .malformed
  | some digits =>
    let value : Int := Text.valueInBase base digits
    .ok (if negative then -value else value)

end Manuscript.Decimal
