import Manuscript.Decimal.Integer
import Manuscript.Decimal.Shortest
import Manuscript.Text.Letter

/-! # Written numbers

A double precision number is written with its shortest digits. They stand
around a point if the first of them has a power of ten from -4 to 15, with at
least one digit on each side; otherwise one digit stands before the point and
the power of ten follows in at least two digits. The same forms, and freer
ones, are read back.
-/

namespace Manuscript.Decimal

/-- The digits of a number, the first of which is not zero. -/
def Digits.text (digits : Digits) : List Char :=
  let cs := (toString digits.value).toList
  List.replicate (digits.count - cs.length) '0' ++ cs

/-- Digits around a point. -/
def positional (cs : List Char) (power : Int) : String :=
  if power < 0 then "0." ++ String.ofList (List.replicate (power.natAbs - 1) '0' ++ cs)
  else
    let whole := power.toNat + 1
    let front := cs.take whole
    let back := cs.drop whole
    String.ofList (front ++ List.replicate (whole - front.length) '0') ++ "." ++
      if back.isEmpty then "0" else String.ofList back

/-- Digits with a power of ten. -/
def scientific (cs : List Char) (power : Int) : String :=
  let back := cs.drop 1
  String.ofList (cs.take 1) ++ (if back.isEmpty then "" else "." ++ String.ofList back) ++ "e" ++
    (if power < 0 then "-" else "+") ++ Text.padded 2 power.natAbs

/-- The written form of a number. -/
def write (x : Float) : String :=
  match exact x with
  | .undefined => "nan"
  | .infinite negative => if negative then "-inf" else "inf"
  | .finite negative mantissa exponent =>
    let magnitude :=
      if mantissa = 0 then "0.0"
      else
        let digits := shortest mantissa exponent
        if -4 ≤ digits.power && digits.power < 16 then positional digits.text digits.power
        else scientific digits.text digits.power
    (if negative then "-" else "") ++ magnitude

/-- Split off the digits, with single underscores between them, that a text starts with. -/
def takeDigits (cs : List Char) : List Char × List Char :=
  let run := cs.takeWhile fun c => Text.isDigit c || c == '_'
  let rest := cs.dropWhile fun c => Text.isDigit c || c == '_'
  match separatedDigits Text.isDigit run with
  | some digits => (digits, rest)
  | none => ([], cs)

/-- The number that digits, a point and an exponent write. -/
def readDecimal (negative : Bool) (cs : List Char) : Option Float := do
  let (front, rest) := takeDigits cs
  let (back, rest) :=
    match rest with
    | '.' :: more => takeDigits more
    | _ => ([], rest)
  if front.isEmpty && back.isEmpty then none
  else
    let value := Text.decimalValue (front ++ back)
    let shift : Int := -(back.length : Int)
    match rest with
    | [] => some (ofDecimal negative value shift)
    | e :: more =>
      if e == 'e' || e == 'E' then
        let (down, digits) := takeSign more
        match separatedDigits Text.isDigit digits with
        | some exponent =>
          let power : Int := Text.decimalValue (exponent.take 4300)
          some (ofDecimal negative value (shift + if down then -power else power))
        | none => none
      else none

/-- The number that a text writes, if it does: digits with an optional point and exponent, or the
name of an infinite or the undefined number, with an optional sign and blanks around. -/
def read? (text : List Char) : Option Float :=
  let (negative, body) := takeSign (Text.trimBy Text.isBlank text)
  let name := String.ofList (Text.lowered body)
  if name == "inf" || name == "infinity" then some (infinity negative)
  else if name == "nan" then some undefined
  else readDecimal negative body

/-- A whole number as a double precision number. -/
def ofInteger (n : Int) : Float := ofQuotient (n < 0) n.natAbs 1

end Manuscript.Decimal
