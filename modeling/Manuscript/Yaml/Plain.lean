import Manuscript.Text.Digit

/-! # Types of plain scalars

A plain scalar whose text has the form of another type belongs to that type:
the empty value, a truth value, a whole number, a number with a point, or a
date. The forms are stated here as tests on the text. Two more forms stand for
merging a mapping into another and for the default value of a mapping.
-/

namespace Manuscript.Yaml

/-- The types that a tag names. -/
inductive Tag where
  | null
  | bool
  | int
  | float
  | timestamp
  | str
  | seq
  | map
  | set
  | orderedMap
  | pairs
  | binary
  | merge
  | default
  /-- A tag that names no type. -/
  | unknown
  deriving DecidableEq, Repr

/-- The start of the tags of the common types. -/
def commonPrefix : String := "tag:yaml.org,2002:"

/-- The type that a full tag names. -/
def Tag.ofName (name : String) : Tag :=
  let named : List (String × Tag) := [
    ("null", .null), ("bool", .bool), ("int", .int), ("float", .float), ("timestamp", .timestamp),
    ("str", .str), ("seq", .seq), ("map", .map), ("set", .set), ("omap", .orderedMap),
    ("pairs", .pairs), ("binary", .binary), ("merge", .merge), ("value", .default)]
  ((named.find? fun entry => commonPrefix ++ entry.1 == name).map (·.2)).getD .unknown

namespace Plain

private def digit (c : Char) : Bool := Text.isAsciiDigit c

private def digitOrMark (c : Char) : Bool := digit c || c == '_'

private def startsDigit (cs : List Char) : Bool := (cs.head?.map digit).getD false

private def startsNonzero (cs : List Char) : Bool :=
  (cs.head?.map fun c => '1' ≤ c && c ≤ '9').getD false

private def dropSign : List Char → List Char
  | '-' :: cs => cs
  | '+' :: cs => cs
  | cs => cs

/-- The texts of the empty value. -/
def isNull (cs : List Char) : Bool :=
  ["", "~", "null", "Null", "NULL"].any (·.toList == cs)

/-- The texts of truth values. -/
def isBool (cs : List Char) : Bool :=
  ["yes", "Yes", "YES", "no", "No", "NO", "true", "True", "TRUE", "false", "False", "FALSE", "on",
    "On", "ON", "off", "Off", "OFF"].any (·.toList == cs)

/-- One or two digits of a base of sixty. -/
def isSixtieth : List Char → Bool
  | [c] => digit c
  | [c, d] => '0' ≤ c && c ≤ '5' && digit d
  | _ => false

/-- Cut a text at its colons. -/
def colonParts (cs : List Char) : List (List Char) :=
  match cs with
  | [] => [[]]
  | ':' :: rest => [] :: colonParts rest
  | c :: rest =>
    match colonParts rest with
    | part :: parts => (c :: part) :: parts
    | [] => [[c]]

/-- Whole numbers: in base two, eight, ten, sixteen or sixty. -/
def isInt (cs : List Char) : Bool :=
  match dropSign cs with
  | [] => false
  | ['0'] => true
  | '0' :: 'b' :: body => !body.isEmpty && body.all fun c => c == '0' || c == '1' || c == '_'
  | '0' :: 'x' :: body => !body.isEmpty && body.all fun c => (Text.hexValue? c).isSome || c == '_'
  | '0' :: body => body.all fun c => ('0' ≤ c && c ≤ '7') || c == '_'
  | body =>
    startsNonzero body &&
      match colonParts body with
      | first :: sixtieths => first.all digitOrMark && sixtieths.all isSixtieth
      | [] => false

/-- An exponent with its sign, or nothing. -/
def isExponent : List Char → Bool
  | [] => true
  | e :: sign :: digits =>
    (e == 'e' || e == 'E') && (sign == '+' || sign == '-') && !digits.isEmpty && digits.all digit
  | _ => false

/-- Numbers with a point, and the names of the infinite and the undefined number. -/
def isFloat (cs : List Char) : Bool :=
  let body := dropSign cs
  if [".nan", ".NaN", ".NAN"].any (·.toList == cs) then true
  else if [".inf", ".Inf", ".INF"].any (·.toList == body) then true
  else
    match cs with
    | '.' :: rest => startsDigit rest && isExponent (rest.dropWhile digitOrMark)
    | _ =>
      let front := body.takeWhile (· != '.')
      match body.dropWhile (· != '.') with
      | '.' :: back =>
        match colonParts front with
        | [whole] =>
          startsDigit whole && whole.all digitOrMark && isExponent (back.dropWhile digitOrMark)
        | first :: sixtieths =>
          startsDigit first && first.all digitOrMark && sixtieths.all isSixtieth &&
            back.all digitOrMark
        | [] => false
      | _ => false

/-- The texts of the parts of a timestamp. -/
structure Stamp where
  year : Nat
  month : Nat
  day : Nat
  /-- Whether year, month and day have four, two and two digits. -/
  padded : Bool
  time : Option (Nat × Nat × Nat) := none
  fraction : List Char := []
  /-- Whether a zone is given, and its sign, hours and minutes unless it is universal time. -/
  zone : Option (Option (Bool × Nat × Nat)) := none

/-- Split off one or two digits. -/
def oneOrTwo : List Char → Option (Nat × Nat × List Char)
  | c :: d :: rest =>
    if !digit c then none
    else if digit d then some (Text.decimalValue [c, d], 2, rest)
    else some (Text.decimalValue [c], 1, d :: rest)
  | [c] => if digit c then some (Text.decimalValue [c], 1, []) else none
  | [] => none

/-- Split off two digits. -/
def exactlyTwo (cs : List Char) : Option (Nat × List Char) :=
  match oneOrTwo cs with
  | some (n, 2, rest) => some (n, rest)
  | _ => none

/-- Split off a character. -/
def expect (c : Char) : List Char → Option (List Char)
  | d :: rest => if c == d then some rest else none
  | [] => none

/-- The zone at the end of a timestamp. -/
def zone? (cs : List Char) : Option (Option (Option (Bool × Nat × Nat))) :=
  match cs.dropWhile fun c => c == ' ' || c == '\t' with
  | [] => if cs.isEmpty then some none else none
  | ['Z'] => some (some none)
  | sign :: rest => do
    if sign != '+' && sign != '-' then none
    else
      let (hours, _, rest) ← oneOrTwo rest
      match rest with
      | [] => some (some (some (sign == '-', hours, 0)))
      | _ =>
        let (minutes, rest) ← exactlyTwo (← expect ':' rest)
        if rest.isEmpty then some (some (some (sign == '-', hours, minutes))) else none

/-- The parts of a timestamp: a date, perhaps with a time after the letter T or blanks, a fraction
of a second and a zone. -/
def stamp? (cs : List Char) : Option Stamp := do
  let year := cs.take 4
  if year.length != 4 || !year.all digit then none
  else
    let (month, monthDigits, rest) ← oneOrTwo (← expect '-' (cs.drop 4))
    let (day, dayDigits, rest) ← oneOrTwo (← expect '-' rest)
    let date : Stamp := {
      year := Text.decimalValue year, month, day, padded := monthDigits == 2 && dayDigits == 2 }
    match rest with
    | [] => some date
    | c :: after =>
      let clock ←
        if c == 'T' || c == 't' then some after
        else if c == ' ' || c == '\t' then some (after.dropWhile fun c => c == ' ' || c == '\t')
        else none
      let (hour, _, rest) ← oneOrTwo clock
      let (minute, rest) ← exactlyTwo (← expect ':' rest)
      let (second, rest) ← exactlyTwo (← expect ':' rest)
      let (fraction, rest) :=
        match rest with
        | '.' :: more => (more.takeWhile digit, more.dropWhile digit)
        | _ => ([], rest)
      some { date with time := some (hour, minute, second), fraction, zone := ← zone? rest }

/-- Dates in full digits, and dates with a time. -/
def isTimestamp (cs : List Char) : Bool :=
  match stamp? cs with
  | some stamp => stamp.time.isSome || stamp.padded
  | none => false

/-- The type of a plain scalar. One line break at the end is disregarded. -/
def tag (text : List Char) : Tag :=
  let cs := if 1 < text.length && text.getLast? == some '\n' then text.dropLast else text
  if isNull cs then .null
  else if isBool cs then .bool
  else if isFloat cs then .float
  else if isInt cs then .int
  else if cs == ['<', '<'] then .merge
  else if isTimestamp cs then .timestamp
  else if cs == ['='] then .default
  else if cs == ['!'] || cs == ['&'] || cs == ['*'] then .unknown
  else .str

end Plain

end Manuscript.Yaml
