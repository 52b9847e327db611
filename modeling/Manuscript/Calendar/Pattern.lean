import Manuscript.Calendar.Moment
import Manuscript.Text.Blank
import Manuscript.Text.Letter

/-! # Written forms of dates

A form is a sequence of parts: fields such as the day or the name of the
month, marks, and gaps. A text has a form when its parts follow one another up
to the end of the text; each part takes the first of its spellings that lets
the rest be read. Names are read without regard to case, and digits may be
those of any script.
-/

namespace Manuscript.Calendar

/-- A part of a written form. -/
inductive Part where
  | mark (c : Char)
  | gap
  | year
  | month
  | monthAbbreviation
  | monthName
  | day
  | weekday
  | hour
  | minute
  | second
  /-- The name of universal time. -/
  | zone
  deriving DecidableEq, Repr

/-- What the parts of a form say. -/
structure Fields where
  year : Nat := 1900
  month : Nat := 1
  day : Nat := 1
  hour : Nat := 0
  minute : Nat := 0
  second : Nat := 0
  deriving DecidableEq, Repr

namespace Part

private def between (low high c : Char) : Bool := low ≤ c && c ≤ high

/-- The spellings of a numeric part, each a test for every character, the preferred one first. -/
def spellings : Part → List (List (Char → Bool))
  | year => [[Text.isDigit, Text.isDigit, Text.isDigit, Text.isDigit]]
  | month => [[(· == '1'), between '0' '2'], [(· == '0'), between '1' '9'], [between '1' '9']]
  | day => [
      [(· == '3'), between '0' '1'], [between '1' '2', Text.isDigit], [(· == '0'), between '1' '9'],
      [between '1' '9'], [(· == ' '), between '1' '9']]
  | hour => [[(· == '2'), between '0' '3'], [between '0' '1', Text.isDigit], [Text.isDigit]]
  | minute => [[between '0' '5', Text.isDigit], [Text.isDigit]]
  | second => [[(· == '6'), between '0' '1'], [between '0' '5', Text.isDigit], [Text.isDigit]]
  | _ => []

/-- Only digits pass a test. -/
def TestsDigit (test : Char → Bool) : Prop := ∀ c, test c = true → Text.isDigit c = true

theorem testsDigit_isDigit : TestsDigit Text.isDigit := fun _ hc => hc

theorem testsDigit_eq (digit : Char) (hdigit : Text.isDigit digit = true) :
    TestsDigit (· == digit) := by
  intro c hc
  rwa [beq_iff_eq.mp hc]

theorem testsDigit_between (low high : Char) (hlow : '0' ≤ low) (hhigh : high ≤ '9') :
    TestsDigit (between low high) := by
  intro c hc
  simp only [between, Bool.and_eq_true, decide_eq_true_eq] at hc
  have hfirst : 48 ≤ c.toNat := Char.le_trans hlow hc.1
  have hlast : c.toNat ≤ 57 := Char.le_trans hc.2 hhigh
  simp [Text.isDigit, Text.digit?, show c.toNat < 128 by omega, hfirst, hlast]

/-- Numbers are spelled in digits, but for a space that may stand before the digit of a day. -/
theorem testsDigit_of_spelling {part : Part} {tests : List (Char → Bool)}
    (htests : tests ∈ part.spellings) :
    (∀ test ∈ tests.tail, TestsDigit test) ∧
      ∀ test ∈ tests, TestsDigit test ∨ test = (· == ' ') := by
  revert tests
  cases part <;> simp only [spellings, List.forall_mem_cons, List.tail_cons] <;>
    simp (disch := decide) [testsDigit_isDigit, testsDigit_eq, testsDigit_between]

/-- Split off as many characters as there are tests, if each passes its test. -/
def takeMatching : List (Char → Bool) → List Char → Option (List Char × List Char)
  | [], cs => some ([], cs)
  | _ :: _, [] => none
  | test :: tests, c :: cs =>
    if test c then (takeMatching tests cs).map fun (taken, rest) => (c :: taken, rest) else none

/-- The rest of a text after a name, without regard to case. -/
def afterName (name : String) (cs : List Char) : Option (List Char) :=
  let letters := Text.lowered name.toList
  if Text.lowered (cs.take letters.length) == letters then some (cs.drop letters.length) else none

/-- Every way to read one of some names: its position and the rest. -/
def readNames (names : List String) (cs : List Char) : List (Nat × List Char) :=
  names.zipIdx.filterMap fun (name, i) => (afterName name cs).map (i, ·)

/-- Every way to read a numeric part: its value and the rest. -/
def readNumber (part : Part) (cs : List Char) : List (Nat × List Char) :=
  part.spellings.filterMap fun tests =>
    (takeMatching tests cs).map fun (taken, rest) => (Text.decimalValue taken, rest)

/-- Every way to read a part, the preferred one first. -/
def read (part : Part) (fields : Fields) (cs : List Char) : List (Fields × List Char) :=
  match part with
  | mark c =>
    match cs with
    | d :: rest => if c == d then [(fields, rest)] else []
    | [] => []
  | gap =>
    match cs with
    | d :: rest => if Text.isBlank d then [(fields, rest.dropWhile Text.isBlank)] else []
    | [] => []
  | year => (readNumber year cs).map fun (n, rest) => ({ fields with year := n }, rest)
  | month => (readNumber month cs).map fun (n, rest) => ({ fields with month := n }, rest)
  | monthAbbreviation =>
    (readNames monthAbbreviations cs).map fun (i, rest) => ({ fields with month := i + 1 }, rest)
  | monthName =>
    (readNames monthNames cs).map fun (i, rest) => ({ fields with month := i + 1 }, rest)
  | day => (readNumber day cs).map fun (n, rest) => ({ fields with day := n }, rest)
  | weekday => (readNames weekdayAbbreviations cs).map fun (_, rest) => (fields, rest)
  | hour => (readNumber hour cs).map fun (n, rest) => ({ fields with hour := n }, rest)
  | minute => (readNumber minute cs).map fun (n, rest) => ({ fields with minute := n }, rest)
  | second => (readNumber second cs).map fun (n, rest) => ({ fields with second := n }, rest)
  | zone => (readNames ["UTC", "GMT"] cs).map fun (_, rest) => (fields, rest)

end Part

/-- A sequence of parts. -/
abbrev Form := List Part

namespace Form

/-- Every way to read a form from the start of a text. -/
def readFrom : Form → Fields → List Char → List (Fields × List Char)
  | [], fields, cs => [(fields, cs)]
  | part :: parts, fields, cs =>
    (part.read fields cs).flatMap fun (fields, rest) => readFrom parts fields rest

/-- The naive moment that a text writes in a form. -/
def read? (form : Form) (cs : List Char) : Option Moment :=
  match form.readFrom {} cs with
  | (fields, []) :: _ =>
    (Moment.ofFields fields.year fields.month fields.day fields.hour fields.minute fields.second 0
      none).toOption
  | _ => none

/-- Hours and minutes. -/
def hourMinute : Form := [.hour, .mark ':', .minute]

/-- Hours, minutes and seconds. -/
def time : Form := hourMinute ++ [.mark ':', .second]

/-- Year, month and day with a mark between them. -/
def numeric (c : Char) : Form := [.year, .mark c, .month, .mark c, .day]

/-- Weekday, month, day and time, as clocks print them before the year. -/
def clockStamp : Form := [.weekday, .gap, .monthAbbreviation, .gap, .day, .gap] ++ time

/-- The forms that a date may have, the first that fits being taken. -/
def accepted : List Form := [
  [.monthAbbreviation, .gap, .day, .mark ',', .gap, .year],
  [.monthName, .gap, .day, .mark ',', .gap, .year],
  [.day, .gap, .monthAbbreviation, .gap, .year],
  [.day, .gap, .monthName, .gap, .year],
  numeric '-',
  numeric '/',
  [.month, .mark '/', .day, .mark '/', .year],
  numeric '-' ++ .gap :: hourMinute,
  numeric '-' ++ .gap :: time,
  clockStamp ++ [.gap, .year],
  clockStamp ++ [.gap, .zone, .gap, .year],
  [.weekday, .mark ',', .gap, .day, .gap, .monthAbbreviation, .gap, .year]]

end Form

end Manuscript.Calendar
