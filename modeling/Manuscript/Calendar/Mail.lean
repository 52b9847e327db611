import Manuscript.Calendar.Moment
import Manuscript.Decimal.Integer
import Manuscript.Text.Letter

/-! # Dates of messages

The date line of a message gives a day, a month, a year, a time and a zone,
after an optional weekday. Day and month may change places, so may year and
time, and year and zone; commas may follow day, year and time; hyphens may join
day, month and year; a point may stand for the colon of the time. Two-digit
years belong to the hundred years from 1969. A zone is a known name or a number
of hours and minutes, and the number zero with a minus sign gives no zone.
-/

namespace Manuscript.Calendar

/-- A number that a date line gives is too large to be one of a date at all. -/
inductive Overflow where
  /-- The offset is more days than durations have. -/
  | duration (days : Int)
  /-- The days of the offset do not fit a machine word. -/
  | durationWord
  /-- A field lies above the machine range. -/
  | fieldAbove
  /-- A field lies below the machine range. -/
  | fieldBelow
  /-- A field does not fit a long machine word. -/
  | fieldWord
  deriving DecidableEq, Repr

def Overflow.message : Overflow → String
  | .duration days => s!"days={days}; must have magnitude <= 999999999"
  | .durationWord => "Python int too large to convert to C int"
  | .fieldAbove => "signed integer is greater than maximum"
  | .fieldBelow => "signed integer is less than minimum"
  | .fieldWord => "Python int too large to convert to C long"

namespace Mail

/-- The hours and minutes, as a number of up to four digits, of the zones with a name. -/
def zones : List (String × Int) := [
  ("UT", 0), ("UTC", 0), ("GMT", 0), ("Z", 0), ("AST", -400), ("ADT", -300), ("EST", -500),
  ("EDT", -400), ("CST", -600), ("CDT", -500), ("MST", -700), ("MDT", -600), ("PST", -800),
  ("PDT", -700)]

/-- The number of the month with a name or an abbreviation. -/
def month? (name : List Char) : Option Nat :=
  let find (names : List String) : Option Nat :=
    (names.findIdx? fun month => Text.lowered month.toList == Text.lowered name).map (· + 1)
  (find monthAbbreviations).or (find monthNames)

/-- Whether a word is the abbreviated name of a day of the week. -/
def isWeekday (word : List Char) : Bool :=
  weekdayAbbreviations.any fun name => Text.lowered name.toList == Text.lowered word

/-- Leave out one comma at the end. -/
def dropComma (word : List Char) : List Char :=
  if word.getLast? == some ',' then word.dropLast else word

/-- Leave out the weekday, which is the first word if it ends in a comma or is a name, and
otherwise what the first word holds up to its last comma. -/
def dropWeekday : List (List Char) → List (List Char)
  | [] => []
  | word :: rest =>
    if word.getLast? == some ',' || isWeekday word then rest
    else (word.reverse.takeWhile (· != ',')).reverse :: rest

/-- Take day, month and year apart where hyphens join them. -/
def splitDay (words : List (List Char)) : List (List Char) :=
  match words with
  | [day, time, zone] =>
    match Text.splitBy (· == '-') day with
    | [d, m, y] => [d, m, y, time, zone]
    | _ => words
  | _ => words

/-- Take the zone off the time where no blank is between them. -/
def splitZone (words : List (List Char)) : List (List Char) :=
  match words with
  | [day, month, year, time] =>
    let sign := if time.contains '+' then '+' else '-'
    let before := time.takeWhile (· != sign)
    if before.isEmpty || before.length == time.length then words ++ [[]]
    else [day, month, year, before, time.drop before.length]
  | _ => words

/-- The five words of a date line. -/
structure Line where
  day : List Char
  month : List Char
  year : List Char
  time : List Char
  zone : List Char

/-- Read the words of a date line. -/
def Line.ofWords (words : List (List Char)) : Option Line :=
  match splitZone (splitDay (dropWeekday words)) with
  | day :: month :: year :: time :: zone :: _ =>
    if day.isEmpty || month.isEmpty || year.isEmpty then none
    else some ⟨day, month, year, time, zone⟩
  | _ => none

/-- Put day and month in their places. -/
def Line.orderDay (line : Line) : Option (Line × Nat) :=
  match month? line.month with
  | some month => some (line, month)
  | none =>
    (month? line.day).map fun month => ({ line with day := line.month, month := line.day }, month)

/-- Put year, time and zone in their places. -/
def Line.orderYear (line : Line) : Option Line :=
  let line :=
    if line.year.head? != some ':' && line.year.contains ':' then
      { line with year := line.time, time := line.year }
    else line
  let year := dropComma line.year
  match year with
  | [] => none
  | c :: _ =>
    if Text.isAnyDigit c then some { line with year }
    else some { line with year := line.zone, zone := year }

/-- The hours, minutes and seconds of a time. -/
def timeParts (time : List Char) : Option (List Char × List Char × List Char) :=
  let parts (mark : Char) (cs : List Char) :=
    match Text.splitBy (· == mark) cs with
    | [hour, minute] => some (hour, minute, ['0'])
    | [hour, minute, second] => some (hour, minute, second)
    | _ => none
  if time.contains ':' then parts ':' time
  else if time.contains '.' then parts '.' time
  else none

private def number? (cs : List Char) : Option Int := (Decimal.readInteger cs).toOption

/-- The full year of a year that may be written in two digits. -/
def fullYear (year : Int) : Int :=
  if year < 100 then if 68 < year then year + 1900 else year + 2000 else year

/-- The seconds of a zone, if it is one. -/
def zoneSeconds? (zone : List Char) : Option Int :=
  let name := String.ofList (zone.flatMap Text.capitals)
  let written :=
    match zones.lookup name with
    | some value => some value
    | none => (number? zone).filter fun value => value != 0 || zone.head? != some '-'
  written.map fun value =>
    let seconds : Int := (value.natAbs / 100 * 3600 + value.natAbs % 100 * 60 : Nat)
    if value < 0 then -seconds else seconds

/-- The offset of so many seconds; none if it is a day or longer. -/
def offsetOfSeconds (seconds : Int) : Except Overflow (Option Offset) :=
  let days := seconds.fdiv 86400
  if days < -2147483648 || 2147483647 < days then .error .durationWord
  else if 999999999 < days.natAbs then .error (.duration days)
  else .ok (Offset.ofMicros (seconds * 1000000)).toOption

/-- Refuse a field that is no machine number. -/
def checkField (value : Int) : Except Overflow Unit :=
  if value < -9223372036854775808 || 9223372036854775807 < value then .error .fieldWord
  else if 2147483647 < value then .error .fieldAbove
  else if value < -2147483648 then .error .fieldBelow
  else .ok ()

/-- The numbers of a date line. -/
structure Fields where
  year : Int
  month : Int
  day : Int
  hour : Int
  minute : Int
  second : Int
  /-- The seconds of the zone, if one is given. -/
  zone : Option Int

namespace Fields

/-- The numbers that a date line gives, if it is one. -/
def ofWords (words : List (List Char)) : Option Fields := do
  let (line, month) ← (← Line.ofWords words).orderDay
  let line := { line with day := dropComma line.day }
  let line ← line.orderYear
  let (hour, minute, second) ← timeParts (dropComma line.time)
  let year ← number? line.year
  let day ← number? line.day
  let hour ← number? hour
  let minute ← number? minute
  let second ← number? second
  return { year := fullYear year, month, day, hour, minute, second, zone := zoneSeconds? line.zone }

/-- The numbers of the moment apart from the zone. -/
def numbers (fields : Fields) : List Int :=
  [fields.year, fields.month, fields.day, fields.hour, fields.minute, fields.second]

/-- The moment with these numbers and an offset, or none if there is no such moment. -/
def moment (fields : Fields) (offset : Option Offset) : Except Overflow (Option Moment) := do
  fields.numbers.forM checkField
  return (Moment.ofFields fields.year fields.month fields.day fields.hour fields.minute
    fields.second 0 offset).toOption

end Fields

/-- The moment that a date line writes, or none if it is no date line. -/
def read? (words : List (List Char)) : Except Overflow (Option Moment) :=
  match Fields.ofWords words with
  | none => .ok none
  | some fields =>
    match fields.zone with
    | none => fields.moment none
    | some seconds => do
      match ← offsetOfSeconds seconds with
      | none => return none
      | some offset => fields.moment (some offset)

end Mail

end Manuscript.Calendar
