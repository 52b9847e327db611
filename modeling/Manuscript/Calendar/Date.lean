import Manuscript.Text.Digit

/-! # Dates

A date is a day of a year from 1 to 9999 in the calendar whose leap years are
those divisible by four, other than the centuries not divisible by four
hundred. `Date.ofFields` accepts exactly the triples of numbers that name a
day, and says which number is out of range otherwise.
-/

namespace Manuscript.Calendar

/-- Whether February has twenty-nine days. -/
def isLeap (year : Nat) : Bool :=
  year % 4 == 0 && (year % 100 != 0 || year % 400 == 0)

/-- The number of days of a month. -/
def daysIn (year month : Nat) : Nat :=
  match month with
  | 2 => if isLeap year then 29 else 28
  | 4 | 6 | 9 | 11 => 30
  | _ => 31

/-- The number that keeps fields from naming a moment. -/
inductive FieldError where
  | year (value : Int)
  | month
  | day
  | hour
  | minute
  | second
  | microsecond
  /-- The offset, in microseconds, is a day or longer. -/
  | offset (micros : Int)
  deriving DecidableEq, Repr

/-- A day. -/
structure Date where
  year : Nat
  month : Nat
  day : Nat
  year_range : 1 ≤ year ∧ year ≤ 9999
  month_range : 1 ≤ month ∧ month ≤ 12
  day_range : 1 ≤ day ∧ day ≤ daysIn year month
  deriving DecidableEq, Repr

/-- The day with a year, a month and a day of the month. -/
def Date.ofFields (year month day : Int) : Except FieldError Date :=
  if hy : 1 ≤ year.toNat ∧ year.toNat ≤ 9999 then
    if hm : 1 ≤ month.toNat ∧ month.toNat ≤ 12 then
      if hd : 1 ≤ day.toNat ∧ day.toNat ≤ daysIn year.toNat month.toNat then
        .ok ⟨year.toNat, month.toNat, day.toNat, hy, hm, hd⟩
      else .error .day
    else .error .month
  else .error (.year year)

/-- The numbers of a date are those of a date. -/
theorem Date.ofFields_self (date : Date) :
    Date.ofFields date.year date.month date.day = .ok date := by
  obtain ⟨year, month, day, hy, hm, hd⟩ := date
  simp [Date.ofFields, hy, hm, hd]

/-- The names of the months. -/
def monthNames : List String := [
  "January", "February", "March", "April", "May", "June", "July", "August", "September",
  "October", "November", "December"]

/-- The first three letters of the names of the months. -/
def monthAbbreviations : List String := [
  "Jan", "Feb", "Mar", "Apr", "May", "Jun", "Jul", "Aug", "Sep", "Oct", "Nov", "Dec"]

/-- The first three letters of the names of the days of the week. -/
def weekdayAbbreviations : List String := ["Mon", "Tue", "Wed", "Thu", "Fri", "Sat", "Sun"]

namespace Date

/-- The abbreviated name of the month. -/
def monthAbbreviation (date : Date) : String :=
  monthAbbreviations.getD (date.month - 1) ""

/-- Year, month and day in digits, joined by hyphens. -/
def iso (date : Date) : String :=
  s!"{Text.padded 4 date.year}-{Text.padded 2 date.month}-{Text.padded 2 date.day}"

end Date

/-! ## Weeks

The weeks of a year start on Mondays, and the first of them is the one that
holds the first Thursday of the year.
-/

/-- The number of days before a year, counted from the first day of the year 1, a Monday. -/
def daysBefore (year : Nat) : Nat :=
  let y := year - 1
  365 * y + y / 4 - y / 100 + y / 400

/-- The weekday of the first of January, from 0 for Monday. -/
def firstWeekday (year : Nat) : Nat := daysBefore year % 7

/-- The number of weeks of a year. -/
def weeksIn (year : Nat) : Nat :=
  if firstWeekday year == 3 || (firstWeekday year == 2 && isLeap year) then 53 else 52

/-- The day of a year with a number counted from 1, found month by month. -/
def dayOfYear (year : Nat) : Nat → Nat → Nat → Except FieldError Date
  | 0, month, day => Date.ofFields year month day
  | months + 1, month, day =>
    if day ≤ daysIn year month then Date.ofFields year month day
    else dayOfYear year months (month + 1) (day - daysIn year month)

/-- The day of a week of a year, where weeks and days count from 1. -/
def ofWeek (year week day : Nat) : Option Date :=
  if year < 1 || 9999 < year || week < 1 || weeksIn year < week || day < 1 || 7 < day then none
  else
    let first := firstWeekday year
    let shift : Int := if first ≤ 3 then -(first : Int) else 7 - (first : Int)
    let number : Int := shift + ((week - 1) * 7 + day : Nat)
    let length := if isLeap year then 366 else 365
    let found :=
      if number < 1 then
        let before := if isLeap (year - 1) then 366 else 365
        dayOfYear (year - 1) 11 1 (number + before).toNat
      else if (length : Int) < number then dayOfYear (year + 1) 11 1 (number - length).toNat
      else dayOfYear year 11 1 number.toNat
    found.toOption

end Manuscript.Calendar
