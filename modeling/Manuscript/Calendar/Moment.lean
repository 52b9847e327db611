import Manuscript.Calendar.Date

/-! # Moments

A moment is a day with a time of day, exact to the microsecond, and possibly
an offset from universal time that is shorter than a day. A moment without an
offset is naive.
-/

namespace Manuscript.Calendar

/-- A time of day. -/
structure Clock where
  hour : Nat
  minute : Nat
  second : Nat
  micro : Nat
  hour_lt : hour < 24
  minute_lt : minute < 60
  second_lt : second < 60
  micro_lt : micro < 1000000
  deriving DecidableEq, Repr

/-- The start of the day. -/
def Clock.midnight : Clock := ⟨0, 0, 0, 0, by decide, by decide, by decide, by decide⟩

instance : Inhabited Clock := ⟨Clock.midnight⟩

/-- The time with the given fields. -/
def Clock.ofFields (hour minute second micro : Int) : Except FieldError Clock :=
  if hh : 0 ≤ hour ∧ hour.toNat < 24 then
    if hm : 0 ≤ minute ∧ minute.toNat < 60 then
      if hs : 0 ≤ second ∧ second.toNat < 60 then
        if hu : 0 ≤ micro ∧ micro.toNat < 1000000 then
          .ok ⟨hour.toNat, minute.toNat, second.toNat, micro.toNat, hh.2, hm.2, hs.2, hu.2⟩
        else .error .microsecond
      else .error .second
    else .error .minute
  else .error .hour

/-- A distance from universal time in microseconds, to the east if positive. -/
structure Offset where
  micros : Int
  lower : -86400000000 < micros
  upper : micros < 86400000000
  deriving DecidableEq, Repr

/-- No distance from universal time. -/
def Offset.zero : Offset := ⟨0, by decide, by decide⟩

/-- The offset of so many microseconds. -/
def Offset.ofMicros (micros : Int) : Except FieldError Offset :=
  if h : -86400000000 < micros ∧ micros < 86400000000 then .ok ⟨micros, h.1, h.2⟩
  else .error (.offset micros)

/-- A day, a time of day and perhaps an offset from universal time. -/
structure Moment where
  date : Date
  clock : Clock := .midnight
  offset : Option Offset := none
  deriving DecidableEq, Repr

/-- The naive start of a day. -/
def Date.midnight (date : Date) : Moment := { date }

/-- The moment with the given fields; the first field out of range is reported. -/
def Moment.ofFields (year month day hour minute second micro : Int) (offset : Option Offset) :
    Except FieldError Moment := do
  let date ← Date.ofFields year month day
  let clock ← Clock.ofFields hour minute second micro
  return { date, clock, offset }

/-- Hours, minutes and seconds in digits, and the microseconds if there are any. -/
def Clock.iso (clock : Clock) : String :=
  s!"{Text.padded 2 clock.hour}:{Text.padded 2 clock.minute}:{Text.padded 2 clock.second}" ++
    if clock.micro = 0 then "" else "." ++ Text.padded 6 clock.micro

/-- The sign, hours and minutes of an offset, and as many of its seconds and microseconds as are
not zero. -/
def Offset.iso (offset : Offset) : String :=
  let micros := offset.micros.natAbs
  let seconds := micros / 1000000
  (if offset.micros < 0 then "-" else "+") ++
    s!"{Text.padded 2 (seconds / 3600)}:{Text.padded 2 (seconds / 60 % 60)}" ++
    (if seconds % 60 = 0 ∧ micros % 1000000 = 0 then "" else ":" ++ Text.padded 2 (seconds % 60)) ++
    (if micros % 1000000 = 0 then "" else "." ++ Text.padded 6 (micros % 1000000))

/-- Date, a mark, time and offset. -/
def Moment.isoWith (mark : String) (moment : Moment) : String :=
  moment.date.iso ++ mark ++ moment.clock.iso ++ (moment.offset.map Offset.iso).getD ""

/-- Date, the letter T, time and offset. -/
def Moment.iso (moment : Moment) : String := moment.isoWith "T"

/-- The whole seconds since the start of the year 1 in universal time, and the microseconds. -/
def Moment.absolute (moment : Moment) : Int :=
  let date := moment.date
  let monthStart := (List.range (date.month - 1)).foldl
    (fun days month => days + daysIn date.year (month + 1)) (daysBefore date.year)
  let days := monthStart + (date.day - 1)
  let clock := moment.clock
  let seconds := ((days * 24 + clock.hour) * 60 + clock.minute) * 60 + clock.second
  (seconds * 1000000 + clock.micro : Nat) - (moment.offset.map Offset.micros).getD 0

/-- An offset as a duration: days, and seconds and microseconds that are not negative. -/
def durationParts (micros : Int) : Int × Int × Int :=
  let days := micros.fdiv 86400000000
  let left := micros - days * 86400000000
  (days, left / 1000000, left % 1000000)

end Manuscript.Calendar
