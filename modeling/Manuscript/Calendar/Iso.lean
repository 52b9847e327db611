import Manuscript.Calendar.Moment

/-! # Standard timestamps

A standard timestamp is a calendar or week date, with or without hyphens, and
after any one separating character a time, with or without colons, and an
offset. Fractions keep six digits and may follow a point, a comma or a third
colon. Text that a clock reading leaves over is an error at the end of the
timestamp, but is passed over before an offset; a zero byte ends the text.

The reader works on bytes, because the place of the separator is counted in
bytes.
-/

namespace Manuscript.Calendar.Iso

/-- A byte. -/
abbrev Byte := UInt8

private def isDigit (b : Byte) : Bool := 0x30 ≤ b && b ≤ 0x39

private def hyphen : Byte := 0x2d
private def colon : Byte := 0x3a
private def plus : Byte := 0x2b
private def letterW : Byte := 0x57
private def letterZ : Byte := 0x5a

/-- Read exactly so many digits. -/
def digits : Nat → Nat → List Byte → Option (Nat × List Byte)
  | 0, value, bs => some (value, bs)
  | _ + 1, _, [] => none
  | count + 1, value, b :: bs =>
    if isDigit b then digits count (value * 10 + (b.toNat - 0x30)) bs else none

/-- The date written by a whole text. -/
def date? (bs : List Byte) : Option Date := do
  let (year, rest) ← digits 4 0 bs
  let (hyphens, rest) :=
    match rest with
    | b :: more => if b == hyphen then (true, more) else (false, rest)
    | [] => (false, [])
  let separator := if hyphens then [hyphen] else []
  match rest with
  | b :: more =>
    if b == letterW then
      let (week, rest) ← digits 2 0 more
      if rest.isEmpty then ofWeek year week 1
      else
        let rest ← if separator.isPrefixOf rest then some (rest.drop separator.length) else none
        let (day, _) ← digits 1 0 rest
        ofWeek year week day
    else
      let (month, rest) ← digits 2 0 (b :: more)
      let rest ← if separator.isPrefixOf rest then some (rest.drop separator.length) else none
      let (day, rest) ← digits 2 0 rest
      if rest.isEmpty then (Date.ofFields year month day).toOption else none
  | [] => none

/-- Year, month and day between hyphens. -/
theorem date?_of_hyphens {bs more last : List Byte} {year month day : Nat}
    (hyear : digits 4 0 bs = some (year, 0x2d :: more)) (hletter : more.head? ≠ some 0x57)
    (hmonth : digits 2 0 more = some (month, 0x2d :: last))
    (hday : digits 2 0 last = some (day, [])) :
    date? bs = (Date.ofFields year month day).toOption := by
  cases more with
  | nil => cases hmonth
  | cons b more =>
    rw [List.head?_cons, ne_eq, Option.some.injEq] at hletter
    simp [date?, hyear, hmonth, hday, hletter, hyphen, letterW]

/-- Where the date of a timestamp ends. -/
def dateLength (bs : List Byte) : Option Nat :=
  if bs.length == 7 then some 7
  else if bs[4]? == some hyphen then
    if bs[5]? == some letterW then
      if bs[8]? == some hyphen then
        if bs.length == 9 then none
        else if (bs[10]?.map isDigit).getD false then some 8
        else some 10
      else some 8
    else some 10
  else if bs[4]? == some letterW then
    let after := 7 + ((bs.drop 7).takeWhile isDigit).length
    if after < 9 then some after else if after % 2 == 0 then some 7 else some 8
  else some 8

theorem dateLength_of_hyphen {bs : List Byte} (hlong : bs.length ≠ 7)
    (hhyphen : bs[4]? = some 0x2d) (hletter : bs[5]? ≠ some 0x57) : dateLength bs = some 10 := by
  simp [dateLength, hlong, hhyphen, hletter, hyphen, letterW]

/-- What a clock reading says, and what it leaves over. -/
structure Reading where
  hour : Nat
  minute : Nat
  second : Nat
  micro : Nat
  rest : List Byte

/-- Nothing is left over, or what is left starts with a zero byte. -/
def Reading.isComplete (reading : Reading) : Bool :=
  match reading.rest with
  | [] => true
  | b :: _ => b == 0

/-- Read up to six digits of a fraction and pass over further ones. -/
def fraction (bs : List Byte) : Option (Nat × List Byte) := do
  let count := min bs.length 6
  let (value, rest) ← digits count 0 bs
  return (value * Nat.pow 10 (6 - count), rest.dropWhile isDigit)

/-- Read the numbers of a clock: `left` is how many more of them there may be, and `colons` says
whether they stand between colons. -/
def numbers (left : Nat) (first colons : Bool) (read : List Nat) (bs : List Byte) :
    Option (List Nat × Nat × List Byte) :=
  match left with
  | 0 => (fraction bs).map fun (micro, rest) => (read, micro, rest)
  | left + 1 => do
    let (value, rest) ← digits 2 0 bs
    let read := read ++ [value]
    match rest with
    | [] => some (read, 0, [])
    | [b] => some (read, 0, [b])
    | b :: more =>
      let colons := if first then b == colon else colons
      if colons && b == colon then numbers left false colons read more
      else if b == 0x2e || b == 0x2c then
        (fraction more).map fun (micro, rest) => (read, micro, rest)
      else if colons then none
      else numbers left false colons read rest

/-- The last number of a clock. -/
theorem numbers_of_end {left value : Nat} {first colons : Bool} {read : List Nat} {bs : List Byte}
    (hvalue : digits 2 0 bs = some (value, [])) :
    numbers (left + 1) first colons read bs = some (read ++ [value], 0, []) := by
  simp [numbers, hvalue]

/-- A number before a colon; the first such number says that colons follow. -/
theorem numbers_of_colon {left value : Nat} {first : Bool} {read : List Nat} {bs more : List Byte}
    (hvalue : digits 2 0 bs = some (value, 0x3a :: more)) (hmore : more ≠ []) :
    numbers (left + 1) first true read bs = numbers left false true (read ++ [value]) more := by
  cases more with
  | nil => exact absurd rfl hmore
  | cons b more => simp [numbers, hvalue, colon]

/-- A number before a point and a fraction. -/
theorem numbers_of_point {left value : Nat} {first colons : Bool} {read : List Nat}
    {bs more : List Byte} (hvalue : digits 2 0 bs = some (value, 0x2e :: more))
    (hmore : more ≠ []) : numbers (left + 1) first colons read bs =
      (fraction more).map fun (micro, rest) => (read ++ [value], micro, rest) := by
  cases more with
  | nil => exact absurd rfl hmore
  | cons b more => simp [numbers, hvalue, colon]

/-- Read a clock. -/
def reading? (bs : List Byte) : Option Reading := do
  let (read, micro, rest) ← numbers 3 true true [] bs
  return ⟨read.getD 0 0, read.getD 1 0, read.getD 2 0, micro, rest⟩

/-- The offset that follows a sign. An offset without whole seconds is none at all. -/
def offset? (west : Bool) (bs : List Byte) : Option Offset := do
  let reading ← reading? bs
  if !reading.isComplete then none
  else
    let seconds := reading.hour * 3600 + reading.minute * 60 + reading.second
    let micros : Int := if seconds = 0 then 0 else (seconds * 1000000 + reading.micro : Nat)
    (Offset.ofMicros (if west then -micros else micros)).toOption

/-- The time and offset written by a whole text. -/
def time? (bs : List Byte) : Option (Clock × Option Offset) := do
  let isSign (b : Byte) := b == plus || b == hyphen || b == letterZ
  let reading ← reading? (bs.takeWhile (!isSign ·))
  let clock ← (Clock.ofFields reading.hour reading.minute reading.second reading.micro).toOption
  match bs.dropWhile (!isSign ·) with
  | [] => if reading.isComplete then some (clock, none) else none
  | sign :: rest =>
    if sign == letterZ then
      if rest.isEmpty || rest.head? == some 0 then some (clock, some .zero) else none
    else (offset? (sign == hyphen) rest).map fun offset => (clock, some offset)

/-- A byte that starts no offset. -/
def IsPlain (b : Byte) : Prop := b ≠ 0x2b ∧ b ≠ 0x2d ∧ b ≠ 0x5a

theorem IsPlain.not_sign {b : Byte} (hplain : IsPlain b) :
    (!(b == plus || b == hyphen || b == letterZ)) = true := by
  simp [hplain.1, hplain.2.1, hplain.2.2, plus, hyphen, letterZ]

/-- A time without a sign in it has no offset. -/
theorem time?_of_plain {bs : List Byte} {hour minute second micro : Nat}
    (hplain : ∀ b ∈ bs, IsPlain b)
    (hreading : reading? bs = some ⟨hour, minute, second, micro, []⟩) :
    time? bs =
      (Clock.ofFields hour minute second micro).toOption.map fun clock => (clock, none) := by
  have hnot := fun b hmem => (hplain b hmem).not_sign
  have htake : (bs ++ []).takeWhile _ = _ := List.takeWhile_append_of_pos hnot
  have hdrop : (bs ++ []).dropWhile _ = _ := List.dropWhile_append_of_pos hnot
  rw [List.append_nil, List.takeWhile_nil, List.append_nil] at htake
  rw [List.append_nil, List.dropWhile_nil] at hdrop
  simp only [time?, htake, hdrop, hreading, Option.bind_eq_bind, Option.bind_some]
  cases (Clock.ofFields hour minute second micro).toOption <;> rfl

/-- A time ends at a sign, after which the offset stands. -/
theorem time?_of_sign {bs rest : List Byte} {sign : Byte} {hour minute second micro : Nat}
    (hplain : ∀ b ∈ bs, IsPlain b) (hsign : sign = 0x2b ∨ sign = 0x2d)
    (hreading : reading? bs = some ⟨hour, minute, second, micro, []⟩) :
    time? (bs ++ sign :: rest) =
      (Clock.ofFields hour minute second micro).toOption.bind fun clock =>
        (offset? (sign == 0x2d) rest).map fun offset => (clock, some offset) := by
  have hnot := fun b hmem => (hplain b hmem).not_sign
  have hstop : (!(sign == plus || sign == hyphen || sign == letterZ)) = false := by
    rcases hsign with rfl | rfl <;> rfl
  have hletter : (sign == letterZ) = false := by
    rcases hsign with rfl | rfl <;> rfl
  have htake : (bs ++ sign :: rest).takeWhile _ = _ := List.takeWhile_append_of_pos hnot
  have hdrop : (bs ++ sign :: rest).dropWhile _ = _ := List.dropWhile_append_of_pos hnot
  rw [List.takeWhile_cons, hstop, if_neg Bool.false_ne_true, List.append_nil] at htake
  rw [List.dropWhile_cons, hstop, if_neg Bool.false_ne_true] at hdrop
  simp only [time?, htake, hdrop, hreading, hletter, Option.bind_eq_bind, Option.bind_some]
  cases (Clock.ofFields hour minute second micro).toOption <;> rfl

/-- The number of bytes of a character, told by its first byte. -/
def charLength (b : Byte) : Nat :=
  if b < 0x80 then 1 else if b &&& 0xf0 == 0xe0 then 3 else if b &&& 0xf0 == 0xf0 then 4 else 2

/-- The moment that a timestamp writes. -/
def moment? (text : String) : Option Moment := do
  let bs := text.toUTF8.toList
  if bs.length < 7 then none
  else
    let length ← dateLength bs
    let date ← date? (bs.take length)
    match bs.drop length with
    | [] => some date.midnight
    | b :: rest =>
      let (clock, offset) ← time? (rest.drop (charLength b - 1))
      some { date, clock, offset }

end Manuscript.Calendar.Iso
