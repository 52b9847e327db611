import Manuscript.FrontMatter.TitleBlock
import Manuscript.Proofs.Calendar.WrittenDay
import Manuscript.Proofs.Text.PlainBytes

/-! # Timestamps that are read back

The standard form of a moment is read as a timestamp. Its date, its time and the fraction of
its seconds come back as they were written, and so does its offset, unless the offset is
shorter than a second (`read_iso`).
-/

namespace Manuscript

namespace Calendar

open Text (IsNumeral padded octets octets_cons octets_append toNat_toUInt8)

namespace Iso

/-! ## Numbers -/

theorem digits_cons {count value : Nat} {c : Char} (hc : c.isDigit = true) (bs : List Byte) :
    digits (count + 1) value (c.toUInt8 :: bs) =
      digits count (value * 10 + (c.toNat - 48)) bs := by
  have hrange := Text.toNat_of_isDigit hc
  have hbyte := toNat_toUInt8 (c := c) (by omega)
  have hdigit : (decide ((0x30 : Byte) ≤ c.toUInt8) && decide (c.toUInt8 ≤ 0x39)) = true := by
    simp only [UInt8.le_iff_toNat_le, hbyte, Bool.and_eq_true, decide_eq_true_eq]
    exact hrange
  -- A byte is taken for a digit by its bounds alone.
  have hstep : digits (count + 1) value (c.toUInt8 :: bs) =
      if (decide ((0x30 : Byte) ≤ c.toUInt8) && decide (c.toUInt8 ≤ 0x39)) = true then
        digits count (value * 10 + (c.toUInt8.toNat - 0x30)) bs else none := rfl
  rw [hstep, if_pos hdigit, hbyte]

/-- A numeral is read whole. -/
theorem digits_numeral {cs : List Char} {n : Nat} (hcs : IsNumeral cs n) (bs : List Byte) :
    digits cs.length 0 (octets cs ++ bs) = some (n, bs) := by
  obtain ⟨hdigits, rfl⟩ := hcs
  generalize 0 = value
  induction cs generalizing value with
  | nil => rfl
  | cons c cs ih =>
      rw [List.forall_mem_cons] at hdigits
      rw [List.length_cons, octets, List.map_cons, List.cons_append, digits_cons hdigits.1]
      exact (ih hdigits.2 _).trans (by rw [Nat.mul_comm]; rfl)

/-- Padded digits are read back as their number. -/
theorem digits_padded {width n : Nat} (hwidth : 0 < width) (hn : n < 10 ^ width) (bs : List Byte) :
    digits width 0 (octets (padded width n).toList ++ bs) = some (n, bs) := by
  have hread := digits_numeral (Text.isNumeral_padded width n) bs
  rwa [Text.length_padded hwidth hn] at hread

/-- The bytes of a padded number start with a digit. -/
theorem head?_octets_padded (width n : Nat) (bs : List Byte) :
    ∃ b, (octets (padded width n).toList ++ bs).head? = some b ∧ b.toNat ≤ 57 := by
  have hdigits := (Text.isNumeral_padded width n).digits
  obtain ⟨c, cs, hcs⟩ := List.exists_cons_of_ne_nil (Text.padded_ne_nil width n)
  rw [hcs, List.forall_mem_cons] at hdigits
  have hrange := Text.toNat_of_isDigit hdigits.1
  rw [hcs]
  refine ⟨c.toUInt8, rfl, ?_⟩
  rw [toNat_toUInt8 (by omega)]
  exact hrange.2

theorem octets_padded_ne_nil (width n : Nat) (bs : List Byte) :
    octets (padded width n).toList ++ bs ≠ [] := by
  obtain ⟨b, hb, _⟩ := head?_octets_padded width n bs
  rintro hnil
  rw [hnil] at hb
  cases hb

end Iso

/-! ## Dates -/

namespace Date

theorem toList_iso (date : Date) :
    date.iso.toList = (padded 4 date.year).toList ++ '-' :: ((padded 2 date.month).toList ++
      '-' :: (padded 2 date.day).toList) := by
  simp [iso, Text.toString_text]

theorem year_lt (date : Date) : date.year < 10 ^ 4 := Nat.lt_succ_of_le date.year_range.2

theorem month_lt (date : Date) : date.month < 10 ^ 2 := by
  have hmonth := date.month_range
  omega

theorem day_lt (date : Date) : date.day < 10 ^ 2 := by
  have hday := date.day_range
  have hle := daysIn_le date.year date.month
  omega

end Date

namespace Iso

/-- The month does not start with the letter of weeks. -/
theorem head?_month_ne (date : Date) (bs : List Byte) :
    (octets (padded 2 date.month).toList ++ bs).head? ≠ some 0x57 := by
  obtain ⟨b, hb, hle⟩ := head?_octets_padded 2 date.month bs
  rw [hb, ne_eq, Option.some.injEq]
  rintro rfl
  exact absurd hle (by decide)

/-- The written form of a date is read back. -/
theorem date?_iso (date : Date) : date? (octets date.iso.toList) = some date := by
  rw [date.toList_iso, octets_append, octets_cons, octets_append, octets_cons,
    ← List.append_nil (octets (padded 2 date.day).toList)]
  have hread := date?_of_hyphens (digits_padded (by decide) date.year_lt _)
    (head?_month_ne date _) (digits_padded (by decide) date.month_lt _)
    (digits_padded (by decide) date.day_lt _)
  rw [Date.ofFields_self] at hread
  exact hread

theorem length_iso (date : Date) : (octets date.iso.toList).length = 10 := by
  have hyear := Text.length_padded (by decide) date.year_lt
  have hmonth := Text.length_padded (by decide) date.month_lt
  have hday := Text.length_padded (by decide) date.day_lt
  simp [octets, date.toList_iso, hyear, hmonth, hday]

/-- The written form of a date is told from what follows it. -/
theorem dateLength_iso (date : Date) (bs : List Byte) :
    dateLength (octets date.iso.toList ++ bs) = some 10 := by
  have hyear : (octets (padded 4 date.year).toList).length = 4 := by
    rw [octets, List.length_map, Text.length_padded (by decide) date.year_lt]
  have hlength := length_iso date
  -- The fifth byte is the first hyphen, and the sixth one starts the month.
  refine dateLength_of_hyphen ?_ ?_ ?_
  · rw [List.length_append]
    omega
  · rw [date.toList_iso, octets_append, octets_cons, List.append_assoc,
      List.getElem?_append_right (by omega), hyear]
    rfl
  · rw [date.toList_iso, octets_append, octets_cons, octets_append, List.append_assoc,
      List.getElem?_append_right (by omega), hyear, List.cons_append, List.append_assoc,
      List.getElem?_cons_succ, ← List.head?_eq_getElem?]
    exact head?_month_ne date _

/-- A date and a time that is read make a moment. -/
theorem moment?_iso {date : Date} {cs : List Char} {clock : Clock} {offset : Option Offset}
    (hplain : ∀ c ∈ date.iso.toList ++ 'T' :: cs, c.toNat < 128)
    (htime : time? (octets cs) = some (clock, offset)) :
    moment? (String.ofList (date.iso.toList ++ 'T' :: cs)) = some { date, clock, offset } := by
  have hlength := length_iso date
  have htake : (octets date.iso.toList ++ octets ('T' :: cs)).take 10 = octets date.iso.toList := by
    rw [← hlength, List.take_left]
  have hdrop : (octets date.iso.toList ++ octets ('T' :: cs)).drop 10 = 0x54 :: octets cs := by
    rw [← hlength, List.drop_left]
    rfl
  have hlong : ¬ (octets date.iso.toList ++ octets ('T' :: cs)).length < 7 := by
    rw [List.length_append]
    omega
  simp only [moment?]
  rw [Text.toList_toUTF8 hplain, octets_append, if_neg hlong, dateLength_iso]
  simp only [Option.bind_eq_bind, Option.bind_some, htake, hdrop, date?_iso]
  exact (congrArg (Option.bind · _) htime).trans rfl

/-! ## Times -/

/-- The texts of a time: hours and minutes, perhaps seconds, perhaps a fraction of six digits. -/
inductive TimeText (hour minute : Nat) : Nat → Nat → List Char → Prop
  | minutes : TimeText hour minute 0 0
      ((padded 2 hour).toList ++ ':' :: ((padded 2 minute).toList ++ []))
  | seconds (second : Nat) : TimeText hour minute second 0
      ((padded 2 hour).toList ++ ':' :: ((padded 2 minute).toList ++
        ':' :: ((padded 2 second).toList ++ [])))
  | fraction (second micro : Nat) : TimeText hour minute second micro
      ((padded 2 hour).toList ++ ':' :: ((padded 2 minute).toList ++
        ':' :: ((padded 2 second).toList ++ '.' :: ((padded 6 micro).toList ++ []))))

/-- Six digits of a fraction are read as they are. -/
theorem fraction_padded {micro : Nat} (hmicro : micro < 1000000) :
    fraction (octets (padded 6 micro).toList ++ []) = some (micro, []) := by
  have hlength : (octets (padded 6 micro).toList ++ []).length = 6 := by
    rw [List.append_nil, octets, List.length_map, Text.length_padded (by decide) hmicro]
  simp only [fraction]
  rw [hlength, Nat.min_self, digits_padded (by decide) hmicro]
  simp

theorem reading?_of_numbers {bs rest : List Byte} {read : List Nat} {micro : Nat}
    (hnumbers : numbers 3 true true [] bs = some (read, micro, rest)) :
    reading? bs = some ⟨read.getD 0 0, read.getD 1 0, read.getD 2 0, micro, rest⟩ := by
  simp [reading?, hnumbers]

theorem TimeText.reading?_eq {hour minute second micro : Nat} {cs : List Char}
    (htext : TimeText hour minute second micro cs) (hhour : hour < 100) (hminute : minute < 100)
    (hsecond : second < 100) (hmicro : micro < 1000000) :
    reading? (octets cs) = some ⟨hour, minute, second, micro, []⟩ := by
  have hread {n : Nat} (hn : n < 100) (bs : List Byte) :
      digits 2 0 (octets (padded 2 n).toList ++ bs) = some (n, bs) :=
    digits_padded (by decide) hn bs
  have hne := octets_padded_ne_nil 2
  cases htext with
  | minutes =>
      rw [octets_append, octets_cons, octets_append]
      exact reading?_of_numbers ((numbers_of_colon (hread hhour _) (hne _ _)).trans
        (numbers_of_end (hread hminute _)))
  | seconds =>
      rw [octets_append, octets_cons, octets_append, octets_cons, octets_append]
      exact reading?_of_numbers ((numbers_of_colon (hread hhour _) (hne _ _)).trans
        ((numbers_of_colon (hread hminute _) (hne _ _)).trans (numbers_of_end (hread hsecond _))))
  | fraction =>
      rw [octets_append, octets_cons, octets_append, octets_cons, octets_append, octets_cons,
        octets_append]
      have hpoint : numbers 1 false true [hour, minute] _ = _ :=
        numbers_of_point (hread hsecond _) (octets_padded_ne_nil 6 micro [])
      rw [fraction_padded hmicro] at hpoint
      exact reading?_of_numbers ((numbers_of_colon (hread hhour _) (hne _ _)).trans
        ((numbers_of_colon (hread hminute _) (hne _ _)).trans hpoint))

/-- Digits, colons and points are among the characters from the point to the colon. -/
def IsTimeChar (c : Char) : Prop := 46 ≤ c.toNat ∧ c.toNat ≤ 58

theorem isTimeChar_padded (width n : Nat) : ∀ c ∈ (padded width n).toList, IsTimeChar c := by
  intro c hmem
  have hrange := Text.toNat_of_isDigit ((Text.isNumeral_padded width n).digits c hmem)
  exact ⟨by omega, by omega⟩

theorem TimeText.isTimeChar {hour minute second micro : Nat} {cs : List Char}
    (htext : TimeText hour minute second micro cs) : ∀ c ∈ cs, IsTimeChar c := by
  have hpadded := isTimeChar_padded
  have hcolon : IsTimeChar ':' := ⟨by decide, by decide⟩
  have hpoint : IsTimeChar '.' := ⟨by decide, by decide⟩
  have hnil : ∀ c ∈ [], IsTimeChar c := nofun
  cases htext <;> simp only [List.forall_mem_append, List.forall_mem_cons]
  case minutes => exact ⟨hpadded 2 _, hcolon, hpadded 2 _, hnil⟩
  case seconds => exact ⟨hpadded 2 _, hcolon, hpadded 2 _, hcolon, hpadded 2 _, hnil⟩
  case fraction =>
    exact ⟨hpadded 2 _, hcolon, hpadded 2 _, hcolon, hpadded 2 _, hpoint, hpadded 6 _, hnil⟩

theorem IsTimeChar.isPlain {c : Char} (hc : IsTimeChar c) : IsPlain c.toUInt8 := by
  have hbyte := toNat_toUInt8 (c := c) (Nat.lt_of_le_of_lt hc.2 (by decide))
  refine ⟨?_, ?_, ?_⟩ <;> intro heq <;> rw [heq] at hbyte
  · exact absurd (hbyte ▸ hc.1) (by decide)
  · exact absurd (hbyte ▸ hc.1) (by decide)
  · exact absurd (hbyte ▸ hc.2) (by decide)

theorem TimeText.isPlain {hour minute second micro : Nat} {cs : List Char}
    (htext : TimeText hour minute second micro cs) : ∀ b ∈ octets cs, IsPlain b := by
  intro b hmem
  obtain ⟨c, hc, rfl⟩ := List.mem_map.mp hmem
  exact (htext.isTimeChar c hc).isPlain

theorem timeText_clock (clock : Clock) :
    TimeText clock.hour clock.minute clock.second clock.micro clock.iso.toList := by
  by_cases hmicro : clock.micro = 0
  · have htext : TimeText clock.hour clock.minute clock.second 0 _ := .seconds clock.second
    simpa [Clock.iso, hmicro, Text.toString_text] using htext
  · have htext : TimeText clock.hour clock.minute clock.second clock.micro _ := .fraction _ _
    simpa [Clock.iso, hmicro, Text.toString_text] using htext

theorem reading?_clock (clock : Clock) :
    reading? (octets clock.iso.toList) =
      some ⟨clock.hour, clock.minute, clock.second, clock.micro, []⟩ := by
  have hhour := clock.hour_lt
  have hminute := clock.minute_lt
  have hsecond := clock.second_lt
  exact (timeText_clock clock).reading?_eq (by omega) (by omega) (by omega) clock.micro_lt

/-! ## Offsets -/

/-- The text of an offset without its sign. -/
def DistanceText (offset : Offset) (cs : List Char) : Prop :=
  TimeText (offset.micros.natAbs / 1000000 / 3600) (offset.micros.natAbs / 1000000 / 60 % 60)
    (offset.micros.natAbs / 1000000 % 60) (offset.micros.natAbs % 1000000) cs

theorem exists_distanceText (offset : Offset) :
    ∃ cs, offset.iso.toList = (if offset.micros < 0 then '-' else '+') :: cs ∧
      DistanceText offset cs := by
  have hsign : (if offset.micros < 0 then "-" else "+").toList =
      [if offset.micros < 0 then '-' else '+'] := by
    split <;> rfl
  simp only [Offset.iso, DistanceText, String.toList_append, hsign, Text.toString_text]
  generalize offset.micros.natAbs / 1000000 = seconds
  generalize offset.micros.natAbs % 1000000 = micros
  refine ⟨_, rfl, ?_⟩
  by_cases hmicros : micros = 0
  · subst hmicros
    by_cases hseconds : seconds % 60 = 0
    · have htext : TimeText (seconds / 3600) (seconds / 60 % 60) 0 0 _ := .minutes
      simpa [hseconds] using htext
    · have htext : TimeText (seconds / 3600) (seconds / 60 % 60) (seconds % 60) 0 _ := .seconds _
      simpa [hseconds] using htext
  · have htext : TimeText (seconds / 3600) (seconds / 60 % 60) (seconds % 60) micros _ :=
      .fraction _ _
    simpa [hmicros] using htext

end Iso

theorem Offset.ofMicros_self (offset : Offset) : Offset.ofMicros offset.micros = .ok offset :=
  dif_pos ⟨offset.lower, offset.upper⟩

/-- The offset as it is read back: one that is shorter than a second is lost. -/
def Offset.kept (offset : Offset) : Offset :=
  if offset.micros.natAbs < 1000000 then .zero else offset

theorem Offset.kept_eq_iff (offset : Offset) :
    offset.kept = offset ↔ offset.micros = 0 ∨ 1000000 ≤ offset.micros.natAbs := by
  obtain ⟨micros, hlower, hupper⟩ := offset
  simp only [kept]
  split
  next hshort =>
    rw [Offset.zero, Offset.mk.injEq]
    constructor
    · exact fun heq => .inl heq.symm
    · rintro (heq | hlong)
      · exact heq.symm
      · exact absurd hlong (by omega)
  next hlong => simpa using .inr (by omega)

namespace Iso

theorem offset?_iso {offset : Offset} {cs : List Char} (htext : DistanceText offset cs) :
    offset? (decide (offset.micros < 0)) (octets cs) = some offset.kept := by
  have hlower := offset.lower
  have hupper := offset.upper
  have hread := TimeText.reading?_eq htext (by omega) (by omega) (by omega) (by omega)
  have hseconds : offset.micros.natAbs / 1000000 / 3600 * 3600 +
      offset.micros.natAbs / 1000000 / 60 % 60 * 60 + offset.micros.natAbs / 1000000 % 60 =
        offset.micros.natAbs / 1000000 := by omega
  simp only [offset?, hread, Option.bind_eq_bind, Option.bind_some, Reading.isComplete, hseconds,
    Bool.not_true, Bool.false_eq_true, if_false, decide_eq_true_eq]
  by_cases hshort : offset.micros.natAbs < 1000000
  · -- Without whole seconds there is no offset, whatever its fraction says.
    have hnone : offset.micros.natAbs / 1000000 = 0 := by omega
    simp only [if_pos hnone, Int.neg_zero, ite_self, Offset.kept, if_pos hshort]
    exact congrArg Except.toOption (Offset.ofMicros_self .zero)
  · have hsome : ¬ offset.micros.natAbs / 1000000 = 0 := by omega
    have hmicros : (if offset.micros < 0 then
        -((offset.micros.natAbs / 1000000 * 1000000 + offset.micros.natAbs % 1000000 : Nat) : Int)
        else (offset.micros.natAbs / 1000000 * 1000000 + offset.micros.natAbs % 1000000 : Nat)) =
          offset.micros := by
      split <;> omega
    simp only [if_neg hsome, Offset.kept, if_neg hshort, hmicros, Offset.ofMicros_self]
    rfl

/-! ## Moments -/

theorem ofFields_clock (clock : Clock) :
    (Clock.ofFields clock.hour clock.minute clock.second clock.micro).toOption = some clock :=
  congrArg Except.toOption clock.ofFields_self

theorem time?_iso (clock : Clock) (offset : Option Offset) :
    time? (octets (clock.iso ++ (offset.map Offset.iso).getD "").toList) =
      some (clock, offset.map Offset.kept) := by
  have hplain := (timeText_clock clock).isPlain
  cases offset with
  | none =>
      have htime := time?_of_plain hplain (reading?_clock clock)
      rw [ofFields_clock] at htime
      simpa using htime
  | some offset =>
      obtain ⟨cs, hcs, htext⟩ := exists_distanceText offset
      have hread := offset?_iso htext
      obtain ⟨sign, hsign, hcut, hwest⟩ : ∃ sign : Byte, (sign = 0x2b ∨ sign = 0x2d) ∧
          octets offset.iso.toList = sign :: octets cs ∧
            (sign == 0x2d) = decide (offset.micros < 0) := by
        rw [hcs, octets_cons]
        by_cases hneg : offset.micros < 0
        · rw [if_pos hneg, decide_eq_true hneg]
          exact ⟨_, .inr rfl, rfl, rfl⟩
        · rw [if_neg hneg, decide_eq_false hneg]
          exact ⟨_, .inl rfl, rfl, rfl⟩
      have htime : time? (octets clock.iso.toList ++ sign :: octets cs) = _ :=
        time?_of_sign hplain hsign (reading?_clock clock)
      rw [ofFields_clock, hwest, Option.bind_some, hread] at htime
      rw [Option.map_some, Option.getD_some, String.toList_append, octets_append, hcut, htime]
      rfl

/-- Signs, digits, colons and points are among the characters from the plus to the colon. -/
def IsStampChar (c : Char) : Prop := 43 ≤ c.toNat ∧ c.toNat ≤ 58

theorem IsTimeChar.isStampChar {c : Char} (hc : IsTimeChar c) : IsStampChar c :=
  ⟨Nat.le_trans (by decide) hc.1, hc.2⟩

theorem IsStampChar.not_blank {c : Char} (hc : IsStampChar c) : Text.isBlank c = false := by
  obtain ⟨hlow, hhigh⟩ := hc
  simp only [Text.isBlank, Bool.or_eq_false_iff, Bool.and_eq_false_iff, decide_eq_false_iff_not,
    beq_eq_false_iff_ne]
  omega

theorem isStampChar_date (date : Date) : ∀ c ∈ date.iso.toList, IsStampChar c := by
  have hpadded (width n : Nat) := fun c hmem => (isTimeChar_padded width n c hmem).isStampChar
  have hhyphen : IsStampChar '-' := ⟨by decide, by decide⟩
  rw [date.toList_iso]
  simp only [List.forall_mem_append, List.forall_mem_cons]
  exact ⟨hpadded 4 _, hhyphen, hpadded 2 _, hhyphen, hpadded 2 _⟩

theorem isStampChar_time (clock : Clock) (offset : Option Offset) :
    ∀ c ∈ (clock.iso ++ (offset.map Offset.iso).getD "").toList, IsStampChar c := by
  have hclock := fun c hmem => ((timeText_clock clock).isTimeChar c hmem).isStampChar
  rw [String.toList_append, List.forall_mem_append]
  refine ⟨hclock, ?_⟩
  cases offset with
  | none => nofun
  | some offset =>
      obtain ⟨cs, hcs, htext⟩ := exists_distanceText offset
      rw [Option.map_some, Option.getD_some, hcs, List.forall_mem_cons]
      refine ⟨?_, fun c hmem => (TimeText.isTimeChar htext c hmem).isStampChar⟩
      split
      · exact ⟨by decide, by decide⟩
      · exact ⟨by decide, by decide⟩

end Iso

namespace Moment

theorem toList_iso (moment : Moment) :
    moment.iso.toList = moment.date.iso.toList ++
      'T' :: (moment.clock.iso ++ (moment.offset.map Offset.iso).getD "").toList := by
  simp [iso, isoWith]

/-- The letter T stands alone among signs, digits, colons and points. -/
theorem stampChar_or_letter (moment : Moment) :
    ∀ c ∈ moment.iso.toList, c = 'T' ∨ Iso.IsStampChar c := by
  rw [toList_iso]
  intro c hmem
  rcases List.mem_append.mp hmem with hdate | hrest
  · exact .inr (Iso.isStampChar_date moment.date c hdate)
  · rcases List.mem_cons.mp hrest with rfl | htime
    · exact .inl rfl
    · exact .inr (Iso.isStampChar_time moment.clock moment.offset c htime)

theorem letters_iso (moment : Moment) : Text.letters moment.iso.toList = ['T'] := by
  have hnone {cs : List Char} (hcs : ∀ c ∈ cs, Iso.IsStampChar c) : Text.letters cs = [] := by
    refine List.filter_eq_nil_iff.mpr fun c hmem halpha => ?_
    have hrange := Text.isAlpha_range halpha
    have hstamp := (hcs c hmem).2
    omega
  have hdate := hnone (Iso.isStampChar_date moment.date)
  have htime := hnone (Iso.isStampChar_time moment.clock moment.offset)
  rw [toList_iso, Text.letters_append, hdate]
  exact congrArg (List.cons 'T') htime

/-- A moment is read from its standard form, but for an offset shorter than a second. -/
theorem read_iso (moment : Moment) :
    read moment.iso = .ok { moment with offset := moment.offset.map Offset.kept } := by
  have hplain : ∀ c ∈ moment.iso.toList, c.toNat < 128 := by
    intro c hmem
    rcases moment.stampChar_or_letter c hmem with rfl | hstamp
    · decide
    · exact Nat.lt_of_le_of_lt hstamp.2 (by decide)
  have hword : Text.IsWord Text.isBlank moment.iso.toList := by
    refine ⟨by simp [toList_iso], fun c hmem => ?_⟩
    rcases moment.stampChar_or_letter c hmem with rfl | hstamp
    · rfl
    · exact hstamp.not_blank
  have hnone : ∀ form ∈ Form.accepted, form.read? moment.iso.toList = none := by
    have hone : ∀ form ∈ Form.accepted, 1 ∉ form.letterCounts := by decide
    intro form hmem
    refine Form.read?_eq_none_of_letters ?_
    rw [letters_iso]
    exact hone form hmem
  refine read_of_timestamp (Text.spread_singleton hword) (by simp) (by simp) hnone rfl ?_
  rw [toList_iso] at hplain ⊢
  exact Iso.moment?_iso hplain (Iso.time?_iso moment.clock moment.offset)

end Moment

theorem Date.read_iso (date : Date) : read date.iso = .ok date.midnight := by
  have hword : Text.IsWord Text.isBlank date.iso.toList :=
    ⟨by simp [Date.toList_iso], fun c hmem => (Iso.isStampChar_date date c hmem).not_blank⟩
  have hspread : Text.Spread Text.isBlank [(padded 4 date.year).toList ++
      '-' :: ((padded 2 date.month).toList ++ '-' :: (padded 2 date.day).toList)]
      date.iso.toList := by
    rw [← Date.toList_iso]
    exact Text.spread_singleton hword
  exact date.read_yearFirst (.inl rfl) (Text.isNumeral_padded 4 _)
    (Text.length_padded (by decide) date.year_lt) .padded .padded hspread

end Calendar

namespace TitleBlock

theorem dateOf_of_read {text : String} {moment : Calendar.Moment}
    (hread : Calendar.read text = .ok moment) : dateOf (.text text) = .ok moment := by
  rw [dateOf, hread]
  rfl

/-- A date and its standard form stand for the same day, and a moment and its standard form for the
same moment, unless it has an offset that is shorter than a second. -/
theorem dateOf_iso (date : Calendar.Date) (moment : Calendar.Moment) :
    dateOf (.text date.iso) = dateOf (.date date) ∧
      dateOf (.text moment.iso) =
          .ok { moment with offset := moment.offset.map Calendar.Offset.kept } ∧
        (dateOf (.text moment.iso) = dateOf (.moment moment) ↔
          ∀ offset ∈ moment.offset, offset.micros = 0 ∨ 1000000 ≤ offset.micros.natAbs) := by
  have hread := dateOf_of_read moment.read_iso
  refine ⟨dateOf_of_read date.read_iso, hread, ?_⟩
  obtain ⟨date, clock, offset⟩ := moment
  rw [hread, dateOf, Except.ok.injEq, Calendar.Moment.mk.injEq]
  cases offset with
  | none => simp
  | some offset => simp [offset.kept_eq_iff]

/-- An offset of a microsecond is lost. -/
theorem dateOf_short_offset :
    let moment : Calendar.Moment := {
      date := ⟨2020, 2, 22, by decide, by decide, by decide⟩
      clock := ⟨15, 18, 37, 0, by decide, by decide, by decide, by decide⟩
      offset := some ⟨1, by decide, by decide⟩ }
    moment.iso = "2020-02-22T15:18:37+00:00:00.000001" ∧
      dateOf (.text moment.iso) ≠ dateOf (.moment moment) := by
  intro moment
  refine ⟨by decide +kernel, fun heq => ?_⟩
  rw [dateOf_of_read moment.read_iso] at heq
  have hsame : moment.offset.map Calendar.Offset.kept = moment.offset :=
    congrArg Calendar.Moment.offset (Except.ok.inj heq)
  exact absurd hsame (by decide)

end TitleBlock

end Manuscript
