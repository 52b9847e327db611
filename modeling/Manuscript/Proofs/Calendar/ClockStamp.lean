import Manuscript.Proofs.Calendar.WrittenDay

/-! # Clock stamps with the name of a zone

A clock stamp has the abbreviation of a zone before its year. The names of universal time
belong to one of the accepted forms, and every other zone is left out before the stamp is
read. The zone is looked at neither way: a clock stamp is read as the naive moment that
the clock shows (`read_clockStamp`).
-/

namespace Manuscript

namespace Text

theorem map_toUpper_lowered {cs : List Char} (hcs : ∀ c ∈ cs, c.isUpper = true) :
    (lowered cs).map Char.toUpper = cs := by
  rw [lowered, List.map_map]
  refine (List.map_congr_left fun c hmem => ?_).trans (List.map_id cs)
  have hupper := Char.toUpper_eq_of_not_isLower (Char.not_isLower_of_isUpper (hcs c hmem))
  rw [Function.comp_apply, Char.toUpper_toLower_eq_toUpper, hupper, id_eq]

/-- Capitals that agree without regard to case are the same. -/
theorem eq_of_lowered_eq {first second : List Char} (hfirst : ∀ c ∈ first, c.isUpper = true)
    (hsecond : ∀ c ∈ second, c.isUpper = true) (hsame : lowered first = lowered second) :
    first = second := by
  rw [← map_toUpper_lowered hfirst, hsame, map_toUpper_lowered hsecond]

end Text

namespace Calendar

open Text (IsNumeral Shape Spread IsWord isBlank padded)

/-! ## The time of day -/

namespace Clock

variable (clock : Clock)

theorem spells_hour : Part.hour.Spells clock.hour (padded 2 clock.hour).toList :=
  Part.spells_padded (by simp [Part.holds, clock.hour_lt])

theorem spells_minute : Part.minute.Spells clock.minute (padded 2 clock.minute).toList :=
  Part.spells_padded (by simp [Part.holds, clock.minute_lt])

theorem spells_second : Part.second.Spells clock.second (padded 2 clock.second).toList :=
  Part.spells_padded (by simp [Part.holds, clock.second_lt])

/-- The digits and colons of a time of whole seconds, and what follows it. -/
def stamp (rest : List Char) : List Char :=
  (padded 2 clock.hour).toList ++ ':' :: ((padded 2 clock.minute).toList ++
    ':' :: ((padded 2 clock.second).toList ++ rest))

theorem toList_iso (hmicro : clock.micro = 0) : clock.iso.toList = clock.stamp [] := by
  simp [iso, stamp, hmicro, Text.toString_text]

theorem shape_stamp {rest marks letters : List Char} (hrest : Shape rest marks letters) :
    Shape (clock.stamp rest) (':' :: ':' :: marks) letters :=
  .number clock.spells_hour.numeral (.mark (by decide) (.number clock.spells_minute.numeral
    (.mark (by decide) (.number clock.spells_second.numeral hrest))))

theorem reads_stamp {parts : Form} {known result : Fields} {rest : List Char}
    (hrest : ∀ c ∈ rest.head?, Text.isDigit c = false)
    (hparts : Form.Reads parts
      { known with hour := clock.hour, minute := clock.minute, second := clock.second }
      rest result) : Form.Reads (Form.time ++ parts) known (clock.stamp rest) result := by
  refine .number clock.spells_hour (by rintro _ ⟨⟩; rfl) (.mark _ ?_)
  refine .number clock.spells_minute (by rintro _ ⟨⟩; rfl) (.mark _ ?_)
  exact .number clock.spells_second hrest hparts

end Clock

/-! ## The stamp -/

namespace Moment

variable {moment : Moment} {weekday : String} {day : List Char}

/-- Weekday, month, day and time with one space between them, and what follows them. -/
def stamp (moment : Moment) (weekday : String) (day rest : List Char) : List Char :=
  weekday.toList ++ ' ' :: (moment.date.monthAbbreviation.toList ++ ' ' :: (day ++
    ' ' :: moment.clock.stamp rest))

theorem reads_stamp {parts : Form} {result : Fields} {rest : List Char}
    (hweekday : weekday ∈ weekdayAbbreviations) (hday : Date.IsNumber moment.date.day day)
    (hrest : ∀ c ∈ rest.head?, Text.isDigit c = false)
    (hparts : Form.Reads parts { moment.fields with year := 1900 } rest result) :
    Form.Reads (Form.clockStamp ++ parts) {} (moment.stamp weekday day rest) result := by
  obtain ⟨i, hi⟩ := List.mem_iff_getElem?.mp hweekday
  have hname := moment.date.names_abbreviation
  have hday := hday.day
  have hhour := moment.clock.spells_hour
  refine .name hi (by simp) (.gap (Part.isWord_of_names (List.mem_of_getElem? hname)) ?_)
  refine .name hname (by simp) (.gap (hday.numeral.isWord hday.ne_nil) ?_)
  refine .number hday (by rintro _ ⟨⟩; rfl) (.gap (hhour.numeral.isWord hhour.ne_nil) ?_)
  refine moment.clock.reads_stamp hrest ?_
  simpa [Part.store, fields, moment.date.month_succ_pred] using hparts

theorem shape_stamp {rest marks letters : List Char} (hweekday : weekday ∈ weekdayAbbreviations)
    (hday : Date.IsNumber moment.date.day day) (hrest : Shape rest marks letters) :
    Shape (moment.stamp weekday day rest) (':' :: ':' :: marks)
      (weekday.toList ++ (moment.date.monthAbbreviation.toList ++ letters)) := by
  have hweekday : weekday ∈ Part.weekday.names := hweekday
  have hname := List.mem_of_getElem? moment.date.names_abbreviation
  refine .word (Part.isAlpha_of_names hweekday) (.blank rfl ?_)
  refine .word (Part.isAlpha_of_names hname) (.blank rfl ?_)
  exact .number hday.day.numeral (.blank rfl (moment.clock.shape_stamp hrest))

end Moment

/-! ## The zone -/

namespace Form

/-- The form of a clock stamp with the name of universal time. -/
def zonedStamp : Form := clockStamp ++ [.gap, .zone, .gap, .year]

/-- What a form takes is cut where the form is. -/
theorem Takes.of_append {first second : Form} {cs : List Char}
    (htakes : Takes (first ++ second) cs) :
    ∃ before after, cs = before ++ after ∧ Takes first before ∧ Takes second after := by
  induction first generalizing cs with
  | nil => exact ⟨[], cs, rfl, .nil, htakes⟩
  | cons part first ih =>
      obtain _ | @⟨_, _, taken, rest, hpart, hparts⟩ := htakes
      obtain ⟨before, after, rfl, hbefore, hafter⟩ := ih hparts
      exact ⟨taken ++ before, after, (List.append_assoc ..).symm, .cons hpart hbefore, hafter⟩

/-- The letters of weekday and month come first, and what is left is the name of the zone. -/
theorem Takes.zone_lowered {cs front zone : List Char} (htakes : Takes zonedStamp cs)
    (hletters : Text.letters cs = front ++ zone) (hfront : front.length = 6) :
    ∃ name ∈ Part.zone.names, Text.lowered zone = Text.lowered name.toList := by
  have hsix : ∀ count ∈ letterCounts (clockStamp ++ [.gap]), count = 6 := by decide
  have hnone : ∀ count ∈ letterCounts [.gap, .year], count = 0 := by decide
  have htakes : Takes ((clockStamp ++ [.gap]) ++ .zone :: [.gap, .year]) cs := htakes
  obtain ⟨before, after, rfl, hbefore, hafter⟩ := htakes.of_append
  obtain _ | @⟨_, _, taken, rest, hzone, hend⟩ := hafter
  have hrest : Text.letters rest = [] :=
    List.eq_nil_of_length_eq_zero (hnone _ hend.length_letters_mem)
  rw [Text.letters_append, Text.letters_append, hrest, List.append_nil] at hletters
  have heq := (List.append_inj hletters (by rw [hfront, hsix _ hbefore.length_letters_mem])).2
  cases hzone with
  | number htests _ => exact absurd htests List.not_mem_nil
  | @name _ name _ hname hcs =>
      rw [Text.letters_word (Part.isAlpha_of_lowered hname hcs)] at heq
      exact ⟨name, hname, heq ▸ hcs⟩

end Form

/-! ## Reading a stamp -/

namespace Moment

variable {moment : Moment} {weekday text : String} {day zone : List Char}

/-- What stands after the time. -/
def zoneAndYear (zone : List Char) (year : Nat) : List Char :=
  ' ' :: (zone ++ ' ' :: ((toString year).toList ++ []))

/-- The words of a stamp, joined by spaces. -/
theorem intercalate_stamp (weekday : String) (day next : List Char) (later : List (List Char))
    (hmicro : moment.clock.micro = 0) :
    [' '].intercalate (weekday.toList :: moment.date.monthAbbreviation.toList :: day ::
        moment.clock.iso.toList :: next :: later) =
      moment.stamp weekday day (' ' :: [' '].intercalate (next :: later)) := by
  rw [moment.clock.toList_iso hmicro]
  simp [stamp, Clock.stamp, List.intercalate_cons_cons]

theorem length_names (moment : Moment) (hweekday : weekday ∈ weekdayAbbreviations) :
    (weekday.toList ++ moment.date.monthAbbreviation.toList).length = 6 := by
  have hthree : ∀ part ∈ [Part.weekday, .monthAbbreviation], ∀ name ∈ part.names,
      name.toList.length = 3 := by decide +kernel
  rw [List.length_append, hthree .weekday (by decide) weekday hweekday,
    hthree .monthAbbreviation (by decide) _ (List.mem_of_getElem? moment.date.names_abbreviation)]

/-- Two to five capitals are taken for a zone. -/
theorem isZoneWord_of_isUpper (hlength : 2 ≤ zone.length ∧ zone.length ≤ 5)
    (hupper : ∀ c ∈ zone, c.isUpper = true) : isZoneWord zone = true := by
  simp only [isZoneWord, hlength, decide_true, Bool.and_self, Bool.true_and, List.all_eq_true,
    Bool.and_eq_true, decide_eq_true_eq]
  intro c hmem
  have hc := hupper c hmem
  simp only [Char.isUpper, decide_eq_true_eq] at hc
  exact hc

/-- A zone before the year is left out. -/
theorem dropZone_append (words : List (List Char)) (before : List Char) (date : Date)
    (hyear : 1000 ≤ date.year) (hzone : isZoneWord zone = true) :
    dropZone (words ++ [before, zone, (toString date.year).toList]) =
      some (words ++ [before, (toString date.year).toList]) := by
  have hdigits : (toString date.year).toList.all Text.isDigit = true :=
    List.all_eq_true.mpr fun c hmem =>
      Text.isDigit_of_plain ((Text.isNumeral_toString date.year).digits c hmem)
  have hlength : ((toString date.year).toList.length == 4) = true :=
    beq_iff_eq.mpr (Date.length_year hyear)
  rw [dropZone, List.reverse_append]
  simp only [List.reverse_cons, List.reverse_nil, List.nil_append, List.cons_append]
  rw [hlength, hdigits, hzone, List.reverse_reverse]
  rfl

/-- A stamp is read by no accepted form, but perhaps by the one with universal time. -/
theorem read?_eq_none_of_zoned {letters : List Char} {cs : List Char}
    (hshape : Shape cs [':', ':'] letters) (hletters : 6 < letters.length) :
    ∀ form ∈ Form.accepted, form ≠ Form.zonedStamp → form.read? cs = none := by
  have hforms : ∀ form ∈ Form.accepted, form = Form.zonedStamp ∨ form.marks ≠ [':', ':'] ∨
      ∀ count ∈ form.letterCounts, count = 6 := by decide
  intro form hmem hother
  refine Form.read?_eq_none hshape (((hforms form hmem).resolve_left hother).imp_right ?_)
  exact fun hsix hcount => absurd (hsix _ hcount) hletters.ne'

/-- Zones that are known are written in capitals. -/
theorem isUpper_of_zone {name : String} (hname : name ∈ Part.zone.names) :
    ∀ c ∈ name.toList, c.isUpper = true := by
  have hall : ∀ name ∈ Part.zone.names, name.toList.all Char.isUpper = true := by decide +kernel
  exact List.all_eq_true.mp (hall name hname)

theorem shape_zonedStamp (hweekday : weekday ∈ weekdayAbbreviations)
    (hday : Date.IsNumber moment.date.day day) (hzone : ∀ c ∈ zone, c.isAlpha = true) :
    Shape (moment.stamp weekday day (zoneAndYear zone moment.date.year)) [':', ':']
      (weekday.toList ++ (moment.date.monthAbbreviation.toList ++ (zone ++ []))) :=
  shape_stamp hweekday hday (.blank rfl (.word hzone (.blank rfl
    (.number (Text.isNumeral_toString moment.date.year) .nil))))

/-- A stamp with a zone that is known is read by the form of zoned stamps. -/
theorem reads_zonedStamp {name : String} (hyear : 1000 ≤ moment.date.year)
    (hweekday : weekday ∈ weekdayAbbreviations) (hday : Date.IsNumber moment.date.day day)
    (hname : name ∈ Part.zone.names) :
    Form.zonedStamp.Reads {} (moment.stamp weekday day (zoneAndYear name.toList moment.date.year))
      moment.fields := by
  obtain ⟨i, hi⟩ := List.mem_iff_getElem?.mp hname
  refine reads_stamp hweekday hday (by rintro _ ⟨⟩; rfl) (.gap (Part.isWord_of_names hname) ?_)
  exact .name hi (by simp) (.gap moment.date.isWord_year (Date.reads_year hyear _))

/-- Only the form with universal time reads a stamp with a zone, and only if this is its zone. -/
theorem read?_eq_none_of_unknown (hweekday : weekday ∈ weekdayAbbreviations)
    (hday : Date.IsNumber moment.date.day day) (hupper : ∀ c ∈ zone, c.isUpper = true)
    (hunknown : ∀ name ∈ Part.zone.names, zone ≠ name.toList) :
    Form.zonedStamp.read? (moment.stamp weekday day (zoneAndYear zone moment.date.year)) =
      none := by
  cases hread : Form.zonedStamp.read? _ with
  | none => rfl
  | some _ =>
      have halpha : ∀ c ∈ zone, c.isAlpha = true := fun c hmem => by
        simp [Char.isAlpha, hupper c hmem]
      have hletters := (shape_zonedStamp hweekday hday halpha).letters_eq
      rw [List.append_nil, ← List.append_assoc] at hletters
      obtain ⟨name, hname, hlowered⟩ :=
        (Form.takes_of_read? hread).zone_lowered hletters (moment.length_names hweekday)
      have hsame := Text.eq_of_lowered_eq hupper (isUpper_of_zone hname) hlowered
      exact absurd hsame (hunknown name hname)

/-- However the words of a clock stamp are spread, and whatever zone it names, it is read as what
the clock shows. -/
theorem read_clockStamp (moment : Moment) (weekday text : String) (day zone : List Char)
    (hnaive : moment.offset = none) (hmicro : moment.clock.micro = 0)
    (hyear : 1000 ≤ moment.date.year) (hweekday : weekday ∈ weekdayAbbreviations)
    (hday : Date.IsNumber moment.date.day day) (hlength : 2 ≤ zone.length ∧ zone.length ≤ 5)
    (hupper : ∀ c ∈ zone, c.isUpper = true)
    (hspread : Spread isBlank [weekday.toList, moment.date.monthAbbreviation.toList, day,
      moment.clock.iso.toList, zone, (toString moment.date.year).toList] text.toList) :
    read text = .ok moment := by
  have hjoined := intercalate_stamp weekday day zone [(toString moment.date.year).toList] hmicro
  have halpha : ∀ c ∈ zone, c.isAlpha = true := fun c hmem => by
    simp [Char.isAlpha, hupper c hmem]
  have hsix := moment.length_names hweekday
  have hother := read?_eq_none_of_zoned (shape_zonedStamp hweekday hday halpha) (by
    rw [← List.append_assoc, List.append_nil, List.length_append]
    omega)
  by_cases hknown : ∃ name ∈ Part.zone.names, zone = name.toList
  · obtain ⟨name, hname, rfl⟩ := hknown
    refine read_of_accepted (i := 10) hspread (by simp) hjoined rfl (fun form hmem => ?_)
      (read?_of_reads hnaive hmicro (reads_zonedStamp hyear hweekday hday hname))
    have hearlier : ∀ form ∈ Form.accepted.take 10, form ≠ Form.zonedStamp := by decide
    exact hother form (List.mem_of_mem_take hmem) (hearlier form hmem)
  · push Not at hknown
    have hzoned := read?_eq_none_of_unknown hweekday hday hupper hknown
    refine read_of_zoneless hspread hjoined (fun form hmem => ?_)
      (dropZone_append [_, _, _] _ moment.date hyear (isZoneWord_of_isUpper hlength hupper)) ?_
    · by_cases hform : form = Form.zonedStamp
      · rw [hform]
        exact hzoned
      · exact hother form hmem hform
    · have hzoneless := intercalate_stamp weekday day (toString moment.date.year).toList [] hmicro
      rw [List.cons_append, List.cons_append, List.cons_append, List.nil_append, hzoneless]
      exact read?_of_reads hnaive hmicro (reads_stamp hweekday hday (by rintro _ ⟨⟩; rfl)
        (.gap moment.date.isWord_year (Date.reads_year hyear _)))

/-- A stamp with a zone whose offset is not known is read without one. -/
theorem read_clockStamp_pacific :
    let moment : Moment := {
      date := ⟨2020, 2, 5, by decide, by decide, by decide⟩
      clock := ⟨15, 18, 37, 0, by decide, by decide, by decide, by decide⟩ }
    (moment.offset = none ∧ moment.clock.micro = 0 ∧ 1000 ≤ moment.date.year ∧
      "Wed" ∈ weekdayAbbreviations ∧ "PST".toList.all Char.isUpper = true) ∧
      read "Wed Feb  5 15:18:37 PST 2020" = .ok moment := by
  intro moment
  have hyear : 1000 ≤ moment.date.year := by decide
  have hweekday : "Wed" ∈ weekdayAbbreviations := by decide
  have hupper : "PST".toList.all Char.isUpper = true := by decide
  have hword {cs : List Char} (hcs : cs.isEmpty = false ∧ cs.all (!isBlank ·) = true) :
      IsWord isBlank cs := by
    refine ⟨by simpa using hcs.1, fun c hmem => ?_⟩
    simpa using List.all_eq_true.mp hcs.2 c hmem
  have htext : "Wed Feb  5 15:18:37 PST 2020".toList = [] ++ ("Wed".toList ++ ([' '] ++
      (moment.date.monthAbbreviation.toList ++ ([' ', ' '] ++ ((toString moment.date.day).toList ++
        ([' '] ++ (moment.clock.iso.toList ++ ([' '] ++ ("PST".toList ++ ([' '] ++
          ((toString moment.date.year).toList ++ []))))))))))) := by decide +kernel
  have hspread : Spread isBlank ["Wed".toList, moment.date.monthAbbreviation.toList,
      (toString moment.date.day).toList, moment.clock.iso.toList, "PST".toList,
      (toString moment.date.year).toList] "Wed Feb  5 15:18:37 PST 2020".toList := by
    rw [htext]
    iterate 5
      refine .cons (List.all_eq_true.mp rfl) (hword (by decide +kernel)) (by rintro _ ⟨⟩; rfl) ?_
    exact .cons (List.all_eq_true.mp rfl) moment.date.isWord_year (by nofun) (.nil (by nofun))
  exact ⟨⟨rfl, rfl, hyear, hweekday, hupper⟩, read_clockStamp moment "Wed" _ _ _ rfl rfl hyear
    hweekday .plain (by decide) (List.all_eq_true.mp hupper) hspread⟩

end Moment

end Calendar

end Manuscript
