import Manuscript.Proofs.Calendar.Accepted
import Manuscript.Troff.Blocks

/-! # Days that are written out

A day with a year of four digits can be written with the name of its month or in numbers,
in seven orders, with or without zeros before its numbers. However it is written and
spread with blanks, it is read as the start of that day (`read_written`), and so is the
date that a document is given.
-/

namespace Manuscript.Calendar

namespace Date

/-- The name of the month. -/
def monthName (date : Date) : String := monthNames.getD (date.month - 1) ""

/-- The digits of a number, without or with a zero before a single digit. -/
inductive IsNumber (n : Nat) : List Char → Prop
  | plain : IsNumber n (toString n).toList
  | padded : IsNumber n (Text.padded 2 n).toList

/-- The words in which a day can be written. -/
inductive Written (date : Date) : List (List Char) → Prop
  | monthFirst {name : String} {day : List Char}
      (hname : name = date.monthAbbreviation ∨ name = date.monthName)
      (hday : IsNumber date.day day) :
      Written date [name.toList, day ++ [','], (toString date.year).toList]
  | dayFirst {name : String} {day : List Char}
      (hname : name = date.monthAbbreviation ∨ name = date.monthName)
      (hday : IsNumber date.day day) :
      Written date [day, name.toList, (toString date.year).toList]
  | yearFirst {mark : Char} {month day : List Char} (hmark : mark = '-' ∨ mark = '/')
      (hmonth : IsNumber date.month month) (hday : IsNumber date.day day) :
      Written date [(toString date.year).toList ++ mark :: (month ++ mark :: day)]
  | yearLast {month day : List Char} (hmonth : IsNumber date.month month)
      (hday : IsNumber date.day day) :
      Written date [month ++ '/' :: (day ++ '/' :: (toString date.year).toList)]

/-! ## The parts of a day -/

theorem holds_month (date : Date) : Part.month.holds date.month = true := by
  have hmonth := date.month_range
  simp [Part.holds, hmonth]

theorem daysIn_le (year month : Nat) : daysIn year month ≤ 31 := by
  unfold daysIn
  split
  · split <;> decide
  all_goals decide

theorem holds_day (date : Date) : Part.day.holds date.day = true := by
  have hday := date.day_range
  have hle := daysIn_le date.year date.month
  simp only [Part.holds, Bool.and_eq_true, decide_eq_true_eq]
  omega

theorem spells_of_isNumber {part : Part} {n : Nat} {cs : List Char}
    (hholds : part.holds n = true) (hcs : IsNumber n cs) : part.Spells n cs := by
  cases hcs with
  | plain => exact Part.spells_toString hholds
  | padded => exact Part.spells_padded hholds

theorem month_index_lt (date : Date) : date.month - 1 < 12 := by
  have hmonth := date.month_range
  omega

theorem month_succ_pred (date : Date) : date.month - 1 + 1 = date.month := by
  have hmonth := date.month_range
  omega

theorem names_abbreviation (date : Date) :
    Part.monthAbbreviation.names[date.month - 1]? = some date.monthAbbreviation := by
  have hmonth : date.month - 1 < monthAbbreviations.length :=
    Nat.lt_of_lt_of_eq date.month_index_lt rfl
  rw [monthAbbreviation, List.getD_eq_getElem _ _ hmonth]
  exact List.getElem?_eq_getElem hmonth

theorem names_name (date : Date) :
    Part.monthName.names[date.month - 1]? = some date.monthName := by
  have hmonth : date.month - 1 < monthNames.length :=
    Nat.lt_of_lt_of_eq date.month_index_lt rfl
  rw [monthName, List.getD_eq_getElem _ _ hmonth]
  exact List.getElem?_eq_getElem hmonth

/-- The name of a month is its abbreviation, or it is longer than all abbreviations. -/
theorem monthName_cases (date : Date) :
    date.monthName = date.monthAbbreviation ∨ 3 < date.monthName.length := by
  have hall : ∀ i < 12, monthNames.getD i "" = monthAbbreviations.getD i "" ∨
      3 < (monthNames.getD i "").length := by decide +kernel
  exact hall (date.month - 1) date.month_index_lt

theorem name_cases {date : Date} {name : String}
    (hname : name = date.monthAbbreviation ∨ name = date.monthName) :
    Part.monthAbbreviation.names[date.month - 1]? = some name ∨
      Part.monthName.names[date.month - 1]? = some name ∧ 3 < name.length := by
  rcases hname with rfl | rfl
  · exact .inl date.names_abbreviation
  · rcases date.monthName_cases with heq | hlong
    · rw [heq]
      exact .inl date.names_abbreviation
    · exact .inr ⟨date.names_name, hlong⟩

variable {date : Date} {cs : List Char}

theorem IsNumber.month (hcs : IsNumber date.month cs) : Part.month.Spells date.month cs :=
  spells_of_isNumber date.holds_month hcs

theorem IsNumber.day (hcs : IsNumber date.day cs) : Part.day.Spells date.day cs :=
  spells_of_isNumber date.holds_day hcs

theorem length_year (hyear : 1000 ≤ date.year) : (toString date.year).toList.length = 4 :=
  Text.length_toString hyear (Nat.lt_succ_of_le date.year_range.2)

theorem read?_of_reads {form : Form} (hreads : form.Reads {} cs date.midnight.fields) :
    form.read? cs = some date.midnight :=
  Moment.read?_of_reads rfl rfl hreads

theorem isWord_year (date : Date) : Text.IsWord Text.isBlank (toString date.year).toList :=
  (Text.isNumeral_toString date.year).isWord (Text.toString_ne_nil date.year)

theorem reads_year (hyear : 1000 ≤ date.year) (known : Fields) :
    Form.Reads [.year] known ((toString date.year).toList ++ []) { known with year := date.year } :=
  .year (Text.isNumeral_toString date.year) (length_year hyear) (.nil _)

/-! ## The forms that read a day -/

section

variable {name : String} {first second : List Char} {part : Part}

theorem reads_monthFirst (hname : part.names[date.month - 1]? = some name)
    (hstore : ∀ i known, part.store i known = { known with month := i + 1 })
    (hyear : 1000 ≤ date.year) (hday : IsNumber date.day second) :
    Form.Reads [part, .gap, .day, .mark ',', .gap, .year] {}
      (name.toList ++ ' ' :: (second ++ ',' :: ' ' :: ((toString date.year).toList ++ [])))
      date.midnight.fields := by
  have hday := hday.day
  refine .name hname (by simp) (.gap (hday.numeral.isWord hday.ne_nil) ?_)
  refine .number hday (by rintro _ ⟨⟩; rfl) (.mark _ (.gap date.isWord_year ?_))
  rw [hstore, date.month_succ_pred]
  exact reads_year hyear _

theorem reads_dayFirst (hname : part.names[date.month - 1]? = some name)
    (hstore : ∀ i known, part.store i known = { known with month := i + 1 })
    (hyear : 1000 ≤ date.year) (hday : IsNumber date.day first) :
    Form.Reads [.day, .gap, part, .gap, .year] {}
      (first ++ ' ' :: (name.toList ++ ' ' :: ((toString date.year).toList ++ [])))
      date.midnight.fields := by
  have hword := Part.isWord_of_names (List.mem_of_getElem? hname)
  refine .number hday.day (by rintro _ ⟨⟩; rfl) (.gap hword ?_)
  refine .name hname (by simp) (.gap date.isWord_year ?_)
  rw [hstore, date.month_succ_pred]
  exact reads_year hyear _

theorem reads_yearFirst {mark : Char} (hmark : Text.isDigit mark = false)
    (hyear : Text.IsNumeral cs date.year) (hfour : cs.length = 4)
    (hmonth : IsNumber date.month first) (hday : IsNumber date.day second) :
    Form.Reads (Form.numeric mark) {} (cs ++ mark :: (first ++ mark :: (second ++ [])))
      date.midnight.fields := by
  refine .year hyear hfour (.mark _ ?_)
  refine .number hmonth.month (by rintro _ ⟨⟩; exact hmark) (.mark _ ?_)
  exact .number hday.day (by nofun) (.nil _)

theorem reads_yearLast (hyear : 1000 ≤ date.year) (hmonth : IsNumber date.month first)
    (hday : IsNumber date.day second) :
    Form.Reads [.month, .mark '/', .day, .mark '/', .year] {}
      (first ++ '/' :: (second ++ '/' :: ((toString date.year).toList ++ [])))
      date.midnight.fields := by
  refine .number hmonth.month (by rintro _ ⟨⟩; rfl) (.mark _ ?_)
  exact .number hday.day (by rintro _ ⟨⟩; rfl) (.mark _ (reads_year hyear _))

end

/-! ## The first form that reads a day -/

section

variable {text name : String} {first second : List Char}

/-- Forms for abbreviations do not read a longer name. -/
theorem read?_eq_none_of_long {forms : List Form} {marks : List Char} (hlong : 3 < name.length)
    (hshape : Text.Shape cs marks (name.toList ++ []))
    (hforms : ∀ form ∈ forms, form.marks ≠ marks ∨ ∀ count ∈ form.letterCounts, count = 3) :
    ∀ form ∈ forms, form.read? cs = none := by
  intro form hmem
  refine Form.read?_eq_none hshape ((hforms form hmem).imp_right fun hshort hcount => ?_)
  rw [List.append_nil, String.length_toList] at hcount
  exact absurd (hshort _ hcount) hlong.ne'

theorem read_monthFirst (hyear : 1000 ≤ date.year)
    (hname : name = date.monthAbbreviation ∨ name = date.monthName)
    (hday : IsNumber date.day second)
    (hspread : Text.Spread Text.isBlank
      [name.toList, second ++ [','], (toString date.year).toList] text.toList) :
    read text = .ok date.midnight := by
  have hjoined : [' '].intercalate [name.toList, second ++ [','], (toString date.year).toList] =
      name.toList ++ ' ' :: (second ++ ',' :: ' ' :: ((toString date.year).toList ++ [])) := by
    simp
  rcases name_cases hname with habbreviation | ⟨hname, hlong⟩
  · exact read_of_accepted (i := 0) hspread (by simp) hjoined rfl (by simp)
      (read?_of_reads (reads_monthFirst habbreviation (fun _ _ => rfl) hyear hday))
  · refine read_of_accepted (i := 1) hspread (by simp) hjoined rfl ?_
      (read?_of_reads (reads_monthFirst hname (fun _ _ => rfl) hyear hday))
    have halpha := Part.isAlpha_of_names (List.mem_of_getElem? hname)
    refine read?_eq_none_of_long hlong (.word halpha (.blank rfl (.number hday.day.numeral
      (.mark rfl (.blank rfl (.number (Text.isNumeral_toString _) .nil)))))) ?_
    decide

theorem read_dayFirst (hyear : 1000 ≤ date.year)
    (hname : name = date.monthAbbreviation ∨ name = date.monthName)
    (hday : IsNumber date.day first)
    (hspread : Text.Spread Text.isBlank
      [first, name.toList, (toString date.year).toList] text.toList) :
    read text = .ok date.midnight := by
  have hjoined : [' '].intercalate [first, name.toList, (toString date.year).toList] =
      first ++ ' ' :: (name.toList ++ ' ' :: ((toString date.year).toList ++ [])) := rfl
  have hshape : (∀ c ∈ name.toList, c.isAlpha = true) →
      Text.Shape (first ++ ' ' :: (name.toList ++ ' ' :: ((toString date.year).toList ++ []))) []
        (name.toList ++ []) := fun halpha =>
    .number hday.day.numeral (.blank rfl (.word halpha (.blank rfl
      (.number (Text.isNumeral_toString _) .nil))))
  rcases name_cases hname with hname | ⟨hname, hlong⟩
  · refine read_of_accepted (i := 2) hspread (by simp) hjoined rfl ?_
      (read?_of_reads (reads_dayFirst hname (fun _ _ => rfl) hyear hday))
    have halpha := Part.isAlpha_of_names (List.mem_of_getElem? hname)
    have hmarks : ∀ form ∈ Form.accepted.take 2, form.marks ≠ [] := by decide
    exact fun form hmem => Form.read?_eq_none (hshape halpha) (.inl (hmarks form hmem))
  · refine read_of_accepted (i := 3) hspread (by simp) hjoined rfl ?_
      (read?_of_reads (reads_dayFirst hname (fun _ _ => rfl) hyear hday))
    have halpha := Part.isAlpha_of_names (List.mem_of_getElem? hname)
    exact read?_eq_none_of_long hlong (hshape halpha) (by decide)

theorem read_yearFirst {mark : Char} (hmark : mark = '-' ∨ mark = '/')
    (hyear : Text.IsNumeral cs date.year) (hfour : cs.length = 4)
    (hmonth : IsNumber date.month first) (hday : IsNumber date.day second)
    (hspread : Text.Spread Text.isBlank [cs ++ mark :: (first ++ mark :: second)] text.toList) :
    read text = .ok date.midnight := by
  have hjoined : [' '].intercalate [cs ++ mark :: (first ++ mark :: second)] =
      cs ++ mark :: (first ++ mark :: (second ++ [])) := by
    simp
  have hreads (hdigit : Text.isDigit mark = false) :=
    read?_of_reads (reads_yearFirst hdigit hyear hfour hmonth hday)
  have hshape (hpunct : Text.isPunctuation mark = true) :
      Text.Shape (cs ++ mark :: (first ++ mark :: (second ++ []))) [mark, mark] [] :=
    .number hyear (.mark hpunct (.number hmonth.month.numeral (.mark hpunct
      (.number hday.day.numeral .nil))))
  rcases hmark with rfl | rfl
  · refine read_of_accepted (i := 4) hspread (by simp) hjoined rfl (fun form hmem => ?_)
      (hreads rfl)
    have hforms : ∀ form ∈ Form.accepted.take 4, 0 ∉ form.letterCounts := by decide
    exact Form.read?_eq_none (hshape (by decide)) (.inr (hforms form hmem))
  · refine read_of_accepted (i := 5) hspread (by simp) hjoined rfl (fun form hmem => ?_)
      (hreads rfl)
    have hforms : ∀ form ∈ Form.accepted.take 5,
        form.marks ≠ ['/', '/'] ∨ 0 ∉ form.letterCounts := by decide
    exact Form.read?_eq_none (hshape (by decide)) (hforms form hmem)

/-- A mark comes too early for a year of four digits. -/
theorem read?_eq_none_of_early {parts : Form} {mark : Char} {rest : List Char}
    (hfirst : first.length < 4) (hmark : Text.isDigit mark = false) :
    Form.read? (.year :: parts) (first ++ mark :: rest) = none := by
  cases hread : Form.read? (.year :: parts) (first ++ mark :: rest) with
  | none => rfl
  | some moment =>
      have hmem : mark ∈ (first ++ mark :: rest).take 4 := by
        rw [List.take_append, List.mem_append]
        refine .inr ?_
        rw [show 4 - first.length = 4 - first.length - 1 + 1 by omega]
        exact List.mem_cons_self
      have hdigit := (Form.takes_of_read? hread).isDigit_of_year mark hmem
      rw [hmark] at hdigit
      cases hdigit

theorem read_yearLast (hyear : 1000 ≤ date.year) (hmonth : IsNumber date.month first)
    (hday : IsNumber date.day second)
    (hspread : Text.Spread Text.isBlank
      [first ++ '/' :: (second ++ '/' :: (toString date.year).toList)] text.toList) :
    read text = .ok date.midnight := by
  have hjoined : [' '].intercalate
      [first ++ '/' :: (second ++ '/' :: (toString date.year).toList)] =
        first ++ '/' :: (second ++ '/' :: ((toString date.year).toList ++ [])) := by
    simp
  refine read_of_accepted (i := 6) hspread (by simp) hjoined rfl ?_
    (read?_of_reads (reads_yearLast hyear hmonth hday))
  have hforms : ∀ form ∈ Form.accepted.take 6, form = Form.numeric '/' ∨
      form.marks ≠ ['/', '/'] ∨ 0 ∉ form.letterCounts := by decide
  intro form hmem
  rcases hforms form hmem with rfl | hform
  · exact read?_eq_none_of_early (Nat.lt_succ_of_le (hmonth.month.length_le.trans (by decide))) rfl
  · exact Form.read?_eq_none (.number hmonth.month.numeral (.mark (by decide)
      (.number hday.day.numeral (.mark (by decide) (.number (Text.isNumeral_toString _) .nil)))))
      hform

end

theorem read_of_written {words : List (List Char)} {text : String} (hyear : 1000 ≤ date.year)
    (hwritten : date.Written words) (hspread : Text.Spread Text.isBlank words text.toList) :
    read text = .ok date.midnight := by
  cases hwritten with
  | monthFirst hname hday => exact read_monthFirst hyear hname hday hspread
  | dayFirst hname hday => exact read_dayFirst hyear hname hday hspread
  | yearFirst hmark hmonth hday =>
      exact read_yearFirst hmark (Text.isNumeral_toString date.year) (length_year hyear) hmonth hday
        hspread
  | yearLast hmonth hday => exact read_yearLast hyear hmonth hday hspread

/-- The date of a document is written with the month first. -/
theorem spread_dateText (date : Date) :
    Text.Spread Text.isBlank [date.monthAbbreviation.toList, (toString date.day).toList ++ [','],
      (toString date.year).toList] (Troff.dateText date).toList := by
  have hjoined : (Troff.dateText date).toList =
      [' '].intercalate [date.monthAbbreviation.toList, (toString date.day).toList ++ [','],
        (toString date.year).toList] := by
    simp [Troff.dateText, Text.toString_text]
  have hname := Part.isWord_of_names (List.mem_of_getElem? date.names_abbreviation)
  have hday := (Text.isNumeral_toString date.day).isWord (Text.toString_ne_nil date.day)
  have hcomma : Text.isBlank ',' = false := by decide
  rw [hjoined]
  refine Text.spread_intercalate rfl ?_
  simp only [List.forall_mem_cons, List.not_mem_nil, false_implies, implies_true, and_true]
  exact ⟨hname, hday.append_singleton hcomma, date.isWord_year⟩

/-- However a day is written, and whatever blanks its words are spread with, the start of the day
is read; so it is from the date of a document. -/
theorem read_written (date : Date) (hyear : 1000 ≤ date.year) :
    (∀ words (text : String), date.Written words → Text.Spread Text.isBlank words text.toList →
      read text = .ok date.midnight) ∧
      read (Troff.dateText date) = .ok date.midnight :=
  ⟨fun _ _ => read_of_written hyear,
    read_monthFirst hyear (.inl rfl) .plain date.spread_dateText⟩

/-- A day with a leading zero is read among blanks of several kinds. -/
theorem read_written_padded :
    let date : Date := ⟨2020, 2, 5, by decide, by decide, by decide⟩
    1000 ≤ date.year ∧ read "\t05 \u00a0Feb\n2020 " = .ok date.midnight := by
  intro date
  have hyear : 1000 ≤ date.year := by decide
  have htext : "\t05 \u00a0Feb\n2020 ".toList = ['\t'] ++ ((Text.padded 2 date.day).toList ++
      ([' ', '\u00a0'] ++ (date.monthAbbreviation.toList ++
        (['\n'] ++ ((toString date.year).toList ++ [' ']))))) := by decide +kernel
  have hday := (IsNumber.padded (n := date.day)).day
  have hname := Part.isWord_of_names (List.mem_of_getElem? date.names_abbreviation)
  have hspread : Text.Spread Text.isBlank
      [(Text.padded 2 date.day).toList, date.monthAbbreviation.toList, (toString date.year).toList]
      "\t05 \u00a0Feb\n2020 ".toList := by
    rw [htext]
    refine .cons (List.all_eq_true.mp rfl) (hday.numeral.isWord hday.ne_nil)
      (by rintro _ ⟨⟩; rfl) ?_
    refine .cons (List.all_eq_true.mp rfl) hname (by rintro _ ⟨⟩; rfl) ?_
    refine .cons (List.all_eq_true.mp rfl) date.isWord_year (by rintro _ ⟨⟩; rfl) ?_
    exact .nil (List.all_eq_true.mp rfl)
  exact ⟨hyear, (read_written date hyear).1 _ _ (.dayFirst (.inl rfl) .padded) hspread⟩

end Date

end Manuscript.Calendar
