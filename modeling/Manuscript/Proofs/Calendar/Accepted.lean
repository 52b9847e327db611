import Manuscript.Calendar.Reading
import Manuscript.Proofs.Calendar.Spelling
import Manuscript.Proofs.Text.Words

/-! # The first form that reads a date

Whatever blanks its words are spread with, a date text is read as its words with one
space between them. The first of the accepted forms that reads them decides
(`read_of_accepted`). If none does, the abbreviation of a zone may be left out
(`read_of_zoneless`), and where there is none, the text may be a timestamp
(`read_of_timestamp`).
-/

namespace Manuscript.Calendar

theorem Clock.ofFields_self (clock : Clock) :
    Clock.ofFields clock.hour clock.minute clock.second clock.micro = .ok clock := by
  obtain ⟨hour, minute, second, micro, hhour, hminute, hsecond, hmicro⟩ := clock
  simp [Clock.ofFields, hhour, hminute, hsecond, hmicro]

/-- A moment is the one with its fields. -/
theorem Moment.ofFields_self (moment : Moment) :
    Moment.ofFields moment.date.year moment.date.month moment.date.day moment.clock.hour
      moment.clock.minute moment.clock.second moment.clock.micro moment.offset = .ok moment := by
  rw [Moment.ofFields, Date.ofFields_self, Clock.ofFields_self]
  rfl

/-- What a form says that reads a moment up to its seconds. -/
def Moment.fields (moment : Moment) : Fields where
  year := moment.date.year
  month := moment.date.month
  day := moment.date.day
  hour := moment.clock.hour
  minute := moment.clock.minute
  second := moment.clock.second

/-- A form that reads the fields of a moment reads that moment. -/
theorem Moment.read?_of_reads {moment : Moment} {form : Form} {cs : List Char}
    (hnaive : moment.offset = none) (hmicro : moment.clock.micro = 0)
    (hreads : form.Reads {} cs moment.fields) : form.read? cs = some moment := by
  have hself := moment.ofFields_self
  rw [hnaive, hmicro] at hself
  rw [Form.read?_of_reads hreads]
  exact congrArg Except.toOption hself

variable {text : String} {words : List (List Char)}

/-- The words of a text are those that it spreads. -/
theorem toList_words (hspread : Text.Spread Text.isBlank words text.toList) :
    (Text.words text).map String.toList = words := by
  rw [Text.words_eq, hspread.wordsBy_eq, List.map_map]
  simp

/-- Blanks are collapsed to one space between words. -/
theorem toList_collapse (hspread : Text.Spread Text.isBlank words text.toList) :
    (Text.collapse text).toList = [' '].intercalate words := by
  rw [Text.collapse, String.toList_intercalate, toList_words hspread]
  rfl

/-- What one of the forms reads is what is read. -/
theorem read_of_readForm? {moment : Moment}
    (hspread : Text.Spread Text.isBlank words text.toList) (hne : words ≠ [])
    (hread : readForm? text = some moment) : read text = .ok moment := by
  have hwords : ((Text.words text).map String.toList).isEmpty = false := by
    simpa [toList_words hspread] using hne
  simp only [read, LooseText.shown_ofString]
  rw [hwords, hread]
  rfl

/-- A text is read as the first of the accepted forms that reads its words says. -/
theorem read_of_accepted {i : Nat} {form : Form} {cs : List Char} {moment : Moment}
    (hspread : Text.Spread Text.isBlank words text.toList) (hne : words ≠ [])
    (hjoined : [' '].intercalate words = cs) (haccepted : Form.accepted[i]? = some form)
    (hbefore : ∀ earlier ∈ Form.accepted.take i, earlier.read? cs = none)
    (hform : form.read? cs = some moment) : read text = .ok moment := by
  obtain ⟨hi, heq⟩ := List.getElem?_eq_some_iff.mp haccepted
  have hcut : Form.accepted = Form.accepted.take i ++ form :: Form.accepted.drop (i + 1) := by
    rw [← heq, ← List.drop_eq_getElem_cons hi, List.take_append_drop]
  have hfound : Form.accepted.findSome? (Form.read? · cs) = some moment :=
    List.findSome?_eq_some_iff.mpr ⟨_, form, _, hcut, hform, hbefore⟩
  refine read_of_readForm? hspread hne ?_
  simp only [readForm?]
  rw [toList_collapse hspread, hjoined, hfound]
  rfl

/-- A text that no accepted form reads is read as a clock stamp without the zone, if there is a
zone to leave out. -/
theorem read_of_zoneless {zoneless : List (List Char)} {cs : List Char} {moment : Moment}
    (hspread : Text.Spread Text.isBlank words text.toList)
    (hjoined : [' '].intercalate words = cs)
    (hnone : ∀ form ∈ Form.accepted, form.read? cs = none) (hdrop : dropZone words = some zoneless)
    (hform : Form.read? (Form.clockStamp ++ [.gap, .year]) ([' '].intercalate zoneless) =
      some moment) : read text = .ok moment := by
  have hne : words ≠ [] := by
    rintro rfl
    cases hdrop
  refine read_of_readForm? hspread hne ?_
  simp only [readForm?]
  rw [toList_collapse hspread, hjoined, toList_words hspread, hdrop,
    List.findSome?_eq_none_iff.mpr hnone]
  simp [hform]

/-- A text that no accepted form reads, and that has no zone to leave out, is read as a
timestamp. -/
theorem read_of_timestamp {cs : List Char} {moment : Moment}
    (hspread : Text.Spread Text.isBlank words text.toList) (hne : words ≠ [])
    (hjoined : [' '].intercalate words = cs)
    (hnone : ∀ form ∈ Form.accepted, form.read? cs = none) (hdrop : dropZone words = none)
    (hmoment : Iso.moment? (String.ofList cs) = some moment) : read text = .ok moment := by
  have hcollapse : Text.collapse text = String.ofList cs := by
    rw [← hjoined, ← toList_collapse hspread, String.ofList_toList]
  refine read_of_readForm? hspread hne ?_
  simp only [readForm?]
  rw [hcollapse, String.toList_ofList, toList_words hspread, hdrop,
    List.findSome?_eq_none_iff.mpr hnone]
  exact hmoment

end Manuscript.Calendar
