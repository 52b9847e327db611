import Mathlib
import Manuscript.Calendar.Pattern
import Manuscript.Proofs.Text.Numeral
import Manuscript.Proofs.Text.Words

/-! # What written forms take

A form reads a text only if the text is made of pieces that its parts may take
(`Form.takes_of_read?`). What is neither letter, digit nor blank in such a text are then
the marks of the form in their order, and its letters are as many as names of the form
have. A text that does not fit a form in this way is not read by it
(`Form.read?_eq_none`).
-/

namespace Manuscript

namespace Text

/-- The letters of a text. -/
def letters (cs : List Char) : List Char := cs.filter Char.isAlpha

/-- A character that is neither letter, digit nor blank. -/
def isPunctuation (c : Char) : Bool := !c.isAlpha && !isDigit c && !isBlank c

/-- What is neither letter, digit nor blank in a text. -/
def punctuation (cs : List Char) : List Char := cs.filter isPunctuation

theorem letters_append (first second : List Char) :
    letters (first ++ second) = letters first ++ letters second :=
  List.filter_append first second

theorem punctuation_append (first second : List Char) :
    punctuation (first ++ second) = punctuation first ++ punctuation second :=
  List.filter_append first second

theorem isAlpha_range {c : Char} (hc : c.isAlpha = true) :
    65 ≤ c.toNat ∧ c.toNat ≤ 90 ∨ 97 ≤ c.toNat ∧ c.toNat ≤ 122 := by
  simp only [Char.isAlpha, Char.isUpper, Char.isLower, Bool.or_eq_true, Bool.and_eq_true,
    decide_eq_true_eq, ge_iff_le, UInt32.le_iff_toNat_le] at hc
  exact hc

theorem isDigit_of_isAlpha {c : Char} (hc : c.isAlpha = true) : isDigit c = false := by
  have hrange := isAlpha_range hc
  simp only [isDigit, digit?]
  rw [if_pos (by omega), if_neg (by simp; omega)]
  rfl

theorem isBlank_of_isAlpha {c : Char} (hc : c.isAlpha = true) : isBlank c = false := by
  have hrange := isAlpha_range hc
  simp only [isBlank, Bool.or_eq_false_iff, Bool.and_eq_false_iff, decide_eq_false_iff_not,
    beq_eq_false_iff_ne]
  omega

theorem isWord_of_isAlpha {cs : List Char} (hne : cs ≠ [])
    (hcs : ∀ c ∈ cs, c.isAlpha = true) : IsWord isBlank cs :=
  ⟨hne, fun c hmem => isBlank_of_isAlpha (hcs c hmem)⟩

/-- Digits and blanks are passed over. -/
theorem letters_eq_nil {cs : List Char} (hcs : ∀ c ∈ cs, isDigit c = true ∨ isBlank c = true) :
    letters cs = [] := by
  refine List.filter_eq_nil_iff.mpr fun c hmem halpha => ?_
  rcases hcs c hmem with hc | hc
  · rw [isDigit_of_isAlpha halpha] at hc
    cases hc
  · rw [isBlank_of_isAlpha halpha] at hc
    cases hc

/-- Letters, digits and blanks are no punctuation. -/
theorem punctuation_eq_nil {cs : List Char}
    (hcs : ∀ c ∈ cs, c.isAlpha = true ∨ isDigit c = true ∨ isBlank c = true) :
    punctuation cs = [] := by
  refine List.filter_eq_nil_iff.mpr fun c hmem hc => ?_
  simp only [isPunctuation, Bool.and_eq_true, Bool.not_eq_true'] at hc
  rcases hcs c hmem with h | h | h <;> simp_all

theorem letters_word {cs : List Char} (hcs : ∀ c ∈ cs, c.isAlpha = true) : letters cs = cs :=
  List.filter_eq_self.mpr hcs

theorem punctuation_word {cs : List Char} (hcs : ∀ c ∈ cs, c.isAlpha = true) :
    punctuation cs = [] :=
  punctuation_eq_nil fun c hmem => .inl (hcs c hmem)

namespace IsNumeral

variable {cs : List Char} {n : Nat}

theorem letters_eq (hcs : IsNumeral cs n) : letters cs = [] :=
  letters_eq_nil fun c hmem => .inl (isDigit_of_plain (hcs.digits c hmem))

theorem punctuation_eq (hcs : IsNumeral cs n) : punctuation cs = [] :=
  punctuation_eq_nil fun c hmem => .inr (.inl (isDigit_of_plain (hcs.digits c hmem)))

theorem isWord (hcs : IsNumeral cs n) (hne : cs ≠ []) : IsWord isBlank cs := by
  refine ⟨hne, fun c hmem => ?_⟩
  have hrange := toNat_of_isDigit (hcs.digits c hmem)
  simp only [isBlank, Bool.or_eq_false_iff, Bool.and_eq_false_iff, decide_eq_false_iff_not,
    beq_eq_false_iff_ne]
  omega

end IsNumeral

/-- A text is put together from numbers, words of letters, blanks and marks: these are its marks
and its letters. -/
inductive Shape : List Char → List Char → List Char → Prop
  | nil : Shape [] [] []
  | number {cs rest marks letters : List Char} {n : Nat} (hcs : IsNumeral cs n)
      (hrest : Shape rest marks letters) : Shape (cs ++ rest) marks letters
  | word {cs rest marks letters : List Char} (hcs : ∀ c ∈ cs, c.isAlpha = true)
      (hrest : Shape rest marks letters) : Shape (cs ++ rest) marks (cs ++ letters)
  | blank {c : Char} {rest marks letters : List Char} (hc : isBlank c = true)
      (hrest : Shape rest marks letters) : Shape (c :: rest) marks letters
  | mark {c : Char} {rest marks letters : List Char} (hc : isPunctuation c = true)
      (hrest : Shape rest marks letters) : Shape (c :: rest) (c :: marks) letters

theorem Shape.punctuation_eq {cs marks letters : List Char} (hshape : Shape cs marks letters) :
    punctuation cs = marks := by
  induction hshape with
  | nil => rfl
  | number hcs _ ih => rw [punctuation_append, hcs.punctuation_eq, ih, List.nil_append]
  | word hcs _ ih => rw [punctuation_append, punctuation_word hcs, ih, List.nil_append]
  | blank hc _ ih =>
      rw [← ih]
      exact List.filter_cons_of_neg (by simp [isPunctuation, hc])
  | mark hc _ ih =>
      rw [← ih]
      exact List.filter_cons_of_pos hc

theorem Shape.letters_eq {cs marks letters : List Char} (hshape : Shape cs marks letters) :
    Text.letters cs = letters := by
  induction hshape with
  | nil => rfl
  | number hcs _ ih => rw [letters_append, hcs.letters_eq, ih, List.nil_append]
  | word hcs _ ih => rw [letters_append, letters_word hcs, ih]
  | @blank c _ _ _ hc _ ih =>
      have hnot : c.isAlpha = false := by
        by_contra halpha
        rw [isBlank_of_isAlpha (by simpa using halpha)] at hc
        cases hc
      rw [← ih]
      exact List.filter_cons_of_neg (by simp [hnot])
  | mark hc _ ih =>
      simp only [isPunctuation, Bool.and_eq_true, Bool.not_eq_true'] at hc
      rw [← ih]
      exact List.filter_cons_of_neg (by simp [hc])

end Text

namespace Calendar

namespace Part

/-- The names that a part may be. -/
def names : Part → List String
  | monthAbbreviation => monthAbbreviations
  | monthName => monthNames
  | weekday => weekdayAbbreviations
  | zone => ["UTC", "GMT"]
  | _ => []

/-- What a part may take of a text. -/
inductive Takes : Part → List Char → Prop
  | mark (c : Char) : Takes (.mark c) [c]
  | gap {blanks : List Char} (hne : blanks ≠ []) (hblank : ∀ c ∈ blanks, Text.isBlank c = true) :
      Takes .gap blanks
  | number {part : Part} {tests : List (Char → Bool)} {cs : List Char}
      (htests : tests ∈ part.spellings)
      (hcs : List.Forall₂ (fun test c => test c = true) tests cs) : Takes part cs
  | name {part : Part} {name : String} {cs : List Char} (hname : name ∈ part.names)
      (hcs : Text.lowered cs = Text.lowered name.toList) : Takes part cs

/-- What is taken passes the tests one by one. -/
theorem takeMatching_eq_some {tests : List (Char → Bool)} {cs taken rest : List Char}
    (htaken : takeMatching tests cs = some (taken, rest)) :
    cs = taken ++ rest ∧ List.Forall₂ (fun test c => test c = true) tests taken := by
  induction tests generalizing cs taken with
  | nil =>
      cases htaken
      exact ⟨rfl, .nil⟩
  | cons test tests ih =>
      cases cs with
      | nil => cases htaken
      | cons c cs =>
          rw [takeMatching] at htaken
          split at htaken
          next hc =>
            obtain ⟨⟨taken, rest⟩, hrest, heq⟩ := Option.map_eq_some_iff.mp htaken
            cases heq
            obtain ⟨rfl, hmatch⟩ := ih hrest
            exact ⟨rfl, .cons hc hmatch⟩
          next => cases htaken

/-- A number is read off a text that its part takes. -/
theorem takes_of_readNumber {part : Part} {cs rest : List Char} {n : Nat}
    (hread : (n, rest) ∈ part.readNumber cs) : ∃ taken, cs = taken ++ rest ∧ part.Takes taken := by
  obtain ⟨tests, htests, hread⟩ := List.mem_filterMap.mp hread
  obtain ⟨⟨taken, left⟩, htaken, heq⟩ := Option.map_eq_some_iff.mp hread
  cases heq
  obtain ⟨rfl, hmatch⟩ := takeMatching_eq_some htaken
  exact ⟨taken, rfl, .number htests hmatch⟩

/-- A name is read off a text that its part takes. -/
theorem takes_of_readNames {part : Part} {cs rest : List Char} {i : Nat}
    (hread : (i, rest) ∈ readNames part.names cs) :
    ∃ taken, cs = taken ++ rest ∧ part.Takes taken := by
  obtain ⟨⟨name, j⟩, hname, hread⟩ := List.mem_filterMap.mp hread
  obtain ⟨left, hafter, heq⟩ := Option.map_eq_some_iff.mp hread
  cases heq
  rw [afterName] at hafter
  split at hafter
  next hsame =>
    cases hafter
    have hmem : name ∈ part.names := (List.mem_zipIdx' hname).2 ▸ List.getElem_mem _
    exact ⟨_, (List.take_append_drop _ cs).symm, .name hmem (beq_iff_eq.mp hsame)⟩
  next => cases hafter

/-- Whatever way a part reads a text, it takes something from its start. -/
theorem takes_of_read {part : Part} {fields fields' : Fields} {cs rest : List Char}
    (hread : (fields', rest) ∈ part.read fields cs) :
    ∃ taken, cs = taken ++ rest ∧ part.Takes taken := by
  cases part with
  | mark c =>
      cases cs with
      | nil => cases hread
      | cons d cs =>
          rw [read] at hread
          split at hread
          next hsame =>
            obtain rfl : c = d := beq_iff_eq.mp hsame
            cases List.mem_singleton.mp hread
            exact ⟨[c], rfl, .mark c⟩
          next => cases hread
  | gap =>
      cases cs with
      | nil => cases hread
      | cons d cs =>
          rw [read] at hread
          split at hread
          next hd =>
            cases List.mem_singleton.mp hread
            refine ⟨d :: cs.takeWhile Text.isBlank, ?_, .gap (List.cons_ne_nil _ _) ?_⟩
            · rw [List.cons_append, List.takeWhile_append_dropWhile]
            · rintro c (_ | ⟨_, hmem⟩)
              · exact hd
              · exact List.mem_takeWhile_imp hmem
          next => cases hread
  | year | month | day | hour | minute | second =>
      obtain ⟨⟨n, left⟩, hread, heq⟩ := List.mem_map.mp hread
      cases heq
      exact takes_of_readNumber hread
  | monthAbbreviation | monthName | weekday | zone =>
      obtain ⟨⟨i, left⟩, hread, heq⟩ := List.mem_map.mp hread
      cases heq
      exact takes_of_readNames hread

/-- The marks of a part that are punctuation. -/
def marks : Part → List Char
  | mark c => Text.punctuation [c]
  | _ => []

/-- How many letters a part may take. -/
def letterCounts : Part → List Nat
  | mark c => [(Text.letters [c]).length]
  | part => if part.names.isEmpty then [0] else part.names.map String.length

/-- Only the months, the weekday and the zone have names. -/
theorem mem_of_names {part : Part} (hpart : part.names ≠ []) :
    part ∈ [monthAbbreviation, monthName, weekday, zone] := by
  cases part <;> simp_all [names]

/-- Names are words of letters. -/
theorem letters_of_names {part : Part} {name : String} (hname : name ∈ part.names) :
    name.toList.all Char.isAlpha = true ∧ name.toList ≠ [] := by
  have hall : ∀ part ∈ [monthAbbreviation, monthName, weekday, zone], ∀ name ∈ part.names,
      name.toList.all Char.isAlpha = true ∧ name.toList ≠ [] := by decide +kernel
  exact hall part (mem_of_names (List.ne_nil_of_mem hname)) name hname

/-- All names are words of letters. -/
theorem isAlpha_of_names {part : Part} {name : String} (hname : name ∈ part.names) :
    ∀ c ∈ name.toList, c.isAlpha = true :=
  List.all_eq_true.mp (letters_of_names hname).1

theorem isWord_of_names {part : Part} {name : String} (hname : name ∈ part.names) :
    Text.IsWord Text.isBlank name.toList :=
  Text.isWord_of_isAlpha (letters_of_names hname).2 (isAlpha_of_names hname)

/-- A part that is spelled in digits is neither a mark nor a name. -/
theorem counts_of_spelling {part : Part} {tests : List (Char → Bool)}
    (htests : tests ∈ part.spellings) : part.marks = [] ∧ part.letterCounts = [0] := by
  cases part <;> simp_all [spellings, marks, letterCounts, names]

theorem counts_of_name {part : Part} {name : String} (hname : name ∈ part.names) :
    part.marks = [] ∧ name.length ∈ part.letterCounts := by
  have hlengths := List.mem_map_of_mem (f := String.length) hname
  have hne := List.ne_nil_of_mem hname
  cases part <;> simp_all [marks, letterCounts, names]

/-- What is taken for a name are as many letters. -/
theorem isAlpha_of_lowered {part : Part} {name : String} {cs : List Char}
    (hname : name ∈ part.names) (hcs : Text.lowered cs = Text.lowered name.toList) :
    ∀ c ∈ cs, c.isAlpha = true := by
  intro c hmem
  have hlower : c.toLower ∈ Text.lowered name.toList := by
    rw [← hcs]
    exact List.mem_map_of_mem hmem
  obtain ⟨d, hd, hsame⟩ := List.mem_map.mp hlower
  rw [← Char.isAlpha_toLower_eq_isAlpha, ← hsame, Char.isAlpha_toLower_eq_isAlpha]
  exact isAlpha_of_names hname d hd

/-- Numbers are spelled with digits and blanks. -/
theorem isDigit_or_isBlank_of_spelling {part : Part} {tests : List (Char → Bool)} {cs : List Char}
    (htests : tests ∈ part.spellings)
    (hcs : List.Forall₂ (fun test c => test c = true) tests cs) :
    ∀ c ∈ cs, Text.isDigit c = true ∨ Text.isBlank c = true := by
  have hspelling := (testsDigit_of_spelling htests).2
  clear htests
  induction hcs with
  | nil => nofun
  | cons hc _ ih =>
      rw [List.forall_mem_cons] at hspelling ⊢
      refine ⟨?_, ih hspelling.2⟩
      rcases hspelling.1 with hdigit | rfl
      · exact .inl (hdigit _ hc)
      · exact .inr (by rw [beq_iff_eq.mp hc]; decide)

/-- What is taken has the punctuation of what takes it. -/
theorem Takes.punctuation_eq {part : Part} {cs : List Char} (htakes : part.Takes cs) :
    Text.punctuation cs = part.marks := by
  cases htakes with
  | mark c => rfl
  | gap _ hblank => exact Text.punctuation_eq_nil fun c hmem => .inr (.inr (hblank c hmem))
  | number htests hcs =>
      have hcs := isDigit_or_isBlank_of_spelling htests hcs
      rw [(counts_of_spelling htests).1]
      exact Text.punctuation_eq_nil fun c hmem => .inr (hcs c hmem)
  | name hname hcs =>
      rw [(counts_of_name hname).1, Text.punctuation_word (isAlpha_of_lowered hname hcs)]

theorem Takes.length_letters_mem {part : Part} {cs : List Char} (htakes : part.Takes cs) :
    (Text.letters cs).length ∈ part.letterCounts := by
  cases htakes with
  | mark c => exact List.mem_singleton_self _
  | gap _ hblank =>
      rw [Text.letters_eq_nil fun c hmem => .inr (hblank c hmem)]
      exact List.mem_singleton_self _
  | number htests hcs =>
      rw [Text.letters_eq_nil (isDigit_or_isBlank_of_spelling htests hcs),
        (counts_of_spelling htests).2]
      exact List.mem_singleton_self _
  | @name _ word _ hname hcs =>
      have hlength : (Text.letters cs).length = word.length := by
        rw [Text.letters_word (isAlpha_of_lowered hname hcs)]
        simpa [Text.lowered, String.length_toList] using congrArg List.length hcs
      rw [hlength]
      exact (counts_of_name hname).2

end Part

namespace Form

/-- A text is made of pieces that the parts of a form may take, one after another. -/
inductive Takes : Form → List Char → Prop
  | nil : Takes [] []
  | cons {part : Part} {parts : Form} {cs rest : List Char} (hpart : part.Takes cs)
      (hparts : Takes parts rest) : Takes (part :: parts) (cs ++ rest)

/-- A form is read off a text that it takes. -/
theorem takes_of_readFrom {form : Form} {fields fields' : Fields} {cs rest : List Char}
    (hread : (fields', rest) ∈ form.readFrom fields cs) :
    ∃ taken, cs = taken ++ rest ∧ form.Takes taken := by
  induction form generalizing fields cs with
  | nil =>
      cases List.mem_singleton.mp hread
      exact ⟨[], rfl, .nil⟩
  | cons part parts ih =>
      obtain ⟨⟨between, left⟩, hpart, hparts⟩ := List.mem_flatMap.mp hread
      obtain ⟨first, rfl, hfirst⟩ := Part.takes_of_read hpart
      obtain ⟨others, rfl, hothers⟩ := ih hparts
      exact ⟨first ++ others, (List.append_assoc _ _ _).symm, .cons hfirst hothers⟩

/-- A form reads only texts that it takes as a whole. -/
theorem takes_of_read? {form : Form} {cs : List Char} {moment : Moment}
    (hread : form.read? cs = some moment) : form.Takes cs := by
  unfold read? at hread
  split at hread
  next fields _ hways =>
    have hmem : (fields, []) ∈ form.readFrom {} cs := by
      rw [hways]
      exact List.mem_cons_self
    obtain ⟨taken, rfl, htakes⟩ := takes_of_readFrom hmem
    rwa [List.append_nil]
  next => cases hread

/-- The marks of a form that are punctuation. -/
def marks (form : Form) : List Char := form.flatMap Part.marks

/-- How many letters a form may take. -/
def letterCounts : Form → List Nat
  | [] => [0]
  | part :: parts => part.letterCounts.flatMap fun count => (letterCounts parts).map (count + ·)

theorem Takes.punctuation_eq {form : Form} {cs : List Char} (htakes : form.Takes cs) :
    Text.punctuation cs = form.marks := by
  induction htakes with
  | nil => rfl
  | cons hpart _ ih => rw [Text.punctuation_append, hpart.punctuation_eq, ih]; rfl

theorem Takes.length_letters_mem {form : Form} {cs : List Char} (htakes : form.Takes cs) :
    (Text.letters cs).length ∈ form.letterCounts := by
  induction htakes with
  | nil => exact List.mem_singleton_self 0
  | cons hpart _ ih =>
      rw [Text.letters_append, List.length_append]
      exact List.mem_flatMap.mpr ⟨_, hpart.length_letters_mem, List.mem_map_of_mem ih⟩

/-- A year takes four digits. -/
theorem Takes.isDigit_of_year {parts : Form} {cs : List Char} (htakes : Takes (.year :: parts) cs) :
    ∀ c ∈ cs.take 4, Text.isDigit c = true := by
  obtain _ | @⟨_, _, taken, rest, hpart, _⟩ := htakes
  cases hpart with
  | number htests hcs =>
      obtain rfl := List.mem_singleton.mp htests
      match taken, hcs with
      | [a, b, c, d], .cons ha (.cons hb (.cons hc (.cons hd .nil))) => simp [ha, hb, hc, hd]
  | name hname _ => exact absurd hname List.not_mem_nil

/-- A text with too few or too many letters for a form is not read by it. -/
theorem read?_eq_none_of_letters {form : Form} {cs : List Char}
    (hletters : (Text.letters cs).length ∉ form.letterCounts) : form.read? cs = none := by
  cases hread : form.read? cs with
  | none => rfl
  | some moment => exact absurd (takes_of_read? hread).length_letters_mem hletters

/-- A text with other punctuation is not read. -/
theorem read?_eq_none_of_marks {form : Form} {cs : List Char}
    (hmarks : form.marks ≠ Text.punctuation cs) : form.read? cs = none := by
  cases hread : form.read? cs with
  | none => rfl
  | some moment => exact absurd (takes_of_read? hread).punctuation_eq.symm hmarks

/-- A text whose marks are not those of a form, or which has too few or too many letters for it, is
not read by the form. -/
theorem read?_eq_none {form : Form} {cs marks letters : List Char}
    (hshape : Text.Shape cs marks letters)
    (hform : form.marks ≠ marks ∨ letters.length ∉ form.letterCounts) : form.read? cs = none := by
  rw [← hshape.punctuation_eq, ← hshape.letters_eq] at hform
  exact hform.elim read?_eq_none_of_marks read?_eq_none_of_letters

end Form

end Calendar

end Manuscript
