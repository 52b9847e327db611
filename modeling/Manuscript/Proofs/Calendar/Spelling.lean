import Manuscript.Proofs.Calendar.Form

/-! # How forms read what is spelled

A part reads a number or a name that is spelled out whole, if what follows does not go
on with a digit or a letter (`Part.Spells.head?_readNumber`, `Part.head?_readNames`). A form reads
a text if its parts do so one after another (`Form.Reads`).
-/

namespace Manuscript.Calendar

namespace Part

/-! ## Numbers -/

/-- What follows does not change what is taken, if it passes no test. -/
theorem takeMatching_append {tests : List (Char → Bool)} {cs rest : List Char}
    (hrest : ∀ test ∈ tests.drop cs.length, ∀ c ∈ rest.head?, test c = false) :
    takeMatching tests (cs ++ rest) =
      (takeMatching tests cs).map fun (taken, left) => (taken, left ++ rest) := by
  induction cs generalizing tests with
  | nil =>
      cases tests with
      | nil => rfl
      | cons test tests =>
          cases rest with
          | nil => rfl
          | cons c rest =>
              have hc : test c = false := hrest test List.mem_cons_self c rfl
              simp [takeMatching, hc]
  | cons c cs ih =>
      cases tests with
      | nil => rfl
      | cons test tests =>
          rw [List.cons_append, takeMatching, takeMatching, ih hrest]
          split
          · rw [Option.map_map, Option.map_map]
            rfl
          · rfl

/-- What follows does not change the number that is read, if it starts with no digit. -/
theorem readNumber_append {part : Part} {cs rest : List Char} (hne : cs ≠ [])
    (hrest : ∀ c ∈ rest.head?, Text.isDigit c = false) :
    part.readNumber (cs ++ rest) =
      (part.readNumber cs).map fun (n, left) => (n, left ++ rest) := by
  obtain ⟨first, others, rfl⟩ := List.exists_cons_of_ne_nil hne
  rw [readNumber, readNumber, List.map_filterMap]
  refine List.filterMap_congr fun tests htests => ?_
  rw [takeMatching_append, Option.map_map, Option.map_map]
  · rfl
  · intro test hmem c hc
    rw [List.length_cons, ← List.drop_tail] at hmem
    have hdigit := (testsDigit_of_spelling htests).1 test (List.mem_of_mem_drop hmem) c
    rw [hrest c hc] at hdigit
    simpa using hdigit

/-- The numbers that a part of one or two digits may be. -/
def holds : Part → Nat → Bool
  | month, n => 1 ≤ n && n ≤ 12
  | day, n => 1 ≤ n && n ≤ 31
  | hour, n => n < 24
  | minute, n | second, n => n < 60
  | _, _ => false

theorem mem_of_holds {part : Part} {n : Nat} (hholds : part.holds n = true) :
    part ∈ [month, day, hour, minute, second] := by
  cases part <;> simp_all [holds]

/-- One or two digits write a number that a part may be. -/
structure Spells (part : Part) (n : Nat) (cs : List Char) : Prop where
  holds : part.holds n = true
  numeral : Text.IsNumeral cs n
  ne_nil : cs ≠ []
  length_le : cs.length ≤ 2

/-- The first way to read a spelled number takes all of it. -/
theorem Spells.head?_readNumber_digits {part : Part} {cs : List Char} {n : Nat}
    (hspells : part.Spells n cs) : (part.readNumber cs).head? = some (n, []) := by
  obtain ⟨hholds, hcs, hne, hlength⟩ := hspells
  have hone : ∀ part ∈ [month, day, hour, minute, second], ∀ ones < 10,
      part.holds ones = false ∨
        (part.readNumber [Nat.digitChar ones]).head? = some (ones, []) := by decide +kernel
  have htwo : ∀ part ∈ [month, day, hour, minute, second], ∀ tens < 10, ∀ ones < 10,
      part.holds (10 * tens + ones) = false ∨
        (part.readNumber [Nat.digitChar tens, Nat.digitChar ones]).head? =
          some (10 * tens + ones, []) := by decide +kernel
  have hpart := mem_of_holds hholds
  rcases hcs.eq_digits hne hlength with
    ⟨ones, hones, rfl, rfl⟩ | ⟨tens, htens, ones, hones, rfl, rfl⟩
  · exact (hone part hpart n hones).resolve_left (by simp [hholds])
  · exact (htwo part hpart tens htens ones hones).resolve_left (by simp [hholds])

/-- A number of one or two digits is read whole. -/
theorem Spells.head?_readNumber {part : Part} {cs rest : List Char} {n : Nat}
    (hspells : part.Spells n cs) (hrest : ∀ c ∈ rest.head?, Text.isDigit c = false) :
    (part.readNumber (cs ++ rest)).head? = some (n, rest) := by
  rw [readNumber_append hspells.ne_nil hrest, List.head?_map, hspells.head?_readNumber_digits]
  rfl

/-- No number of a part has more than two digits. -/
theorem lt_of_holds {part : Part} {n : Nat} (hholds : part.holds n = true) : n < 10 ^ 2 := by
  cases part <;> simp [holds] at hholds <;> omega

theorem spells_toString {part : Part} {n : Nat} (hholds : part.holds n = true) :
    part.Spells n (toString n).toList :=
  ⟨hholds, Text.isNumeral_toString n, Text.toString_ne_nil n,
    Text.length_toString_le (by decide) (lt_of_holds hholds)⟩

theorem spells_padded {part : Part} {n : Nat} (hholds : part.holds n = true) :
    part.Spells n (Text.padded 2 n).toList := by
  have hlength := Text.length_padded (by decide) (lt_of_holds hholds)
  exact ⟨hholds, Text.isNumeral_padded 2 n, List.ne_nil_of_length_eq_add_one hlength, hlength.le⟩

/-- A year is read from four digits, whatever follows. -/
theorem head?_readNumber_year {cs rest : List Char} {n : Nat} (hcs : Text.IsNumeral cs n)
    (hlength : cs.length = 4) : (year.readNumber (cs ++ rest)).head? = some (n, rest) := by
  have htake : takeMatching [Text.isDigit, Text.isDigit, Text.isDigit, Text.isDigit] (cs ++ rest) =
      some (cs, rest) := by
    match cs, hlength with
    | [a, b, c, d], _ =>
        have hdigits := fun e hmem => Text.isDigit_of_plain (hcs.digits e hmem)
        simp only [List.forall_mem_cons] at hdigits
        simp [takeMatching, hdigits]
  rw [readNumber, spellings, List.filterMap_cons, htake]
  simp [hcs.decimalValue_eq]

/-! ## Names -/

/-- What follows a name does not change it, if it starts with no letter. -/
theorem afterName_append {name : String} {cs rest : List Char}
    (hname : ∀ c ∈ name.toList, c.isAlpha = true)
    (hrest : ∀ c ∈ rest.head?, c.isAlpha = false) :
    afterName name (cs ++ rest) = (afterName name cs).map (· ++ rest) := by
  rw [afterName, afterName]
  generalize hletters : Text.lowered name.toList = letters
  have halpha : ∀ c ∈ letters, c.isAlpha = true := by
    rintro c hmem
    rw [← hletters] at hmem
    obtain ⟨d, hd, rfl⟩ := List.mem_map.mp hmem
    rw [Char.isAlpha_toLower_eq_isAlpha]
    exact hname d hd
  by_cases hlong : letters.length ≤ cs.length
  · rw [List.take_append_of_le_length hlong, List.drop_append_of_le_length hlong]
    split <;> rfl
  · have hshort : (Text.lowered (cs.take letters.length) == letters) = false := by
      refine beq_eq_false_iff_ne.mpr fun hsame => hlong ?_
      rw [← hsame]
      simp [Text.lowered]
    have hlonger : (Text.lowered ((cs ++ rest).take letters.length) == letters) = false := by
      refine beq_eq_false_iff_ne.mpr fun hsame => ?_
      cases rest with
      | nil =>
          rw [List.append_nil] at hsame
          exact absurd hsame (beq_eq_false_iff_ne.mp hshort)
      | cons c rest =>
          -- The first character of `rest` would have to be one of the letters.
          have hmem : c.toLower ∈ letters := by
            rw [← hsame]
            refine List.mem_map_of_mem ?_
            rw [List.take_append, List.take_of_length_le (by omega),
              show letters.length - cs.length = letters.length - cs.length - 1 + 1 by omega]
            simp
          have hc := halpha _ hmem
          rw [Char.isAlpha_toLower_eq_isAlpha, hrest c rfl] at hc
          cases hc
    rw [hshort, hlonger]
    rfl

/-- What follows does not change the names that are read, if it starts with no letter. -/
theorem readNames_append {part : Part} {cs rest : List Char}
    (hrest : ∀ c ∈ rest.head?, c.isAlpha = false) :
    readNames part.names (cs ++ rest) =
      (readNames part.names cs).map fun (i, left) => (i, left ++ rest) := by
  rw [readNames, readNames, List.map_filterMap]
  refine List.filterMap_congr fun entry hmem => ?_
  have hname : entry.1 ∈ part.names := (List.mem_zipIdx' hmem).2 ▸ List.getElem_mem _
  obtain ⟨name, i⟩ := entry
  dsimp only
  rw [afterName_append (isAlpha_of_names hname) hrest, Option.map_map, Option.map_map]
  rfl

/-- The first name to be read off a name is that name. -/
theorem head?_readNames_name {part : Part} {name : String} {i : Nat}
    (hname : part.names[i]? = some name) :
    (readNames part.names name.toList).head? = some (i, []) := by
  have hall : ∀ part ∈ [monthAbbreviation, monthName, weekday, zone], ∀ i < part.names.length,
      (readNames part.names (part.names.getD i "").toList).head? = some (i, []) := by
    decide +kernel
  have hpart := mem_of_names (List.ne_nil_of_mem (List.mem_of_getElem? hname))
  obtain ⟨hi, rfl⟩ := List.getElem?_eq_some_iff.mp hname
  have hread := hall part hpart i hi
  rwa [List.getD_eq_getElem _ _ hi] at hread

/-- A name is read whole. -/
theorem head?_readNames {part : Part} {name : String} {i : Nat} {rest : List Char}
    (hname : part.names[i]? = some name) (hrest : ∀ c ∈ rest.head?, c.isAlpha = false) :
    (readNames part.names (name.toList ++ rest)).head? = some (i, rest) := by
  rw [readNames_append hrest, List.head?_map, head?_readNames_name hname]
  rfl

/-! ## Fields -/

/-- What is known once a part has been read as a number, or as the name at that position. -/
def store (part : Part) (n : Nat) (fields : Fields) : Fields :=
  match part with
  | year => { fields with year := n }
  | month => { fields with month := n }
  | monthAbbreviation | monthName => { fields with month := n + 1 }
  | day => { fields with day := n }
  | hour => { fields with hour := n }
  | minute => { fields with minute := n }
  | second => { fields with second := n }
  | mark _ | gap | weekday | zone => fields

theorem read_number {part : Part} (hpart : part.spellings ≠ []) (fields : Fields)
    (cs : List Char) :
    part.read fields cs =
      (part.readNumber cs).map fun (n, rest) => (part.store n fields, rest) := by
  cases part with
  | year | month | day | hour | minute | second => rfl
  | mark | gap | monthAbbreviation | monthName | weekday | zone => exact absurd rfl hpart

theorem read_name {part : Part} (hpart : part.names ≠ []) (fields : Fields) (cs : List Char) :
    part.read fields cs =
      (readNames part.names cs).map fun (i, rest) => (part.store i fields, rest) := by
  cases part with
  | monthAbbreviation | monthName | weekday | zone => rfl
  | mark | gap | year | month | day | hour | minute | second => exact absurd rfl hpart

end Part

namespace Form

/-- The first way in which a form reads a text takes all of it, and this is what it says. -/
def Reads (form : Form) (fields : Fields) (cs : List Char) (result : Fields) : Prop :=
  (form.readFrom fields cs).head? = some (result, [])

/-- A form gives the moment of the fields that it reads, if there is one. -/
theorem read?_of_reads {form : Form} {cs : List Char} {result : Fields}
    (hreads : form.Reads {} cs result) :
    form.read? cs =
      (Moment.ofFields result.year result.month result.day result.hour result.minute result.second
        0 none).toOption := by
  obtain ⟨others, hways⟩ := List.head?_eq_some_iff.mp hreads
  rw [read?, hways]

namespace Reads

variable {parts : Form} {fields result : Fields} {cs rest : List Char}

theorem nil (fields : Fields) : Reads [] fields [] fields := rfl

theorem cons {part : Part} {between : Fields}
    (hpart : (part.read fields cs).head? = some (between, rest))
    (hparts : Reads parts between rest result) : Reads (part :: parts) fields cs result := by
  obtain ⟨others, hways⟩ := List.head?_eq_some_iff.mp hpart
  rw [Reads, readFrom, hways, List.flatMap_cons, List.head?_append, hparts]
  rfl

theorem mark (c : Char) (hparts : Reads parts fields rest result) :
    Reads (.mark c :: parts) fields (c :: rest) result :=
  cons (by simp [Part.read]) hparts

/-- A gap of one space before a word. -/
theorem gap (hword : Text.IsWord Text.isBlank cs)
    (hparts : Reads parts fields (cs ++ rest) result) :
    Reads (.gap :: parts) fields (' ' :: (cs ++ rest)) result := by
  obtain ⟨c, others, rfl⟩ := List.exists_cons_of_ne_nil hword.ne_nil
  have hdrop : (c :: others ++ rest).dropWhile Text.isBlank = c :: others ++ rest :=
    List.dropWhile_cons_of_neg (by simp [hword.not_blank c List.mem_cons_self])
  have hpart : (Part.gap.read fields (' ' :: (c :: others ++ rest))).head? =
      some (fields, c :: others ++ rest) := by
    rw [Part.read, if_pos (by decide), hdrop]
    rfl
  exact cons hpart hparts

theorem year {n : Nat} (hcs : Text.IsNumeral cs n) (hlength : cs.length = 4)
    (hparts : Reads parts (Part.year.store n fields) rest result) :
    Reads (.year :: parts) fields (cs ++ rest) result := by
  refine cons ?_ hparts
  rw [Part.read_number (by decide), List.head?_map, Part.head?_readNumber_year hcs hlength]
  rfl

/-- A spelled number is read if no digit follows it. -/
theorem number {part : Part} {n : Nat} (hspells : part.Spells n cs)
    (hrest : ∀ c ∈ rest.head?, Text.isDigit c = false)
    (hparts : Reads parts (part.store n fields) rest result) :
    Reads (part :: parts) fields (cs ++ rest) result := by
  have hpart : part.spellings ≠ [] := by
    rintro hnone
    have hread := hspells.head?_readNumber_digits
    rw [Part.readNumber, hnone] at hread
    cases hread
  refine cons ?_ hparts
  rw [Part.read_number hpart, List.head?_map, hspells.head?_readNumber hrest]
  rfl

/-- A name is read if no letter follows it. -/
theorem name {part : Part} {name : String} {i : Nat} (hname : part.names[i]? = some name)
    (hrest : ∀ c ∈ rest.head?, c.isAlpha = false)
    (hparts : Reads parts (part.store i fields) rest result) :
    Reads (part :: parts) fields (name.toList ++ rest) result := by
  have hpart : part.names ≠ [] := List.ne_nil_of_mem (List.mem_of_getElem? hname)
  refine cons ?_ hparts
  rw [Part.read_name hpart, List.head?_map, Part.head?_readNames hname hrest]
  rfl

end Reads

end Form

end Manuscript.Calendar
