import Manuscript.Markdown.Reading
import Manuscript.Proofs.Text.Lines
import Manuscript.Proofs.Text.Split
import Mathlib.Data.List.Forall2
import Mathlib.Data.List.TakeWhile

/-! # Title blocks

The lines at the start of a text that carry the mark of title blocks are split off:
none of them is left, no other is taken, and the text that each of them carries is a
line of the block (`splitTitleBlock_takes_marked_lines`). A block that is written line
by line is split off as it was exactly if its lines have no end within them
(`splitTitleBlock_written_iff`).
-/

namespace Manuscript

namespace Text

theorem dropTrailing_append {α : Type} {drop : α → Bool} {kept dropped : List α}
    (hkept : ∀ c ∈ kept, drop c = false) (hdropped : ∀ c ∈ dropped, drop c = true) :
    dropTrailing drop (kept ++ dropped) = kept := by
  have hreverse : kept.reverse.dropWhile drop = kept.reverse := by
    cases hcases : kept.reverse with
    | nil => rfl
    | cons c cs =>
        have hmem : c ∈ kept := by
          rw [← List.mem_reverse, hcases]
          exact List.mem_cons_self
        rw [List.dropWhile_cons_of_neg (by simp [hkept c hmem])]
  rw [dropTrailing, List.reverse_append, List.dropWhile_append_of_pos (by simpa using hdropped),
    hreverse, List.reverse_reverse]

end Text

namespace Markdown

open Text (IsPlain)

/-! ## What is split off -/

/-- A text starts with a title block exactly if it starts with its mark. -/
theorem splitTitleBlock_isSome (content : String) :
    (splitTitleBlock content).1.isSome ↔ content.toList.head? = some titleMark := by
  rw [← Text.head?_lines]
  unfold splitTitleBlock
  cases Text.lines content.toList with
  | nil => simp
  | cons line rest =>
      by_cases hmarked : isMarked line = true
      · simp_all [isMarked]
      · simp_all [isMarked]

/-- A text that does not start with the mark of a title block is not split. -/
theorem splitTitleBlock_of_unmarked {content : String}
    (hunmarked : content.toList.head? ≠ some titleMark) :
    splitTitleBlock content = (none, content) := by
  rw [ne_eq, ← splitTitleBlock_isSome] at hunmarked
  unfold splitTitleBlock at hunmarked ⊢
  dsimp only at hunmarked ⊢
  split
  · rfl
  · simp_all

/-- A line of a title block and the text that it carries: the line without its mark, without one
space if there is one after the mark, and without the carriage return and the line feed at its
end. -/
inductive Carries : List Char → List Char → Prop
  | spaced {said ending : List Char} (hsaid : ∀ c ∈ said, endsLine c = false)
      (hending : ∀ c ∈ ending, endsLine c = true) :
      Carries (titleMark :: ' ' :: (said ++ ending)) said
  | bare {said ending : List Char} (hspace : said.head? ≠ some ' ')
      (hsaid : ∀ c ∈ said, endsLine c = false) (hending : ∀ c ∈ ending, endsLine c = true) :
      Carries (titleMark :: (said ++ ending)) said

/-- How a text is split into its title block, if it starts with one, and the rest: the first lines
of the text carry the lines of the block, and the rest has the other lines and does not go on with
the block. -/
inductive TitleSplit (content : String) : Option String × String → Prop
  | none (hunmarked : content.toList.head? ≠ some titleMark) : TitleSplit content (none, content)
  | block {marked said : List (List Char)} {rest : String} (hsome : marked ≠ [])
      (hcontent : content.toList = marked.flatten ++ rest.toList)
      (hlines : Text.lines content.toList = marked ++ Text.lines rest.toList)
      (hsaid : List.Forall₂ Carries marked said) (hrest : rest.toList.head? ≠ some titleMark) :
      TitleSplit content (some (String.ofList (['\n'].intercalate said)), rest)

section

variable {line said : List Char} {content : String} {result : Option String × String}

theorem Carries.head? (hcarries : Carries line said) : line.head? = some titleMark := by
  cases hcarries <;> rfl

theorem Carries.isMarked (hcarries : Carries line said) : isMarked line = true := by
  rw [Markdown.isMarked, hcarries.head?]
  rfl

theorem Carries.plain (hcarries : Carries line said) : ∀ c ∈ said, endsLine c = false := by
  cases hcarries with
  | spaced hsaid _ => exact hsaid
  | bare _ hsaid _ => exact hsaid

theorem Carries.unmark_eq (hcarries : Carries line said) : unmark line = said := by
  have hmark : endsLine titleMark = false := rfl
  have hspace : endsLine ' ' = false := rfl
  cases hcarries with
  | @spaced said ending hsaid hending =>
      have hkept : ∀ c ∈ titleMark :: ' ' :: said, endsLine c = false := by simp_all
      have hdrop := Text.dropTrailing_append hkept hending
      simp only [List.cons_append] at hdrop
      simp [unmark, hdrop]
  | @bare said ending hbare hsaid hending =>
      have hkept : ∀ c ∈ titleMark :: said, endsLine c = false := by simp_all
      have hdrop := Text.dropTrailing_append hkept hending
      simp only [List.cons_append] at hdrop
      simp only [unmark, hdrop, List.drop_succ_cons, List.drop_zero]
      split
      · simp at hbare
      · rfl

theorem endsLine_of_isPlain {cs : List Char} (hplain : IsPlain cs) :
    ∀ c ∈ cs, endsLine c = false := by
  intro c hc
  have hend := hplain c hc
  simp only [endsLine, Bool.or_eq_false_iff, beq_eq_false_iff_ne]
  constructor <;> rintro rfl <;> cases hend

/-- A line holds no carriage return and no line feed but at its end. -/
theorem exists_ending_of_mem_lines {cs : List Char} (hline : line ∈ Text.lines cs) :
    ∃ body ending, line = body ++ ending ∧ (∀ c ∈ body, endsLine c = false) ∧
      ∀ c ∈ ending, endsLine c = true := by
  obtain ⟨body, ending, rfl, hplain, hending⟩ := (Text.cut_lines cs).exists_ending hline
  have hbody := endsLine_of_isPlain hplain
  obtain rfl | ⟨rest, hending⟩ := hending
  · exact ⟨body, [], rfl, hbody, nofun⟩
  cases hending with
  | pair => exact ⟨body, _, rfl, hbody, by simp [endsLine]⟩
  | @single c rest hend halone =>
      cases hends : endsLine c with
      | true => exact ⟨body, [c], rfl, hbody, by simpa using hends⟩
      | false =>
          refine ⟨body ++ [c], [], (List.append_nil _).symm, ?_, nofun⟩
          exact List.forall_mem_append.mpr ⟨hbody, by simpa using hends⟩

/-- Every marked line carries a text. -/
theorem carries_unmark {cs : List Char} (hline : line ∈ Text.lines cs)
    (hmarked : isMarked line = true) : Carries line (unmark line) := by
  suffices hcarries : ∃ said, Carries line said by
    obtain ⟨said, hcarries⟩ := hcarries
    rwa [hcarries.unmark_eq]
  obtain ⟨body, ending, rfl, hbody, hending⟩ := exists_ending_of_mem_lines hline
  cases body with
  | nil =>
      -- The mark is not an end of a line.
      cases ending with
      | nil => cases hmarked
      | cons c ending =>
          obtain rfl : c = titleMark := by simpa [isMarked] using hmarked
          cases hending titleMark List.mem_cons_self
  | cons c body =>
      obtain rfl : c = titleMark := by simpa [isMarked] using hmarked
      obtain ⟨-, hbody⟩ := List.forall_mem_cons.mp hbody
      cases body with
      | nil =>
          have hnone : ∀ c ∈ ([] : List Char), endsLine c = false := nofun
          exact ⟨[], .bare nofun hnone hending⟩
      | cons next body =>
          by_cases hspace : next = ' '
          · subst hspace
            exact ⟨body, .spaced (List.forall_mem_cons.mp hbody).2 hending⟩
          · exact ⟨next :: body, .bare (by simpa using hspace) hbody hending⟩

/-- Marked lines are taken up to lines that start with another one. -/
theorem span_marked {marked : List (List Char)} {cs : List Char}
    (hmarked : ∀ line ∈ marked, isMarked line = true) (hrest : cs.head? ≠ some titleMark) :
    (marked ++ Text.lines cs).takeWhile isMarked = marked ∧
      (marked ++ Text.lines cs).dropWhile isMarked = Text.lines cs := by
  rw [List.takeWhile_append_of_pos hmarked, List.dropWhile_append_of_pos hmarked]
  rw [← Text.head?_lines] at hrest
  cases hlines : Text.lines cs with
  | nil => simp
  | cons line others =>
      have hunmarked : ¬ isMarked line = true := by simpa [hlines, isMarked] using hrest
      rw [List.takeWhile_cons_of_neg hunmarked, List.dropWhile_cons_of_neg hunmarked]
      simp

theorem forall₂_carries {marked : List (List Char)}
    (hmarked : ∀ line ∈ marked, Carries line (unmark line)) :
    List.Forall₂ Carries marked (marked.map unmark) := by
  rw [List.forall₂_map_right_iff, List.forall₂_same]
  exact hmarked

/-- Cutting a text gives a title block and a rest as they are described. -/
theorem titleSplit_splitTitleBlock (content : String) :
    TitleSplit content (splitTitleBlock content) := by
  by_cases hmark : content.toList.head? = some titleMark
  · rw [← splitTitleBlock_isSome] at hmark
    unfold splitTitleBlock at hmark ⊢
    generalize hlines : Text.lines content.toList = lines at hmark ⊢
    have hcut := List.takeWhile_append_dropWhile (p := isMarked) (l := lines)
    have hsuffix : lines.dropWhile isMarked <:+ Text.lines content.toList := by
      rw [hlines]
      exact List.dropWhile_suffix isMarked
    have hrest := Text.lines_flatten_of_suffix hsuffix
    have hsome : lines.takeWhile isMarked ≠ [] := by
      intro hnone
      simp [hnone] at hmark
    have hmarked : ∀ line ∈ lines.takeWhile isMarked, Carries line (unmark line) := by
      intro line hline
      have hmem : line ∈ Text.lines content.toList := by
        rw [hlines]
        exact List.takeWhile_subset _ hline
      exact carries_unmark hmem (List.mem_takeWhile_imp hline)
    rw [if_neg (by simpa using hsome)]
    refine .block hsome ?_ ?_ (forall₂_carries hmarked) ?_
    · rw [String.toList_ofList, ← List.flatten_append, hcut, ← hlines, Text.flatten_lines]
    · rw [String.toList_ofList, hrest, hcut, hlines]
    · rw [String.toList_ofList, ← Text.head?_lines, hrest]
      have hhead := List.head?_dropWhile_not isMarked lines
      cases hothers : lines.dropWhile isMarked with
      | nil => simp
      | cons line others => simpa [hothers, isMarked] using hhead
  · rw [splitTitleBlock_of_unmarked hmark]
    exact .none hmark

/-- There is only one way to cut a title block from a text. -/
theorem TitleSplit.eq_splitTitleBlock (hsplit : TitleSplit content result) :
    splitTitleBlock content = result := by
  cases hsplit with
  | none hunmarked => exact splitTitleBlock_of_unmarked hunmarked
  | @block marked said rest hsome _ hlines hsaid hrest =>
      obtain ⟨hmarked, hunmark⟩ := (List.forall₂_and_left _ _).mp <|
        hsaid.imp fun _ _ hcarries => ⟨hcarries.isMarked, hcarries.unmark_eq⟩
      rw [← List.forall₂_map_left_iff, List.forall₂_eq_eq_eq] at hunmark
      obtain ⟨htake, hdrop⟩ := span_marked hmarked hrest
      simp only [splitTitleBlock, hlines, htake, hdrop, hunmark, Text.flatten_lines,
        String.ofList_toList]
      rw [if_neg (by simpa using hsome)]

/-- `TitleSplit` tells what is split off a text and what is left. -/
theorem titleSplit_iff : TitleSplit content result ↔ splitTitleBlock content = result := by
  refine ⟨TitleSplit.eq_splitTitleBlock, ?_⟩
  rintro rfl
  exact titleSplit_splitTitleBlock content

/-- What is left does not start with another line of the title block. -/
theorem TitleSplit.head?_rest (hsplit : TitleSplit content result) :
    result.2.toList.head? ≠ some titleMark := by
  cases hsplit with
  | none hunmarked => exact hunmarked
  | block _ _ _ _ hrest => exact hrest

/-- What is split off a text is the texts that its first lines carry, as far as they are marked.
Nothing is lost, and nothing more is split off what is left. -/
theorem splitTitleBlock_takes_marked_lines (content : String) (result : Option String × String) :
    (splitTitleBlock content = result ↔ TitleSplit content result) ∧
      splitTitleBlock (splitTitleBlock content).2 = (none, (splitTitleBlock content).2) := by
  refine ⟨titleSplit_iff.symm, ?_⟩
  exact splitTitleBlock_of_unmarked (titleSplit_splitTitleBlock content).head?_rest

end

/-! ## Title blocks that are written -/

/-- A line of a title block as it is written. -/
def markedLine (said : List Char) : List Char := titleMark :: ' ' :: (said ++ ['\n'])

/-- A text with a title block before it, each line of which is written after the mark and a
space. -/
def writtenTitle (said : List String) (body : String) : String :=
  String.join (said.map fun line => "% " ++ line ++ "\n") ++ body

theorem toList_writtenTitle (said : List String) (body : String) :
    (writtenTitle said body).toList =
      (said.map String.toList).flatMap markedLine ++ body.toList := by
  have hline (line : String) : ("% " ++ line ++ "\n").toList = markedLine line.toList := by
    simp [markedLine, titleMark]
  simp [writtenTitle, String.toList_join, List.flatMap_map, hline]

section

variable {line text : List Char} {said lines marked : List (List Char)}

theorem count_intercalate (c : Char) (hne : lines ≠ []) :
    (['\n'].intercalate lines).count c + (if c = '\n' then 1 else 0) =
      lines.flatten.count c + if c = '\n' then lines.length else 0 := by
  induction lines with
  | nil => exact absurd rfl hne
  | cons line rest ih =>
      cases rest with
      | nil => simp
      | cons next rest =>
          have hrest := ih (List.cons_ne_nil _ _)
          rw [List.intercalate_cons_cons, List.flatten_cons, List.count_append, List.count_append,
            List.count_append, List.count_singleton, List.length_cons]
          by_cases hc : c = '\n'
          · simp only [hc, if_true, beq_self_eq_true] at hrest ⊢
            omega
          · have hne : ('\n' == c) = false := by simpa using Ne.symm hc
            simp only [hc, hne, Bool.false_eq_true, if_false] at hrest ⊢
            omega

theorem Carries.count_mark (hcarries : Carries line text) :
    line.count titleMark = text.count titleMark + 1 := by
  have hending {ending : List Char} (hends : ∀ c ∈ ending, endsLine c = true) :
      ending.count titleMark = 0 := by
    rw [List.count_eq_zero]
    intro hmem
    cases hends titleMark hmem
  have hspace : (' ' == titleMark) = false := rfl
  cases hcarries with
  | spaced _ hends => simp [List.count_cons, hending hends, hspace]
  | bare _ _ hends => simp [hending hends]

theorem plain_of_carries (hsaid : List.Forall₂ Carries marked said) :
    ∀ text ∈ said, ∀ c ∈ text, endsLine c = false := by
  induction hsaid with
  | nil => exact nofun
  | cons hcarries _ ih => exact List.forall_mem_cons.mpr ⟨hcarries.plain, ih⟩

theorem head?_of_carries (hsaid : List.Forall₂ Carries marked said) :
    ∀ c ∈ marked.flatten.head?, c = titleMark := by
  cases hsaid with
  | nil => exact nofun
  | cons hcarries _ => cases hcarries <;> simp [eq_comm]

/-- Each line has one mark more than the text that it carries. -/
theorem count_mark_of_carries (hsaid : List.Forall₂ Carries marked said) :
    marked.flatten.count titleMark = said.flatten.count titleMark + said.length := by
  induction hsaid with
  | nil => rfl
  | cons hcarries _ ih =>
      simp only [List.flatten_cons, List.count_append, List.length_cons, ih, hcarries.count_mark]
      omega

theorem count_mark_markedLine (said : List (List Char)) :
    (said.flatMap markedLine).count titleMark = said.flatten.count titleMark + said.length := by
  induction said with
  | nil => rfl
  | cons line said ih =>
      have hline : (markedLine line).count titleMark = line.count titleMark + 1 := by
        simp [markedLine, titleMark]
      simp only [List.flatMap_cons, List.flatten_cons, List.count_append, List.length_cons, ih,
        hline]
      omega

/-- If what is split off a written block joins to what the written lines join to, it is these
lines. -/
theorem said_eq_of_written (hsaid : List.Forall₂ Carries marked said)
    (hwritten : marked.flatten = lines.flatMap markedLine)
    (hjoined : ['\n'].intercalate said = ['\n'].intercalate lines) (hsome : said ≠ [])
    (hlines : lines ≠ []) : said = lines := by
  have hplain : ∀ text ∈ said, '\n' ∉ text := by
    intro text htext hmem
    cases plain_of_carries hsaid text htext '\n' hmem
  -- There are as many lines as marks before them, so no line feed stands within one of them.
  have hmarks : said.length = lines.length := by
    have hcount := count_mark_of_carries hsaid
    rw [hwritten, count_mark_markedLine] at hcount
    have hleft := count_intercalate titleMark hsome
    have hright := count_intercalate titleMark hlines
    have hmark : titleMark ≠ '\n' := by decide
    rw [hjoined] at hleft
    simp only [hmark, if_false] at hleft hright
    omega
  have hfeeds : lines.flatten.count '\n' = 0 := by
    have hnone : said.flatten.count '\n' = 0 := by
      rw [List.count_eq_zero, List.mem_flatten]
      rintro ⟨text, htext, hmem⟩
      exact hplain text htext hmem
    have hleft := count_intercalate '\n' hsome
    have hright := count_intercalate '\n' hlines
    rw [hjoined] at hleft
    simp only [if_true] at hleft hright
    omega
  have hfree : ∀ line ∈ lines, '\n' ∉ line := by
    intro line hline hmem
    exact List.count_eq_zero.mp hfeeds (List.mem_flatten_of_mem hline hmem)
  rw [← Text.splitBy_intercalate '\n' hplain hsome, hjoined,
    Text.splitBy_intercalate '\n' hfree hlines]

/-- A line that carries what was written, and goes on like what was written, is the written
line. -/
theorem Carries.eq_markedLine {rest after : List Char} (hcarries : Carries line text)
    (hrest : ∀ c ∈ rest.head?, c = titleMark) (hafter : ∀ c ∈ after.head?, c = titleMark)
    (hwritten : line ++ rest = markedLine text ++ after) : line = markedLine text := by
  cases hcarries with
  | @spaced _ ending _ hending =>
      have hend : ending ++ rest = '\n' :: after := by simpa [markedLine] using hwritten
      cases ending with
      | nil =>
          obtain rfl : rest = '\n' :: after := hend
          cases hrest '\n' rfl
      | cons c more =>
          obtain ⟨rfl, hmore⟩ := List.cons.inj hend
          cases more with
          | nil => rfl
          | cons next more =>
              obtain rfl : next = titleMark := hafter next (by rw [← hmore]; rfl)
              cases hending titleMark (by simp)
  | @bare _ ending hspace _ hending =>
      have hend : text ++ (ending ++ rest) = ' ' :: (text ++ '\n' :: after) := by
        simpa [markedLine] using hwritten
      cases text with
      | cons c text =>
          obtain ⟨rfl, -⟩ := List.cons.inj hend
          exact absurd rfl hspace
      | nil =>
          cases ending with
          | nil =>
              obtain rfl : rest = ' ' :: '\n' :: after := hend
              cases hrest ' ' rfl
          | cons c ending =>
              obtain ⟨rfl, -⟩ := List.cons.inj hend
              cases hending ' ' List.mem_cons_self

/-- The lines of a written block that carry what was written are the ones that were written. -/
theorem marked_eq_of_written (hsaid : List.Forall₂ Carries marked said)
    (hwritten : marked.flatten = said.flatMap markedLine) : marked = said.map markedLine := by
  induction hsaid with
  | nil => rfl
  | @cons line text marked said hcarries hsaid ih =>
      rw [List.flatten_cons, List.flatMap_cons] at hwritten
      have hafter : ∀ c ∈ (said.flatMap markedLine).head?, c = titleMark := by
        cases said <;> simp [markedLine, eq_comm]
      obtain rfl := hcarries.eq_markedLine (head?_of_carries hsaid) hafter hwritten
      rw [List.map_cons, ih (List.append_cancel_left hwritten)]

/-- The lines of a written title come before those of the body. -/
theorem lines_written (hplain : ∀ line ∈ said, IsPlain line) (body : List Char) :
    Text.lines (said.flatMap markedLine ++ body) = said.map markedLine ++ Text.lines body := by
  induction said with
  | nil => rfl
  | cons line said ih =>
      obtain ⟨hline, hsaid⟩ := List.forall_mem_cons.mp hplain
      have hmarked : IsPlain (titleMark :: ' ' :: line) :=
        Text.isPlain_cons.mpr ⟨rfl, Text.isPlain_cons.mpr ⟨rfl, hline⟩⟩
      have hending : Text.Ending ['\n'] (said.flatMap markedLine ++ body) := .single rfl nofun
      have hfirst := Text.lines_append_ending hmarked hending
      rw [ih hsaid] at hfirst
      simpa [markedLine] using hfirst

/-- A line that is written and cut off as one line has no end within it. -/
theorem isPlain_of_markedLine_mem {cs : List Char} (hmem : markedLine line ∈ Text.lines cs)
    (hends : ∀ c ∈ line, endsLine c = false) : IsPlain line := by
  obtain ⟨body, ending, heq, hplain, hending⟩ := (Text.cut_lines cs).exists_ending hmem
  obtain rfl | ⟨rest, hending⟩ := hending
  · rw [List.append_nil] at heq
    have hfeed : '\n' ∈ body := by simp [← heq, markedLine]
    cases hplain '\n' hfeed
  cases hending with
  | pair =>
      have hfeed : (titleMark :: ' ' :: line) ++ ['\n'] = (body ++ ['\r']) ++ ['\n'] := by
        simpa [markedLine] using heq
      have hbody := (List.append_inj' hfeed rfl).1
      have hreturn : '\r' ∈ titleMark :: ' ' :: line := by simp [hbody]
      have hline : '\r' ∈ line := by simpa [titleMark] using hreturn
      cases hends '\r' hline
  | @single c rest hend halone =>
      have hfeed : (titleMark :: ' ' :: line) ++ ['\n'] = body ++ [c] := heq
      rw [← (List.append_inj' hfeed rfl).1] at hplain
      exact (Text.isPlain_cons.mp (Text.isPlain_cons.mp hplain).2).2

end

section

variable {said : List String} {content body : String}

theorem TitleSplit.exists_block {payload : String}
    (hsplit : TitleSplit content (some payload, body)) :
    ∃ marked texts, marked ≠ [] ∧ content.toList = marked.flatten ++ body.toList ∧
      Text.lines content.toList = marked ++ Text.lines body.toList ∧
      List.Forall₂ Carries marked texts ∧ body.toList.head? ≠ some titleMark ∧
      payload.toList = ['\n'].intercalate texts := by
  cases hsplit with
  | @block marked texts _ hsome hcontent hlines hsaid hrest =>
      exact ⟨marked, texts, hsome, hcontent, hlines, hsaid, hrest, String.toList_ofList⟩

/-- A written title is split off again. -/
theorem titleSplit_written (hsome : said ≠ []) (hplain : ∀ line ∈ said, IsPlain line.toList)
    (hbody : body.toList.head? ≠ some titleMark) :
    TitleSplit (writtenTitle said body) (some ("\n".intercalate said), body) := by
  have hpayload : "\n".intercalate said =
      String.ofList (['\n'].intercalate (said.map String.toList)) := by
    rw [← String.ofList_toList (s := "\n".intercalate said), String.toList_intercalate]
    rfl
  have hlines : ∀ line ∈ said.map String.toList, IsPlain line := by simpa using hplain
  have hcarries : List.Forall₂ Carries ((said.map String.toList).map markedLine)
      (said.map String.toList) := by
    rw [List.forall₂_map_left_iff, List.forall₂_same]
    intro line hline
    exact .spaced (endsLine_of_isPlain (hlines line hline)) (by simp [endsLine])
  rw [hpayload]
  refine .block (by simpa using hsome) ?_ ?_ hcarries hbody
  · rw [toList_writtenTitle, List.flatMap_def]
  · rw [toList_writtenTitle, lines_written hlines]

/-- A title block that is written before a text is split off as it was written, and the text is
left, exactly if the block has lines, these have no end within them, and the text does not go on
with the block. -/
theorem splitTitleBlock_written_iff (said : List String) (body : String) :
    splitTitleBlock (writtenTitle said body) = (some ("\n".intercalate said), body) ↔
      said ≠ [] ∧ (∀ line ∈ said, ∀ c ∈ line.toList, Text.isLineEnd c = false) ∧
        body.toList.head? ≠ some titleMark := by
  rw [← titleSplit_iff]
  constructor
  · intro hsplit
    obtain ⟨marked, texts, hmarked, hcontent, hlines, hsaid, hrest, hpayload⟩ :=
      hsplit.exists_block
    rw [toList_writtenTitle] at hcontent
    rw [String.toList_intercalate] at hpayload
    have hwritten := (List.append_cancel_right hcontent).symm
    have htexts : texts ≠ [] := by
      rintro rfl
      cases hsaid
      exact hmarked rfl
    have hsome : said.map String.toList ≠ [] := by
      intro hnone
      have hcount := count_mark_of_carries hsaid
      rw [hwritten, hnone, List.flatMap_nil, List.count_nil] at hcount
      exact htexts (List.eq_nil_of_length_eq_zero (by omega))
    obtain rfl := said_eq_of_written hsaid hwritten hpayload.symm htexts hsome
    obtain rfl := marked_eq_of_written hsaid hwritten
    refine ⟨by simpa using hsome, ?_, hrest⟩
    intro line hmem
    have hline : line.toList ∈ said.map String.toList := List.mem_map_of_mem hmem
    have hcut : markedLine line.toList ∈ Text.lines (writtenTitle said body).toList := by
      rw [hlines]
      exact List.mem_append_left _ (List.mem_map_of_mem hline)
    exact isPlain_of_markedLine_mem hcut (plain_of_carries hsaid _ hline)
  · rintro ⟨hsome, hplain, hbody⟩
    exact titleSplit_written hsome hplain hbody

/-- A line separator cuts a line of a title block in two although it is neither a carriage return
nor a line feed. What stands after it is left with the text. -/
theorem written_title_cut :
    (∀ c ∈ "a\u2028b".toList, c ≠ '\r' ∧ c ≠ '\n') ∧ "".toList.head? ≠ some titleMark ∧
      splitTitleBlock (writtenTitle ["a\u2028b"] "") = (some "a\u2028", "b\n") ∧
      splitTitleBlock (writtenTitle ["a\u2028b"] "") ≠
        (some ("\n".intercalate ["a\u2028b"]), "") :=
  ⟨by simp, by decide, by decide, by decide⟩

end

end Markdown

end Manuscript
