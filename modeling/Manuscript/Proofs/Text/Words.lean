import Manuscript.Proofs.Text.Split
import Mathlib.Data.List.TakeWhile

/-! # Words of joined texts

Cutting a text at its blank characters and joining two texts are related by the
seam: if no word runs across it, the words of the two texts are the words of
the whole (`wordsBy_append_of_gap`), and otherwise the two words at the seam
become one (`wordsBy_append_of_seam`). When the start of each of several texts
is dropped before they are joined, the words are therefore the same exactly if
no text loses a gap (`glues_flatMap_dropWhile`).

Words that are spread in a text with any blanks are the words of the text
(`Spread.wordsBy_eq`).
-/

namespace Manuscript.Text

variable {α : Type} (blank : α → Bool)

/-- The maximal runs of elements that are not blank. -/
def wordsBy (cs : List α) : List (List α) := (splitBy blank cs).filter (!·.isEmpty)

/-- The first element is not blank. -/
def startsWord (cs : List α) : Bool := cs.head?.any (!blank ·)

/-- The last element is not blank. -/
def endsWord (cs : List α) : Bool := cs.getLast?.any (!blank ·)

theorem words_eq (s : String) : words s = (wordsBy isBlank s.toList).map String.ofList := rfl

variable {blank}

@[simp] theorem wordsBy_nil : wordsBy blank [] = [] := rfl

theorem wordsBy_cons_of_blank {c : α} (hblank : blank c = true) (cs : List α) :
    wordsBy blank (c :: cs) = wordsBy blank cs := by
  rw [wordsBy, splitBy_cons, if_pos hblank]
  rfl

theorem wordsBy_cons {c : α} (hblank : blank c = false) (cs : List α) :
    wordsBy blank (c :: cs) =
      if startsWord blank cs then (wordsBy blank cs).modifyHead (c :: ·)
      else [c] :: wordsBy blank cs := by
  rw [wordsBy, splitBy_cons, hblank, if_neg Bool.false_ne_true]
  cases cs with
  | nil => rfl
  | cons d ds =>
      cases hd : blank d with
      | true =>
          rw [wordsBy_cons_of_blank hd, splitBy_cons, if_pos hd]
          simp [startsWord, hd, wordsBy]
      | false =>
          obtain ⟨part, parts, hparts⟩ := List.exists_cons_of_ne_nil (splitBy_ne_nil blank ds)
          rw [wordsBy, splitBy_cons, hd, if_neg Bool.false_ne_true, hparts]
          simp [startsWord, hd]

theorem wordsBy_ne_nil {cs : List α} (hstarts : startsWord blank cs = true) :
    wordsBy blank cs ≠ [] := by
  cases cs with
  | nil => simp [startsWord] at hstarts
  | cons c cs =>
      have hc : blank c = false := by simpa [startsWord] using hstarts
      rw [wordsBy_cons hc]
      split
      next hrest =>
        cases hwords : wordsBy blank cs with
        | nil => exact absurd hwords (wordsBy_ne_nil hrest)
        | cons => simp
      next => simp

theorem wordsBy_append_of_gap {first second : List α}
    (hgap : endsWord blank first = true → startsWord blank second = false) :
    wordsBy blank (first ++ second) = wordsBy blank first ++ wordsBy blank second := by
  induction first with
  | nil => rfl
  | cons c rest ih =>
      cases rest with
      | nil =>
          cases hc : blank c with
          | true => simp [wordsBy_cons_of_blank hc]
          | false =>
              have hsecond := hgap (by simp [endsWord, hc])
              have hword : wordsBy blank [c] = [[c]] := by rw [wordsBy_cons hc]; rfl
              rw [List.singleton_append, wordsBy_cons hc, hsecond, if_neg Bool.false_ne_true, hword]
              rfl
      | cons d ds =>
          -- Whether a word goes on after `c` is decided by `d`, with and without `second`.
          have hrest := ih (by simpa [endsWord] using hgap)
          have hstarts : startsWord blank (d :: ds ++ second) = startsWord blank (d :: ds) := rfl
          rw [List.cons_append]
          cases hc : blank c with
          | true => rw [wordsBy_cons_of_blank hc, wordsBy_cons_of_blank hc, hrest]
          | false =>
              rw [wordsBy_cons hc, wordsBy_cons hc, hstarts, hrest]
              split
              next hd =>
                obtain ⟨word, words, hwords⟩ := List.exists_cons_of_ne_nil (wordsBy_ne_nil hd)
                rw [hwords]
                rfl
              next => rfl

theorem wordsBy_append_of_seam {first second : List α} (hends : endsWord blank first = true)
    (hstarts : startsWord blank second = true) :
    ∃ before word next after, wordsBy blank first = before ++ [word] ∧
      wordsBy blank second = next :: after ∧
      wordsBy blank (first ++ second) = before ++ (word ++ next) :: after := by
  obtain ⟨next, after, hsecond⟩ := List.exists_cons_of_ne_nil (wordsBy_ne_nil hstarts)
  induction first with
  | nil => simp [endsWord] at hends
  | cons c rest ih =>
      cases rest with
      | nil =>
          have hc : blank c = false := by simpa [endsWord] using hends
          refine ⟨[], [c], next, after, ?_, hsecond, ?_⟩
          · rw [wordsBy_cons hc]
            rfl
          · rw [List.singleton_append, wordsBy_cons hc, if_pos hstarts, hsecond]
            rfl
      | cons d ds =>
          obtain ⟨before, word, next, after, hfirst, hsecond, hwhole⟩ :=
            ih (by simpa [endsWord] using hends)
          have hd : startsWord blank (d :: ds ++ second) = startsWord blank (d :: ds) := rfl
          rw [List.cons_append]
          cases hc : blank c with
          | true =>
              rw [wordsBy_cons_of_blank hc, wordsBy_cons_of_blank hc]
              exact ⟨before, word, next, after, hfirst, hsecond, hwhole⟩
          | false =>
              rw [wordsBy_cons hc, wordsBy_cons hc, hd, hfirst, hwhole]
              split
              next =>
                cases before with
                | nil => exact ⟨[], c :: word, next, after, rfl, hsecond, rfl⟩
                | cons head others =>
                    exact ⟨(c :: head) :: others, word, next, after, rfl, hsecond, rfl⟩
              next => exact ⟨[c] :: before, word, next, after, rfl, hsecond, rfl⟩

theorem wordsBy_blanks_append {gap : List α} (hgap : ∀ c ∈ gap, blank c = true)
    (second : List α) : wordsBy blank (gap ++ second) = wordsBy blank second := by
  induction gap with
  | nil => rfl
  | cons c rest ih =>
      rw [List.cons_append, wordsBy_cons_of_blank (hgap c List.mem_cons_self)]
      exact ih fun d hmem => hgap d (List.mem_cons_of_mem _ hmem)

theorem wordsBy_append_blanks {gap : List α} (hgap : ∀ c ∈ gap, blank c = true)
    (hne : gap ≠ []) (first second : List α) :
    wordsBy blank (first ++ (gap ++ second)) = wordsBy blank first ++ wordsBy blank second := by
  rw [wordsBy_append_of_gap, wordsBy_blanks_append hgap]
  intro _
  obtain ⟨c, rest, rfl⟩ := List.exists_cons_of_ne_nil hne
  simp [startsWord, hgap c List.mem_cons_self]

/-! ## Spread words -/

/-- What can be a word: it is not empty and has no blank. -/
structure IsWord (blank : α → Bool) (word : List α) : Prop where
  ne_nil : word ≠ []
  not_blank : ∀ c ∈ word, blank c = false

theorem IsWord.append_singleton {word : List α} {c : α} (hword : IsWord blank word)
    (hc : blank c = false) : IsWord blank (word ++ [c]) := by
  refine ⟨by simp, fun d hmem => ?_⟩
  rcases List.mem_append.mp hmem with hd | hd
  · exact hword.not_blank d hd
  · rwa [List.mem_singleton.mp hd]

/-- Words stand in a text one after another, with any blanks around them and at least one between
any two. -/
inductive Spread (blank : α → Bool) : List (List α) → List α → Prop
  | nil {after : List α} (hafter : ∀ c ∈ after, blank c = true) : Spread blank [] after
  | cons {before word : List α} {words : List (List α)} {rest : List α}
      (hbefore : ∀ c ∈ before, blank c = true) (hword : IsWord blank word)
      (hgap : ∀ c ∈ rest.head?, blank c = true) (hrest : Spread blank words rest) :
      Spread blank (word :: words) (before ++ (word ++ rest))

theorem wordsBy_word {word : List α} (hword : IsWord blank word) :
    wordsBy blank word = [word] := by
  obtain ⟨hne, hnot⟩ := hword
  induction word with
  | nil => exact absurd rfl hne
  | cons c rest ih =>
      rw [List.forall_mem_cons] at hnot
      rw [wordsBy_cons hnot.1]
      cases rest with
      | nil => rfl
      | cons d ds =>
          rw [ih (List.cons_ne_nil d ds) hnot.2, if_pos (by simp [startsWord, hnot.2])]
          rfl

/-- The words of a text are those that are spread in it. -/
theorem Spread.wordsBy_eq {words : List (List α)} {text : List α}
    (hspread : Spread blank words text) : wordsBy blank text = words := by
  induction hspread with
  | @nil after hafter =>
      rw [← List.append_nil after, wordsBy_blanks_append hafter]
      rfl
  | @cons before word words rest hbefore hword hgap _ ih =>
      rw [wordsBy_blanks_append hbefore, wordsBy_append_of_gap, wordsBy_word hword, ih]
      · rfl
      · intro _
        cases rest with
        | nil => rfl
        | cons c rest => simp [startsWord, hgap c rfl]

theorem spread_singleton {word : List α} (hword : IsWord blank word) :
    Spread blank [word] word := by
  have hspread : Spread blank [word] ([] ++ (word ++ [])) :=
    .cons (by nofun) hword (by nofun) (.nil (by nofun))
  rwa [List.nil_append, List.append_nil] at hspread

/-- Words that are joined with a blank are spread in the joined text. -/
theorem spread_intercalate {sep : α} (hsep : blank sep = true) {words : List (List α)}
    (hwords : ∀ word ∈ words, IsWord blank word) :
    Spread blank words ([sep].intercalate words) := by
  -- All words but the first have the separator before them.
  have hlater : ∀ words : List (List α), (∀ word ∈ words, IsWord blank word) →
      Spread blank words (words.flatMap (sep :: ·)) := by
    intro words hwords
    induction words with
    | nil => exact .nil (by nofun)
    | cons word words ih =>
        rw [List.forall_mem_cons] at hwords
        have hbefore : ∀ c ∈ [sep], blank c = true := by simpa using hsep
        refine .cons hbefore hwords.1 ?_ (ih hwords.2)
        cases words <;> simp [hsep]
  cases words with
  | nil => exact .nil (by nofun)
  | cons word words =>
      rw [List.forall_mem_cons] at hwords
      have hjoined : [sep].intercalate (word :: words) =
          [] ++ (word ++ words.flatMap (sep :: ·)) := by
        clear hwords
        induction words generalizing word with
        | nil => simp
        | cons next words ih => simp [List.intercalate_cons_cons, ih]
      rw [hjoined]
      refine .cons (by nofun) hwords.1 ?_ (hlater words hwords.2)
      cases words <;> simp [hsep]

/-! ## Gluing words -/

/-- The words of the second list are those of the first after so many times two neighbours were
made one. -/
inductive Glues : Nat → List (List α) → List (List α) → Prop
  | none {words} : Glues 0 words words
  | pair {count words before first second after}
      (hglues : Glues count words (before ++ first :: second :: after)) :
      Glues (count + 1) words (before ++ (first ++ second) :: after)

namespace Glues

variable {count more : Nat} {words glued further : List (List α)}

theorem trans (hfirst : Glues count words glued) (hsecond : Glues more glued further) :
    Glues (count + more) words further := by
  induction hsecond with
  | none => exact hfirst
  | pair _ ih => exact .pair (ih hfirst)

theorem length_eq (hglues : Glues count words glued) : words.length = glued.length + count := by
  induction hglues with
  | none => rfl
  | pair _ ih =>
      rw [ih]
      simp only [List.length_append, List.length_cons]
      omega

theorem eq_iff (hglues : Glues count words glued) : glued = words ↔ count = 0 := by
  constructor
  · rintro rfl
    have := hglues.length_eq
    omega
  · rintro rfl
    cases hglues
    rfl

end Glues

/-- Dropping the start of a text removes the gap between it and what is before it: a word ended
there, and one starts after what was dropped. -/
structure LosesGap (blank drop : α → Bool) (before text later : List α) : Prop where
  dropped : text.head?.any drop = true
  ends : endsWord blank before = true
  starts : startsWord blank (text.dropWhile drop ++ later) = true

section

variable {drop : α → Bool}

theorem glues_dropWhile (hdrop : ∀ c, drop c = true → blank c = true)
    (before text later : List α) :
    ∃ count, Glues count (wordsBy blank (before ++ (text ++ later)))
        (wordsBy blank (before ++ (text.dropWhile drop ++ later))) ∧
      (count = 0 ↔ ¬ LosesGap blank drop before text later) := by
  have hcut : text ++ later =
      text.takeWhile drop ++ (text.dropWhile drop ++ later) := by
    rw [← List.append_assoc, List.takeWhile_append_dropWhile]
  by_cases hstart : text.head?.any drop = true
  · have hgap : ∀ c ∈ text.takeWhile drop, blank c = true :=
      fun c hmem => hdrop c (List.mem_takeWhile_imp hmem)
    have hne : text.takeWhile drop ≠ [] := by
      cases text with
      | nil => simp at hstart
      | cons c rest => simp_all
    rw [hcut, wordsBy_append_blanks hgap hne before]
    by_cases hseam : endsWord blank before = true ∧
        startsWord blank (text.dropWhile drop ++ later) = true
    · obtain ⟨words, word, next, others, hbefore, hafter, hwhole⟩ :=
        wordsBy_append_of_seam hseam.1 hseam.2
      refine ⟨1, ?_, by simpa using ⟨hstart, hseam.1, hseam.2⟩⟩
      rw [hbefore, hafter, hwhole, List.append_assoc]
      exact .pair .none
    · refine ⟨0, ?_, by simpa using fun hloses => hseam ⟨hloses.ends, hloses.starts⟩⟩
      have hgap' : endsWord blank before = true →
          startsWord blank (text.dropWhile drop ++ later) = false := by simpa using hseam
      rw [wordsBy_append_of_gap hgap']
      exact .none
  · have hsame : text.dropWhile drop = text := by
      cases text with
      | nil => rfl
      | cons c rest => simp_all
    rw [hsame]
    exact ⟨0, .none, by simpa using fun hloses => hstart hloses.dropped⟩

/-- Dropping the start of each text glues words, unless no text loses a gap by it. -/
theorem glues_flatMap_dropWhile (hdrop : ∀ c, drop c = true → blank c = true)
    (texts : List (List α)) (before : List α) :
    ∃ count, Glues count (wordsBy blank (before ++ texts.flatten))
        (wordsBy blank (before ++ texts.flatMap (·.dropWhile drop))) ∧
      (count = 0 ↔ ∀ earlier text later, texts = earlier ++ text :: later →
        ¬ LosesGap blank drop (before ++ earlier.flatMap (·.dropWhile drop)) text
          later.flatten) := by
  induction texts generalizing before with
  | nil => exact ⟨0, .none, by simp⟩
  | cons first rest ih =>
      -- The texts are shortened from left to right, so `rest` is still whole at the first step.
      obtain ⟨here, hfirst, hkept⟩ := glues_dropWhile hdrop before first rest.flatten
      obtain ⟨more, hrest, hkept'⟩ := ih (before ++ first.dropWhile drop)
      rw [List.append_assoc, List.append_assoc] at hrest
      refine ⟨here + more, hfirst.trans hrest, ?_⟩
      rw [Nat.add_eq_zero_iff, hkept, hkept']
      constructor
      · rintro ⟨hhere, hlater⟩ earlier text later heq
        cases earlier with
        | nil =>
            obtain ⟨rfl, rfl⟩ := List.cons.inj heq
            simpa using hhere
        | cons _ earlier =>
            obtain ⟨rfl, rfl⟩ := List.cons.inj heq
            simpa using hlater earlier text later rfl
      · intro hall
        refine ⟨by simpa using hall [] first rest rfl, fun earlier text later heq => ?_⟩
        simpa using hall (first :: earlier) text later (by rw [heq, List.cons_append])

end

end Manuscript.Text
