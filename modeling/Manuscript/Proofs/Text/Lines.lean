import Manuscript.Text.Lines

/-! # Lines and their ends

A text is cut into lines: none of the characters of a line ends it but the last
ones, and only the last line may go on to the end of the text. A text has one such
cut (`Cut.lines_eq`), and what is left of it after some lines has the lines that are
left (`lines_flatten_of_suffix`).
-/

namespace Manuscript.Text

/-- No character of a text ends a line. -/
def IsPlain (cs : List Char) : Prop := ∀ c ∈ cs, isLineEnd c = false

/-- What ends a line before the rest of a text: a carriage return and the line feed after it, or
another character that ends a line. -/
inductive Ending : List Char → List Char → Prop
  | pair {rest : List Char} : Ending ['\r', '\n'] rest
  | single {c : Char} {rest : List Char} (hend : isLineEnd c = true)
      (halone : c = '\r' → rest.head? ≠ some '\n') : Ending [c] rest

/-- A text cut into its lines. -/
inductive Cut : List Char → List (List Char) → Prop
  | nil : Cut [] []
  | last {body : List Char} (hne : body ≠ []) (hplain : IsPlain body) : Cut body [body]
  | line {body ending rest : List Char} {others : List (List Char)} (hplain : IsPlain body)
      (hending : Ending ending rest) (hrest : Cut rest others) :
      Cut (body ++ (ending ++ rest)) ((body ++ ending) :: others)

theorem isPlain_cons {c : Char} {cs : List Char} :
    IsPlain (c :: cs) ↔ isLineEnd c = false ∧ IsPlain cs := List.forall_mem_cons

section

variable {cs body ending rest : List Char} {chunks : List (List Char)} {c : Char}

theorem head?_lines (cs : List Char) : (lines cs).head?.bind List.head? = cs.head? := by
  fun_induction lines cs <;> simp

theorem lines_cons_of_plain (hplain : isLineEnd c = false) (cs : List Char) :
    lines (c :: cs) =
      match lines cs with
      | [] => [[c]]
      | line :: rest => (c :: line) :: rest := by
  have hreturn : c ≠ '\r' := by
    rintro rfl
    cases hplain
  rw [lines]
  · exact if_neg (by simp [hplain])
  · rintro rest rfl
    exact absurd rfl hreturn

theorem lines_ending (hending : Ending ending rest) :
    lines (ending ++ rest) = ending :: lines rest := by
  cases hending with
  | pair => rfl
  | single hend halone =>
      rw [List.singleton_append, lines]
      · rw [if_pos hend]
      · rintro rest rfl rfl
        exact halone rfl rfl

/-- The first line of a text goes up to the first line end. -/
theorem lines_append_ending (hplain : IsPlain body) (hending : Ending ending rest) :
    lines (body ++ (ending ++ rest)) = (body ++ ending) :: lines rest := by
  induction body with
  | nil => exact lines_ending hending
  | cons c body ih =>
      obtain ⟨hc, hbody⟩ := isPlain_cons.mp hplain
      rw [List.cons_append, lines_cons_of_plain hc, ih hbody]
      rfl

theorem lines_of_plain (hne : body ≠ []) (hplain : IsPlain body) : lines body = [body] := by
  induction body with
  | nil => exact absurd rfl hne
  | cons c body ih =>
      obtain ⟨hc, hbody⟩ := isPlain_cons.mp hplain
      rw [lines_cons_of_plain hc]
      cases body with
      | nil => rfl
      | cons next body => rw [ih (List.cons_ne_nil _ _) hbody]

theorem cut_lines (cs : List Char) : Cut cs (lines cs) := by
  have hnone : IsPlain [] := nofun
  fun_induction lines cs with
  | case1 => exact .nil
  | case2 cs ih => exact .line hnone .pair ih
  | case3 c cs hpair hend ih =>
      refine .line hnone (.single hend ?_) ih
      rintro rfl hhead
      obtain ⟨rest, rfl⟩ := List.head?_eq_some_iff.mp hhead
      exact hpair rest rfl rfl
  | case4 c cs _ hplain hlast ih =>
      rw [hlast] at ih
      cases ih
      exact .last (List.cons_ne_nil _ _) (isPlain_cons.mpr ⟨by simpa using hplain, hnone⟩)
  | case5 c cs _ hplain line rest hsome ih =>
      rw [hsome] at ih
      replace hplain : isLineEnd c = false := by simpa using hplain
      cases ih with
      | last hne hbody => exact .last (List.cons_ne_nil _ _) (isPlain_cons.mpr ⟨hplain, hbody⟩)
      | line hbody hending hrest => exact .line (isPlain_cons.mpr ⟨hplain, hbody⟩) hending hrest

/-- A text has one cut. -/
theorem Cut.lines_eq (hcut : Cut cs chunks) : lines cs = chunks := by
  induction hcut with
  | nil => rfl
  | last hne hplain => exact lines_of_plain hne hplain
  | line hplain hending _ ih => rw [lines_append_ending hplain hending, ih]

theorem Cut.flatten (hcut : Cut cs chunks) : chunks.flatten = cs := by
  rw [← hcut.lines_eq, flatten_lines]

/-- The last lines of a text are the cut of what is left of it. -/
theorem Cut.of_suffix {others : List (List Char)} (hcut : Cut cs chunks)
    (hsuffix : others <:+ chunks) : Cut others.flatten others := by
  induction hcut with
  | nil =>
      rw [List.suffix_nil.mp hsuffix]
      exact .nil
  | last hne hplain =>
      rcases List.suffix_cons_iff.mp hsuffix with rfl | hsuffix
      · simpa using Cut.last hne hplain
      · rw [List.suffix_nil.mp hsuffix]
        exact .nil
  | line hplain hending hrest ih =>
      rcases List.suffix_cons_iff.mp hsuffix with rfl | hsuffix
      · rw [(hrest.line hplain hending).flatten]
        exact hrest.line hplain hending
      · exact ih hsuffix

theorem lines_flatten_of_suffix {others : List (List Char)} (hsuffix : others <:+ lines cs) :
    lines others.flatten = others :=
  ((cut_lines cs).of_suffix hsuffix).lines_eq

/-- A line is plain but for its end. -/
theorem Cut.exists_ending {line : List Char} (hcut : Cut cs chunks) (hline : line ∈ chunks) :
    ∃ body ending, line = body ++ ending ∧ IsPlain body ∧
      (ending = [] ∨ ∃ rest, Ending ending rest) := by
  induction hcut with
  | nil => cases hline
  | @last body hne hplain =>
      rw [List.mem_singleton.mp hline]
      exact ⟨body, [], (List.append_nil body).symm, hplain, .inl rfl⟩
  | @line body ending rest others hplain hending hrest ih =>
      rcases List.mem_cons.mp hline with rfl | hline
      · exact ⟨body, ending, rfl, hplain, .inr ⟨rest, hending⟩⟩
      · exact ih hline

end

end Manuscript.Text
