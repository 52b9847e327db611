import Manuscript.Proofs.Document.Nesting
import Manuscript.Proofs.Render.LineStart
import Manuscript.Proofs.Render.Output

/-! # The font in effect

A request for a font without arguments switches the font of all that follows.
Emphasis switches to its own font when it is entered and to roman when it is
left, and a code span leaves the font roman as well, whatever the font was
before. So the font of the innermost open style is in effect only until
something in it switches to roman (`font_of_innermost_style`).
-/

namespace Manuscript.Render

open Troff (Piece)

/-- The kinds of nodes that switch the font of what they hold. -/
def isStyle : Kind → Bool
  | .emphasis | .strong => true
  | _ => false

/-- A request that switches the font of all that follows. -/
def isSwitch (piece : Piece) : Bool := piece ∈ [Troff.italic, Troff.bold, Troff.roman]

/-- The font in effect after output: the last one that was switched to. -/
def fontOf (pieces : List Piece) : Option Piece := (pieces.filter isSwitch).getLast?

/-- The font that a visit leaves in effect, if it switches fonts at all. -/
def fontAfter (node : Node) (phase : Phase) : Option Piece :=
  match node.kind, phase with
  | .emphasis, .enter => some Troff.italic
  | .strong, .enter => some Troff.bold
  | .emphasis, .leave | .strong, .leave | .codeSpan, _ => some Troff.roman
  | _, _ => none

/-- A visit leaves a style or is of a code span. -/
def resetsFont (v : Visit RenderError Run) : Bool :=
  (isStyle v.node.kind && v.phase = .leave) || v.node.kind = .codeSpan

/-- The open styles, the innermost first. -/
def openStyles {ε σ : Type} (history : History ε σ) : List OpenNode :=
  (openNodes history).filter (isStyle ·.node.kind)

/-- The visits made since a node was opened, the latest first. -/
def visitsSince {ε σ : Type} (opened : OpenNode) (history : History ε σ) : History ε σ :=
  history.take (history.length - (opened.since + 1))

theorem kind_of_isStyle {kind : Kind} (hstyle : isStyle kind = true) :
    kind = .emphasis ∨ kind = .strong := by
  unfold isStyle at hstyle
  split at hstyle <;> simp_all

/-! ## Switches of fonts in output -/

@[simp] theorem fontOf_nil : fontOf [] = none := rfl

/-- The last switch of a text is that of its end, if it has one. -/
theorem fontOf_append (first second : List Piece) :
    fontOf (first ++ second) = (fontOf second).or (fontOf first) := by
  rw [fontOf, List.filter_append, List.getLast?_append]
  rfl

/-- The last switch of the rest is in effect, if there is one. -/
theorem fontOf_cons (piece : Piece) (rest : List Piece) :
    fontOf (piece :: rest) = (fontOf rest).or (if isSwitch piece then some piece else none) := by
  rw [← List.singleton_append, fontOf_append]
  by_cases hswitch : isSwitch piece <;> simp [fontOf, hswitch]

/-- Without a switch, no font is in effect. -/
theorem fontOf_eq_none {pieces : List Piece}
    (hpieces : ∀ piece ∈ pieces, isSwitch piece = false) : fontOf pieces = none := by
  have hnone : pieces.filter isSwitch = [] := by
    apply List.filter_eq_nil_iff.mpr
    intro piece hmem
    simp [hpieces piece hmem]
  rw [fontOf, hnone]
  rfl

@[simp] theorem isSwitch_text (s : String) : isSwitch (.text s) = false := by
  simp [isSwitch, Troff.italic, Troff.bold, Troff.roman, Troff.bare]

/-- A request with arguments switches no font. -/
@[simp] theorem isSwitch_withText (name arg : String) (args : List String) :
    isSwitch (Troff.withText name (arg :: args)) = false := by
  simp [isSwitch, Troff.italic, Troff.bold, Troff.roman, Troff.bare, Troff.withText]

theorem isSwitch_bare (name : String) :
    isSwitch (Troff.bare name) =
      (name ∈ [Troff.Request.italic, Troff.Request.bold, Troff.Request.roman] : Bool) := by
  simp [isSwitch, Troff.italic, Troff.bold, Troff.roman, Troff.bare]

/-- No table switches the font. -/
theorem fontOf_tableDisplay (layout : Table.Layout) :
    fontOf (Troff.tableDisplay layout) = none := by
  apply fontOf_eq_none
  simp [Troff.tableDisplay, Troff.display, Troff.tableHeading, Troff.lineBreak, isSwitch_bare]
  decide

/-- The names of authors are set in italics, but by requests with arguments. -/
theorem fontOf_titleBlock (block : TitleBlock) :
    fontOf (Troff.requests (Troff.titleBlock block)).1 = none := by
  apply fontOf_eq_none
  intro piece hmem
  obtain ⟨⟨name, args⟩, rfl, hdraft⟩ := Troff.exists_of_mem_requests hmem
  cases args with
  | cons text others => exact isSwitch_withText name text others
  | nil =>
      rcases Troff.mem_titleBlock hdraft with ⟨hargs, -⟩ | ⟨-, hname⟩
      · exact absurd rfl hargs
      · simp only [Troff.bareNames, Troff.Draft.ofRequest, List.mem_cons, List.not_mem_nil,
          or_false] at hname
        rcases hname with rfl | rfl | rfl | rfl <;> decide

section

variable {load : Loader} {options : Options} {node : Node} {phase : Phase} {run after : Run}

/-- What is written without a look at what is remembered switches the font as told by the node. -/
theorem fontOf_plainPieces {pieces : List Piece} (hplain : plainPieces node phase = some pieces) :
    fontOf pieces = fontAfter node phase := by
  unfold plainPieces at hplain
  split at hplain <;> cases hplain <;> rename_i hkind <;>
    simp [fontOf_cons, fontAfter, hkind, Troff.lineBreak, Troff.html, Troff.codeBlock, Troff.bold,
      Troff.italic, Troff.roman, isSwitch_bare]
  all_goals decide

theorem fontAfter_eq_none (hplain : plainPieces node phase = none) :
    fontAfter node phase = none := by
  unfold fontAfter
  split <;> rename_i hkind <;> simp [plainPieces, hkind] at hplain ⊢

/-- The last switch that a visit writes is to the font that it leaves in effect. -/
theorem fontOf_writes (state : State) :
    fontOf (writes options node phase state) = fontAfter node phase := by
  obtain hplain | ⟨pieces, hplain⟩ := (plainPieces node phase).eq_none_or_eq_some
  case inr => rw [writes_of_plain hplain, fontOf_plainPieces hplain]
  rw [fontAfter_eq_none hplain]
  unfold writes
  split
  next => split <;> simp [fontOf_cons]
  next =>
    cases hbuffer : state.tableBuffer with
    | none => rfl
    | some buffer =>
        cases hlayout : Table.layout buffer with
        | ok layout => simp [Troff.table, hlayout, Except.map, fontOf_tableDisplay]
        | error e => simp [Troff.table, hlayout, Except.map]
  next =>
    split
    · rfl
    · decide
  next => decide
  next => split <;> simp [fontOf_cons, Troff.indentedParagraph]
  next =>
    split
    · rfl
    · decide
  next =>
    split
    · cases state.titleBlock with
      | none => rfl
      | some block => exact fontOf_titleBlock block
    · decide
  next =>
    rw [hplain]
    rfl

/-- The font in effect is the one that the latest visit that switched fonts left. -/
theorem fontOf_outputOf_cons (v : Visit RenderError Run) (earlier : History RenderError Run) :
    fontOf (outputOf options (v :: earlier)) =
      (fontAfter v.node v.phase).or (fontOf (outputOf options earlier)) := by
  rw [outputOf_cons, fontOf_append, fontOf_writes]

/-- Only styles and code spans switch the font. -/
theorem fontAfter_other (hstyle : isStyle node.kind = false) (hcode : node.kind ≠ .codeSpan) :
    fontAfter node phase = none := by
  unfold fontAfter
  split <;> rename_i hkind <;> simp_all [isStyle]

theorem plainPieces_enter_style (hstyle : isStyle node.kind = true) :
    plainPieces node .enter = some [styleRequest node.kind] := by
  rcases kind_of_isStyle hstyle with hkind | hkind <;> simp [plainPieces, styleRequest, hkind]

/-- Entering a style leaves its font in effect. -/
theorem fontAfter_enter (hstyle : isStyle node.kind = true) :
    fontAfter node .enter = some (styleRequest node.kind) := by
  rcases kind_of_isStyle hstyle with hkind | hkind <;> simp [fontAfter, styleRequest, hkind]

/-- Leaving a style leaves the roman font in effect. -/
theorem fontAfter_leave (hstyle : isStyle node.kind = true) :
    fontAfter node .leave = some Troff.roman := by
  rcases kind_of_isStyle hstyle with hkind | hkind <;> simp [fontAfter, hkind]

end

/-! ## Open styles -/

section

variable {load : Loader} {options : Options} {root node : Node} {start run after : Run}
  {pending rest : Pending} {history : History RenderError Run} {phase : Phase}

theorem isLeaf_of_isStyle (hstyle : isStyle node.kind = true) : node.kind.isLeaf = false := by
  rcases kind_of_isStyle hstyle with hkind | hkind <;> rw [hkind] <;> rfl

/-- A style that is entered is the innermost open one. -/
theorem openStyles_enter (hstyle : isStyle node.kind = true) :
    openStyles (⟨node, .enter, run, .ok .next⟩ :: history) =
      ⟨history.length, node⟩ :: openStyles history := by
  simp [openStyles, openNodes, isLeaf_of_isStyle hstyle, hstyle]

/-- A visit of another node opens and ends no style. -/
theorem openStyles_other
    (hunderway : Underway (visitWith load options) root start ((node, phase) :: rest) history run)
    (hstyle : isStyle node.kind = false) (answer : Except RenderError Step) :
    openStyles (⟨node, phase, run, answer⟩ :: history) = openStyles history :=
  hunderway.filter_openNodes_other (fun node => isStyle node.kind) hstyle answer

theorem visitsSince_cons {opened : OpenNode} (hearlier : opened.since < history.length)
    (v : Visit RenderError Run) :
    visitsSince opened (v :: history) = v :: visitsSince opened history := by
  have hlength : (v :: history).length - (opened.since + 1) =
      history.length - (opened.since + 1) + 1 := by
    rw [List.length_cons]
    omega
  rw [visitsSince, hlength, List.take_succ_cons, visitsSince]

theorem visitsSince_opened (v : Visit RenderError Run) :
    visitsSince ⟨history.length, node⟩ (v :: history) = [] := by
  simp [visitsSince]

/-- What the visits made so far tell of the font in effect: it is roman or was never switched if no
style is open, and otherwise that of the innermost open style, unless it was reset since. -/
structure FontTold (options : Options) (history : History RenderError Run) : Prop where
  outside : openStyles history = [] → fontOf (outputOf options history) = none ∨
    fontOf (outputOf options history) = some Troff.roman
  inside : ∀ style outer, openStyles history = style :: outer →
    fontOf (outputOf options history) = some
      (if (visitsSince style history).any resetsFont then Troff.roman
        else styleRequest style.node.kind)

theorem since_lt_of_openStyles {style : OpenNode} {outer : List OpenNode}
    (hopen : openStyles history = style :: outer) : style.since < history.length := by
  have hmem : style ∈ openStyles history := by
    rw [hopen]
    exact List.mem_cons_self
  exact since_lt_of_mem (List.mem_filter.mp hmem).1

/-- A visit that switches no font and opens and closes no style changes nothing. -/
theorem FontTold.keep (htold : FontTold options history) {v : Visit RenderError Run}
    (hopen : openStyles (v :: history) = openStyles history)
    (hfont : fontAfter v.node v.phase = none) (hreset : resetsFont v = false) :
    FontTold options (v :: history) := by
  have hsame : fontOf (outputOf options (v :: history)) = fontOf (outputOf options history) := by
    rw [fontOf_outputOf_cons, hfont, Option.none_or]
  constructor
  · rw [hopen, hsame]
    exact htold.outside
  · intro style outer hstyles
    rw [hopen] at hstyles
    rw [hsame, htold.inside style outer hstyles,
      visitsSince_cons (since_lt_of_openStyles hstyles), List.any_cons, hreset, Bool.false_or]

/-- Once the font is reset it is roman, whatever style is open. -/
theorem FontTold.reset {v : Visit RenderError Run}
    (hopen : ∀ style outer, openStyles (v :: history) = style :: outer →
      style.since < history.length)
    (hfont : fontAfter v.node v.phase = some Troff.roman) (hreset : resetsFont v = true) :
    FontTold options (v :: history) := by
  have hroman : fontOf (outputOf options (v :: history)) = some Troff.roman := by
    rw [fontOf_outputOf_cons, hfont, Option.some_or]
  constructor
  · intro _
    exact .inr hroman
  · intro style outer hstyles
    rw [hroman, visitsSince_cons (hopen style outer hstyles), List.any_cons, hreset, Bool.true_or,
      if_pos rfl]

/-- A style that is entered puts its own font in effect. -/
theorem FontTold.enter (hstyle : isStyle node.kind = true) :
    FontTold options (⟨node, .enter, run, .ok .next⟩ :: history) := by
  have hopen : openStyles (⟨node, .enter, run, .ok .next⟩ :: history) =
      ⟨history.length, node⟩ :: openStyles history := openStyles_enter hstyle
  constructor
  · intro hnone
    rw [hopen] at hnone
    cases hnone
  · intro style outer hstyles
    rw [hopen] at hstyles
    obtain ⟨rfl, -⟩ := List.cons.inj hstyles
    rw [fontOf_outputOf_cons, fontAfter_enter hstyle, visitsSince_opened]
    rfl

/-- Every visit leaves the font as it is told. -/
theorem FontTold.step {step : Step} (htold : FontTold options history)
    (hunderway : Underway (visitWith load options) root start ((node, phase) :: rest) history run)
    (hrun : (visitWith load options node phase).runFrom run = (.ok step, after)) :
    FontTold options (⟨node, phase, run, .ok step⟩ :: history) := by
  by_cases hstyle : isStyle node.kind = true
  · cases phase with
    | enter =>
        rw [runFrom_visit_plain (plainPieces_enter_style hstyle)] at hrun
        cases hrun
        exact .enter hstyle
    | leave =>
        apply FontTold.reset _ (fontAfter_leave hstyle) (by simp [resetsFont, hstyle])
        intro style outer hstyles
        have hmem : style ∈ (openNodes history).tail := by
          have hopen : style ∈ openStyles (⟨node, .leave, run, .ok step⟩ :: history) := by
            rw [hstyles]
            exact List.mem_cons_self
          exact (List.mem_filter.mp hopen).1
        exact since_lt_of_mem (List.mem_of_mem_tail hmem)
  · rw [Bool.not_eq_true] at hstyle
    have hopen := openStyles_other hunderway hstyle (.ok step)
    by_cases hcode : node.kind = .codeSpan
    · apply FontTold.reset _ (by simp [fontAfter, hcode]) (by simp [resetsFont, hcode])
      intro style outer hstyles
      rw [hopen] at hstyles
      exact since_lt_of_openStyles hstyles
    · apply htold.keep hopen (fontAfter_other hstyle hcode)
      simp [resetsFont, hstyle, hcode]

/-- The font is as it is told at every point of a walk. -/
theorem fontTold_of_underway
    (hunderway : Underway (visitWith load options) root start pending history run) :
    FontTold options history := by
  induction hunderway with
  | start =>
      constructor
      · intro _
        exact .inl rfl
      · intro style outer hstyles
        cases hstyles
  | step hbefore hrun _ ih => exact ih.step hbefore hrun

/-- The preamble switches no font. -/
theorem fontOf_written
    (hunderway : Underway (visitWith load options) root (Renderer.start options) pending history
      run) : fontOf run.written.toList = fontOf (outputOf options history) := by
  have hpreamble : fontOf (Renderer.start options).written.toList = none := by
    rw [Renderer.start_written]
    split <;> simp [fontOf_cons]
  rw [written_of_underway hunderway, fontOf_append, hpreamble, Option.or_none]

end

/-- Whatever is visited while a style is open, the font in effect before it is that of the innermost
open style, unless since then a style in it was left or a code span in it was written. In that case
the font is roman. -/
theorem font_of_innermost_style (load : Loader) (renderer : Renderer) (root : Node)
    (v : Visit RenderError Run) (earlier : History RenderError Run)
    (hvisit : v :: earlier <:+ renderer.historyWith load root)
    (style : OpenNode) (outer : List OpenNode) (hopen : openStyles earlier = style :: outer) :
    fontOf v.before.written.toList = some
      (if (visitsSince style earlier).any resetsFont then Troff.roman
        else styleRequest style.node.kind) := by
  obtain ⟨rest, hunderway⟩ := (makes_of_suffix hvisit).underway
  rw [fontOf_written hunderway]
  exact (fontTold_of_underway hunderway).inside style outer hopen

/-- Strong text with an image before it, and a link after it. -/
def styledPhrase : Node where
  kind := .emphasis
  children := [
    { kind := .strong, children := [{ kind := .image }, { kind := .text, literal := "b" }] },
    { kind := .link, children := [{ kind := .text, literal := "c" }] }]

/-- The first text is bold, and the second one is roman. -/
theorem font_in_styled_phrase :
    (∃ v earlier, v :: earlier <:+ Renderer.historyWith FrontMatter.load {} styledPhrase ∧
      v.node.literal = "b" ∧ (openStyles earlier).map (·.node.kind) = [.strong, .emphasis] ∧
      fontOf v.before.written.toList = some Troff.bold) ∧
    ∃ v earlier, v :: earlier <:+ Renderer.historyWith FrontMatter.load {} styledPhrase ∧
      v.node.literal = "c" ∧ (openStyles earlier).map (·.node.kind) = [.emphasis] ∧
      fontOf v.before.written.toList = some Troff.roman := by
  constructor
  · obtain ⟨v, earlier, hvisit, htext, hkinds, style, outer, hopen, hfont⟩ :
        ∃ v earlier, v :: earlier <:+ Renderer.historyWith FrontMatter.load {} styledPhrase ∧
          v.node.literal = "b" ∧ (openStyles earlier).map (·.node.kind) = [.strong, .emphasis] ∧
          ∃ style outer, openStyles earlier = style :: outer ∧
            (if (visitsSince style earlier).any resetsFont then Troff.roman
              else styleRequest style.node.kind) = Troff.bold :=
      exists_visit_of_drop 5 ⟨_, _, rfl, by decide, by decide, _, _, rfl, by decide⟩
    refine ⟨v, earlier, hvisit, htext, hkinds, ?_⟩
    rw [font_of_innermost_style FrontMatter.load {} styledPhrase v earlier hvisit style outer hopen,
      hfont]
  · obtain ⟨v, earlier, hvisit, htext, hkinds, style, outer, hopen, hfont⟩ :
        ∃ v earlier, v :: earlier <:+ Renderer.historyWith FrontMatter.load {} styledPhrase ∧
          v.node.literal = "c" ∧ (openStyles earlier).map (·.node.kind) = [.emphasis] ∧
          ∃ style outer, openStyles earlier = style :: outer ∧
            (if (visitsSince style earlier).any resetsFont then Troff.roman
              else styleRequest style.node.kind) = Troff.roman :=
      exists_visit_of_drop 2 ⟨_, _, rfl, by decide, by decide, _, _, rfl, by decide⟩
    refine ⟨v, earlier, hvisit, htext, hkinds, ?_⟩
    rw [font_of_innermost_style FrontMatter.load {} styledPhrase v earlier hvisit style outer hopen,
      hfont]

/-- Strong text at the start of emphasis. -/
def strongThenPlain : Node where
  kind := .document
  children := [
    { kind := .paragraph
      children := [
        { kind := .emphasis
          children := [
            { kind := .strong, children := [{ kind := .text, literal := "b" }] },
            { kind := .text, literal := "c" }] }] }]

/-- The rest of emphasis is roman once strong text in it has ended. -/
theorem roman_after_nested_style :
    (∀ node ∈ strongThenPlain :: strongThenPlain.descendants, node.kind ≠ .table) ∧
    (Renderer.renderWith FrontMatter.load {} strongThenPlain).result = .ok () ∧
    Troff.textOf (Renderer.renderWith FrontMatter.load {} strongThenPlain).written =
      "\n.I\n.B\nb\n.R\nc\n.R\n\n.SG\n" ∧
    ∃ v earlier, v :: earlier <:+ Renderer.historyWith FrontMatter.load {} strongThenPlain ∧
      v.node.kind = .text ∧ v.node.literal = "c" ∧
      (openStyles earlier).map (·.node.kind) = [.emphasis] ∧
      fontOf v.before.written.toList = some Troff.roman ∧
      some Troff.roman ≠ some (styleRequest .emphasis) := by
  refine ⟨by decide, ?_, ?_, ?_⟩
  · rw [Renderer.renderWith, Renderer.document, walk_eq_descend]
    rfl
  · rw [Renderer.renderWith, Renderer.document, walk_eq_descend]
    decide +kernel
  · exact exists_visit_of_drop 3 ⟨_, _, rfl, by decide, by decide, by decide, by decide, by decide⟩

end Manuscript.Render
