import Manuscript.Proofs.Render.History
import Manuscript.Proofs.Troff.Line

/-! # Font requests at the start of a line

Entering emphasis writes its request without ending the line first. Whether
the request starts a line is therefore decided by the latest visit before it
that wrote anything (`style_starts_line_iff`): a text or the literal of a block
may have left its line open, and nothing else does.
-/

namespace Manuscript.Render

open Troff (Piece Line lineOf AtLineStart)

/-- Where a visit leaves output. -/
def lineAfter (options : Options) (node : Node) (phase : Phase) (state : State) : Line :=
  match node.kind, phase with
  | .document, _ | .htmlSpan, _ | .tableHead, _ | .tableBody, _ | .link, _ | .image, _
  | .tableRow, _ | .tableCell, _ | .table, .enter | .listItem, .leave => .untouched
  | .text, _ =>
    if state.consumingFrontMatter || state.tableBuffer.isSome then .untouched
    else .ofText (Text.dropSpaces node.literal)
  | .paragraph, .enter | .blockQuote, .enter => (Line.ofText node.literal).after .ended
  | .list, .enter => if state.counters.isEmpty then .untouched else .ended
  | .heading, .enter => if isFrontMatter options node then .untouched else .ended
  | _, _ => .ended

/-- Output stands inside of a line after these visits: the latest of them that wrote anything left
its line open, or there is none and the preamble did. -/
inductive InsideLine (options : Options) : History RenderError Run → Prop
  | preamble (hopened : Line.ofText options.preamble = .opened) : InsideLine options []
  | opened {v earlier} (hopened : lineAfter options v.node v.phase v.before.state = .opened) :
      InsideLine options (v :: earlier)
  | untouched {v earlier}
      (huntouched : lineAfter options v.node v.phase v.before.state = .untouched)
      (hinside : InsideLine options earlier) : InsideLine options (v :: earlier)

/-- The request that entering a style writes. -/
def styleRequest : Kind → Piece
  | .strong => Troff.bold
  | _ => Troff.italic

section

variable {load : Loader} {options : Options} {node : Node} {phase : Phase} {run after : Run}

/-- What is written without a look at what is remembered leaves the line as told by the node. -/
theorem lineOf_plainPieces {pieces : List Piece} (hplain : plainPieces node phase = some pieces) :
    lineOf pieces = lineAfter options node phase run.state := by
  unfold plainPieces at hplain
  split at hplain <;> cases hplain <;> rename_i hkind <;>
    simp [lineAfter, hkind, Troff.lineOf_codeBlock, Troff.html, Troff.bold, Troff.roman,
      Troff.italic]

/-- A visit moves output to where it says. -/
theorem Visited.lineOf_eq {step : Step}
    (hrule : Visited load options run node phase (.ok step) after) :
    lineOf after.written.toList =
      (lineAfter options node phase run.state).after (lineOf run.written.toList) := by
  cases hrule with
  | plain hplain =>
      rw [Run.written_add, Troff.lineOf_append, lineOf_plainPieces hplain]
  | image hkind => simp [lineAfter, hkind]
  | payload hkind hconsuming => simp [lineAfter, hkind, hconsuming]
  | emptyText hkind hconsuming hliteral =>
      have hdrop : Text.dropSpaces "" = "" := rfl
      simp [lineAfter, hkind, hliteral, hdrop]
  | bufferedText hkind hconsuming _ hbuffer => simp [lineAfter, hkind, hbuffer]
  | writtenText hkind hconsuming _ hbuffer =>
      rw [Run.written_add, Troff.lineOf_append]
      simp [lineAfter, hkind, hconsuming, hbuffer]
  | enterTable hkind => simp [lineAfter, hkind]
  | mark hmark =>
      rcases kind_of_tableMark hmark with ⟨hkind, -⟩ | ⟨hkind, -⟩ <;> simp [lineAfter, hkind]
  | leaveTable hkind =>
      rw [Run.written_add, Troff.lineOf_append, Troff.lineOf_tableDisplay]
      simp [lineAfter, hkind]
  | enterList hkind =>
      rw [Run.written_become, Run.written_add, Troff.lineOf_append]
      split <;> simp_all [lineAfter, Troff.indent]
  | leaveList hkind =>
      rw [Run.written_add, Troff.lineOf_append]
      simp [lineAfter, hkind, Troff.outdent]
  | enterItem hkind =>
      rw [Run.written_add, Troff.lineOf_append]
      simp [lineAfter, hkind, Troff.indentedParagraph]
  | repeatedFrontMatter hkind hfront => simp [lineAfter, hkind, hfront]
  | enterFrontMatter hkind hfront => simp [lineAfter, hkind, hfront]
  | enterSection hkind hfront =>
      rw [Run.written_add, Troff.lineOf_append]
      simp [lineAfter, hkind, hfront, Troff.sectionHeading]
  | leaveSection hkind =>
      rw [Run.written_add, Troff.lineOf_append]
      simp [lineAfter, hkind]
  | leaveFrontMatter hkind _ _ hrequests =>
      rw [Run.written_add, Troff.lineOf_append, Troff.lineOf_titleBlock hrequests]
      simp [lineAfter, hkind]

/-- The latest visit decides on the line, unless it leaves it as it was. -/
theorem insideLine_cons (v : Visit RenderError Run) (earlier : History RenderError Run) :
    InsideLine options (v :: earlier) ↔
      lineAfter options v.node v.phase v.before.state = .opened ∨
        lineAfter options v.node v.phase v.before.state = .untouched ∧
          InsideLine options earlier := by
  constructor
  · intro hinside
    cases hinside with
    | opened hopened => exact .inl hopened
    | untouched huntouched hinside => exact .inr ⟨huntouched, hinside⟩
  · rintro (hopened | ⟨huntouched, hinside⟩)
    · exact .opened hopened
    · exact .untouched huntouched hinside

/-- The visits made so far tell where output stands. -/
theorem lineOf_of_underway {root : Node} {pending : Pending} {history : History RenderError Run}
    (hunderway : Underway (visitWith load options) root (Renderer.start options) pending history
      run) : lineOf run.written.toList = .opened ↔ InsideLine options history := by
  induction hunderway with
  | start =>
      have hstart : lineOf (Renderer.start options).written.toList =
          Line.ofText options.preamble := by
        rw [Renderer.start_written]
        split <;> simp_all
      rw [hstart]
      constructor
      · exact InsideLine.preamble
      · rintro ⟨hopened⟩
        exact hopened
  | step _ hrun _ ih =>
      -- A visit that leaves output untouched hands the question on to the visits before it.
      rw [(visited hrun).lineOf_eq, insideLine_cons, ← ih]
      cases lineAfter options _ _ _ <;> simp

end

/-- Entering emphasis always writes its request and nothing else. It starts a line exactly if the
latest visit before it that wrote anything did not leave its line open. -/
theorem style_starts_line_iff (load : Loader) (renderer : Renderer) (root : Node)
    (v : Visit RenderError Run) (earlier : History RenderError Run)
    (hvisit : v :: earlier <:+ renderer.historyWith load root)
    (hstyle : v.node.kind = .emphasis ∨ v.node.kind = .strong) (henter : v.phase = .enter) :
    (visitWith load renderer.options v.node v.phase).runFrom v.before =
      (.ok .next, v.before.add [styleRequest v.node.kind]) ∧
    (AtLineStart v.before.written.toList ↔ ¬ InsideLine renderer.options earlier) := by
  constructor
  · refine runFrom_visit_plain ?_
    rcases hstyle with hkind | hkind <;> simp [plainPieces, hkind, henter, styleRequest]
  · obtain ⟨rest, hunderway⟩ := (makes_of_suffix hvisit).underway
    rw [Troff.atLineStart_iff, ← lineOf_of_underway hunderway]

/-- A code span ends its line, which a link then leaves as it is. -/
def styledLink : Node where
  kind := .paragraph
  children := [
    { kind := .text, literal := "a" },
    { kind := .codeSpan, literal := "b" },
    { kind := .link, children := [{ kind := .emphasis }] }]

/-- Emphasis after a code span is switched to at the start of a line. -/
theorem style_starts_line_after_code :
    ∃ v earlier, v :: earlier <:+ Renderer.historyWith FrontMatter.load {} styledLink ∧
      v.node.kind = .emphasis ∧ v.phase = .enter ∧ ¬ InsideLine {} earlier ∧
      AtLineStart v.before.written.toList ∧
      (visitWith FrontMatter.load {} v.node v.phase).runFrom v.before =
        (.ok .next, v.before.add [Troff.italic]) := by
  cases hmade : (Renderer.historyWith FrontMatter.load {} styledLink).drop 3 with
  | nil =>
      rw [Renderer.historyWith, historyOf_eq_descend] at hmade
      cases hmade
  | cons v earlier =>
      have hvisit : v :: earlier <:+ Renderer.historyWith FrontMatter.load {} styledLink := by
        rw [← hmade]
        exact List.drop_suffix _ _
      have hfacts : v.node.kind = .emphasis ∧ v.phase = .enter ∧
          lineOf v.before.written.toList = .ended := by
        rw [Renderer.historyWith, historyOf_eq_descend] at hmade
        cases hmade
        decide
      obtain ⟨hkind, henter, hended⟩ := hfacts
      obtain ⟨hwrites, hline⟩ :=
        style_starts_line_iff FrontMatter.load {} styledLink v earlier hvisit (.inl hkind) henter
      have hstart : AtLineStart v.before.written.toList := by
        rw [Troff.atLineStart_iff, hended]
        decide
      rw [hkind] at hwrites
      exact ⟨v, earlier, hvisit, hkind, henter, hline.mp hstart, hstart, hwrites⟩

/-! ## Text before emphasis -/

/-- The kinds of nodes that stand in a line of text. -/
def isInline : Kind → Bool
  | .text | .emphasis | .strong | .codeSpan | .htmlSpan | .lineBreak | .link | .image => true
  | _ => false

/-- The kinds of nodes that documents, quotes and items are made of. -/
def isBlock : Kind → Bool
  | .paragraph | .heading | .list | .codeBlock | .htmlBlock | .blockQuote | .table => true
  | _ => false

/-- Whether a node may have a child. -/
def mayHold (parent child : Kind) : Bool :=
  match parent with
  | .document | .blockQuote | .listItem => isBlock child
  | .paragraph | .heading | .tableCell | .emphasis | .strong | .link | .image => isInline child
  | _ => true

/-- Blocks hold what they may hold, all the way down. -/
def BlockStructured (root : Node) : Prop :=
  ∀ node ∈ root :: root.descendants, ∀ child ∈ node.children, mayHold node.kind child.kind = true

/-- The smallest document in which emphasis follows a text. -/
def styleAfterText : Node where
  kind := .document
  children := [
    { kind := .paragraph
      children := [
        { kind := .text, literal := "a" },
        { kind := .emphasis, children := [{ kind := .text, literal := "b" }] }] }]

/-- A request is written inside of a line when emphasis follows a text. -/
theorem style_request_inside_line :
    BlockStructured styleAfterText ∧
    ∃ v earlier, v :: earlier <:+ Renderer.historyWith FrontMatter.load {} styleAfterText ∧
      v.node.kind = .emphasis ∧ v.phase = .enter ∧ openOf .table earlier = [] ∧
      Troff.textOf v.before.written.toList = "\na" ∧ ¬ AtLineStart v.before.written.toList := by
  refine ⟨by unfold BlockStructured; decide, ?_⟩
  cases hmade : (Renderer.historyWith FrontMatter.load {} styleAfterText).drop 4 with
  | nil =>
      rw [Renderer.historyWith, historyOf_eq_descend] at hmade
      cases hmade
  | cons v earlier =>
      have hvisit : v :: earlier <:+ Renderer.historyWith FrontMatter.load {} styleAfterText := by
        rw [← hmade]
        exact List.drop_suffix _ _
      have hfacts : v.node.kind = .emphasis ∧ v.phase = .enter ∧
          Troff.textOf v.before.written.toList = "\na" := by
        rw [Renderer.historyWith, historyOf_eq_descend] at hmade
        cases hmade
        decide
      have hopen : openOf .table earlier = [] := by
        rw [Renderer.historyWith, historyOf_eq_descend] at hmade
        cases hmade
        rfl
      obtain ⟨hkind, henter, htext⟩ := hfacts
      refine ⟨v, earlier, hvisit, hkind, henter, hopen, htext, ?_⟩
      rw [AtLineStart, htext]
      decide

end Manuscript.Render
