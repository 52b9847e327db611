import Manuscript.Proofs.Render.History
import Manuscript.Proofs.Troff.Named

/-! # What visits write

What a visit writes is told by its node and by what is remembered before it,
whoever loads front matter (`Visited.written_eq`). The output at any time is
therefore the preamble followed by what each visit of the history wrote
(`written_of_underway`).
-/

namespace Manuscript.Render

open Troff (Piece)

/-- What a visit writes if it does not fail. -/
def writes (options : Options) (node : Node) (phase : Phase) (state : State) : List Piece :=
  match node.kind, phase with
  | .text, _ =>
    if state.consumingFrontMatter || state.tableBuffer.isSome || node.literal.isEmpty then []
    else [.text (Text.dropSpaces node.literal)]
  | .table, .leave =>
    match state.tableBuffer.map Troff.table with
    | some (.ok pieces) => pieces
    | _ => []
  | .list, .enter => if state.counters.isEmpty then [] else [Troff.indent]
  | .list, .leave => [Troff.outdent]
  | .listItem, .enter =>
    match state.counters with
    | [] => []
    | count :: outer =>
      [Troff.indentedParagraph (itemLabel (node.listStyle.getD {}) ((count + 1) :: outer))]
  | .heading, .enter => if isFrontMatter options node then [] else [Troff.sectionHeading]
  | .heading, .leave =>
    if isFrontMatter options node then
      (state.titleBlock.map fun block => (Troff.requests (Troff.titleBlock block)).1).getD []
    else [Troff.lineBreak]
  | _, _ => (plainPieces node phase).getD []

/-- What the visits of a history wrote, in the order in which they were made. -/
def outputOf (options : Options) (history : History RenderError Run) : List Piece :=
  history.reverse.flatMap fun v => writes options v.node v.phase v.before.state

section

variable {load : Loader} {options : Options} {node : Node} {phase : Phase} {run after : Run}

/-- What is written without a look at what is remembered is what is written. -/
theorem writes_of_plain {pieces : List Piece} (hplain : plainPieces node phase = some pieces)
    (state : State) : writes options node phase state = pieces := by
  have hget : (plainPieces node phase).getD [] = pieces := by rw [hplain]; rfl
  obtain ⟨⟨-, htext, -⟩, hlist, htable, hheading, hitem⟩ := kind_of_plainPieces hplain
  rw [← hget]
  cases hkind : node.kind <;> cases phase <;> simp_all [writes]

/-- A visit appends what it writes to the output. -/
theorem Visited.written_eq {step : Step}
    (hrule : Visited load options run node phase (.ok step) after) :
    after.written.toList = run.written.toList ++ writes options node phase run.state := by
  cases hrule with
  | plain hplain => rw [writes_of_plain hplain, Run.written_add]
  | image hkind => simp [writes, hkind, plainPieces]
  | payload hkind hconsuming => simp [writes, hkind, hconsuming]
  | emptyText hkind hconsuming hliteral => simp [writes, hkind, hliteral]
  | bufferedText hkind hconsuming _ hbuffer => simp [writes, hkind, hbuffer]
  | writtenText hkind hconsuming hliteral hbuffer =>
      simp [writes, hkind, hconsuming, hliteral, hbuffer]
  | enterTable hkind => simp [writes, hkind, plainPieces]
  | leaveTable hkind hbuffer hlayout =>
      simp [writes, hkind, hbuffer, Troff.table, hlayout, Except.map]
  | mark hmark =>
      rcases kind_of_tableMark hmark with ⟨hkind, -⟩ | ⟨hkind, -⟩ <;>
        simp [writes, hkind, plainPieces]
  | enterList hkind => simp [writes, hkind]
  | leaveList hkind => simp [writes, hkind]
  | enterItem hkind hcounters => simp [writes, hkind, hcounters]
  | repeatedFrontMatter hkind hfront => simp [writes, hkind, hfront]
  | enterFrontMatter hkind hfront => simp [writes, hkind, hfront]
  | enterSection hkind hfront => simp [writes, hkind, hfront]
  | leaveSection hkind hfront => simp [writes, hkind, hfront]
  | leaveFrontMatter hkind hfront hblock hrequests =>
      simp [writes, hkind, hfront, hblock, hrequests]

/-- The names of the requests that are written for other nodes than items, headings and tables. -/
def bodyNames : List String := [
  Troff.Request.bold, Troff.Request.italic, Troff.Request.roman, Troff.Request.html,
  Troff.Request.codeStart, Troff.Request.codeEnd, Troff.Request.indentStart,
  Troff.Request.indentEnd]

/-- Only the requests of the body are written without a look at what is remembered. -/
theorem named_plainPieces {name : String} (hbody : name ∉ bodyNames) {pieces : List Piece}
    (hplain : plainPieces node phase = some pieces) : Troff.named name pieces = [] := by
  simp only [bodyNames, List.mem_cons, List.not_mem_nil, or_false, not_or] at hbody
  obtain ⟨hb, hi, hr, hhtml, hp1, hp2, -, -⟩ := hbody
  unfold plainPieces at hplain
  split at hplain <;> cases hplain <;>
    simp [Troff.html, Troff.bold, Troff.italic, Troff.roman, Troff.codeBlock, Troff.named_bare,
      Troff.named_withText, Ne.symm hb, Ne.symm hi, Ne.symm hr, Ne.symm hhtml, Ne.symm hp1,
      Ne.symm hp2]

theorem named_writes_other {name : String} (hbody : name ∉ bodyNames)
    (htable : name ∉ Troff.tableNames) (hitem : node.kind ≠ .listItem)
    (hheading : node.kind ≠ .heading) (state : State) :
    Troff.named name (writes options node phase state) = [] := by
  have hlist : Troff.Request.indentStart ≠ name ∧ Troff.Request.indentEnd ≠ name := by
    constructor <;>
      · rintro rfl
        simp [bodyNames] at hbody
  obtain hplain | ⟨pieces, hplain⟩ := (plainPieces node phase).eq_none_or_eq_some
  case inr => rw [writes_of_plain hplain, named_plainPieces hbody hplain]
  unfold writes
  split
  next => split <;> simp
  next =>
    cases htext : state.tableBuffer with
    | none => rfl
    | some buffer =>
        cases hlayout : Table.layout buffer with
        | ok layout =>
            simp [Troff.table, hlayout, Except.map, Troff.named_tableDisplay htable]
        | error e => simp [Troff.table, hlayout, Except.map]
  next => split <;> simp [Troff.indent, Troff.named_bare, hlist]
  next => simp [Troff.outdent, Troff.named_bare, hlist]
  next hkind => exact absurd hkind hitem
  next hkind => exact absurd hkind hheading
  next hkind => exact absurd hkind hheading
  next =>
    rw [hplain]
    rfl

end

/-! ## Along a walk -/

theorem outputOf_cons (options : Options) (v : Visit RenderError Run)
    (earlier : History RenderError Run) :
    outputOf options (v :: earlier) =
      outputOf options earlier ++ writes options v.node v.phase v.before.state := by
  simp [outputOf]

theorem outputOf_append (options : Options) (later earlier : History RenderError Run) :
    outputOf options (later ++ earlier) = outputOf options earlier ++ outputOf options later := by
  simp [outputOf]

section

variable {load : Loader} {options : Options} {root : Node} {start run : Run} {pending : Pending}
  {history : History RenderError Run}

/-- The visits made so far tell what was written. -/
theorem written_of_underway
    (hunderway : Underway (visitWith load options) root start pending history run) :
    run.written.toList = start.written.toList ++ outputOf options history := by
  induction hunderway with
  | start => simp [outputOf]
  | step _ hrun _ ih => rw [(visited hrun).written_eq, ih, outputOf_cons, List.append_assoc]

/-- Whatever was written was there at the start or was written by a visit. -/
theorem exists_visit_of_written
    (hunderway : Underway (visitWith load options) root start pending history run)
    {before after : List Piece} {piece : Piece}
    (hwritten : run.written.toList = before ++ piece :: after) :
    piece ∈ start.written.toList ∨
      ∃ v earlier first second, v :: earlier <:+ history ∧
        before = v.before.written.toList ++ first ∧
        writes options v.node v.phase v.before.state = first ++ piece :: second := by
  induction hunderway generalizing after with
  | start =>
      left
      rw [hwritten]
      simp
  | @step node phase rest history run next step _ hrun _ ih =>
      rw [(visited hrun).written_eq] at hwritten
      rcases List.append_eq_append_iff.mp hwritten with ⟨first, hbefore, hwrites⟩ |
        ⟨others, hrun, hpiece⟩
      · exact .inr ⟨_, history, first, after, List.suffix_rfl, hbefore, hwrites⟩
      · cases others with
        | nil =>
            rw [List.append_nil] at hrun
            exact .inr ⟨⟨node, phase, run, .ok step⟩, history, [], after, List.suffix_rfl,
              by rw [List.append_nil, hrun], hpiece.symm⟩
        | cons other others =>
            cases hpiece
            rcases ih hrun with hstart | ⟨v, earlier, first, second, hsuffix, hplace⟩
            · exact .inl hstart
            · exact .inr ⟨v, earlier, first, second, hsuffix.trans (List.suffix_cons _ _), hplace⟩

/-- Between two visits the visits in between are written, the first of the two included. -/
theorem written_between {entered left : Visit RenderError Run}
    {inside earlier : History RenderError Run}
    (hsuffix : left :: (inside ++ entered :: earlier) <:+
      historyOf (visitWith load options) root start) :
    left.before.written.toList =
      entered.before.written.toList ++
        writes options entered.node entered.phase entered.before.state ++
        outputOf options inside := by
  have hentered : entered :: earlier <:+ historyOf (visitWith load options) root start :=
    (List.suffix_append _ _).trans ((List.suffix_cons _ _).trans hsuffix)
  obtain ⟨_, hbefore⟩ := (makes_of_suffix hsuffix).underway
  obtain ⟨_, hfirst⟩ := (makes_of_suffix hentered).underway
  rw [written_of_underway hbefore, written_of_underway hfirst, outputOf_append, outputOf_cons]
  simp only [List.append_assoc]

end

end Manuscript.Render
