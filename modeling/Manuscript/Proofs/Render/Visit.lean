import Manuscript.Proofs.Document.Action
import Manuscript.Render.Visit

/-! # What a visit does

Rendering visits a node by one of a few rules. `Visited` lists them with what
each needs, answers, remembers, writes and reports, and every visit follows one
of them (`visited`). What holds of all visits is proved rule by rule.
-/

namespace Manuscript.Render

open Troff (Piece)

namespace Run

/-- Write pieces. -/
def add (run : Run) (pieces : List Piece) : Run := { run with written := run.written ++ pieces }

/-- Remember something else. -/
def become (run : Run) (state : State) : Run := { run with state }

/-- Report a message. -/
def note (run : Run) (level : Log.Level) (message : String) : Run :=
  { run with log := run.log.push ⟨level, message⟩ }

variable (run : Run) (pieces : List Piece) (state : State) (level : Log.Level) (message : String)

@[simp] theorem state_add : (run.add pieces).state = run.state := rfl

@[simp] theorem state_become : (run.become state).state = state := rfl

@[simp] theorem state_note : (run.note level message).state = run.state := rfl

@[simp] theorem written_add : (run.add pieces).written.toList = run.written.toList ++ pieces := by
  simp [add]

@[simp] theorem written_become : (run.become state).written = run.written := rfl

@[simp] theorem written_note : (run.note level message).written = run.written := rfl

@[simp] theorem add_nil : run.add [] = run := by
  simp [add]

theorem add_add (more : List Piece) : (run.add pieces).add more = run.add (pieces ++ more) := by
  simp [add, ← Array.toList_inj]

end Run

/-! ## The parts of a visit -/

section Parts

variable (run : Run)

@[simp] theorem runFrom_write (pieces : List Piece) :
    (write pieces).runFrom run = (.ok (), run.add pieces) := rfl

@[simp] theorem runFrom_report (level : Log.Level) (message : String) :
    (report level message).runFrom run = (.ok (), run.note level message) := rfl

@[simp] theorem runFrom_update (change : State → State) :
    (update change).runFrom run = (.ok (), run.become (change run.state)) := rfl

@[simp] theorem runFrom_current : current.runFrom run = (.ok run.state, run) := rfl

/-- Drafts that all have an encoding are all written. -/
theorem runFrom_writeDrafts_ok {drafts : List Troff.Draft} {pieces : List Piece}
    (hrequests : Troff.requests drafts = (pieces, none)) :
    (writeDrafts drafts).runFrom run = (.ok (), run.add pieces) := by
  unfold writeDrafts
  rw [hrequests]
  rfl

/-- What comes before the first draft that has no encoding is written. -/
theorem runFrom_writeDrafts_error {drafts : List Troff.Draft} {pieces : List Piece}
    {e : EncodingError} (hrequests : Troff.requests drafts = (pieces, some e)) :
    (writeDrafts drafts).runFrom run = (.error (.encoding e), run.add pieces) := by
  unfold writeDrafts
  rw [hrequests]
  rfl

end Parts

/-! ## Rules of visits -/

/-- What a visit writes that neither needs nor changes what is remembered. -/
def plainPieces (node : Node) (phase : Phase) : Option (List Piece) :=
  match node.kind, phase with
  | .document, _ | .htmlSpan, _ | .tableHead, _ | .tableBody, _ | .link, _ => some []
  | .tableRow, .enter | .tableCell, .enter | .listItem, .leave => some []
  | .paragraph, .enter | .blockQuote, .enter => some [Troff.lineBreak, .text node.literal]
  | .paragraph, .leave | .blockQuote, .leave => some [Troff.lineBreak]
  | .htmlBlock, _ => some [Troff.html node.literal]
  | .codeSpan, _ => some [Troff.lineBreak, Troff.bold (some node.literal), Troff.roman]
  | .codeBlock, _ => some (Troff.codeBlock node.literal)
  | .emphasis, .enter => some [Troff.italic]
  | .strong, .enter => some [Troff.bold]
  | .emphasis, .leave | .strong, .leave => some [Troff.lineBreak, Troff.roman]
  | _, _ => none

/-- What ends a part of a table in the buffer. -/
def tableMark : Kind → Option String
  | .tableRow => some "\n"
  | .tableCell => some "\t"
  | _ => none

/-- Whether nodes of a kind can be rendered at all. -/
def hasRendering : Kind → Bool
  | .thematicBreak | .lineBreak | .other _ => false
  | _ => true

/-- The report on a title block that was loaded. -/
def loadedMessage (block : TitleBlock) : String :=
  s!"Loaded title block {block.title.quoted} with {block.authors.length} author(s)"

/-- The rules of visits: what each needs, what it answers, and the run after it. -/
inductive Visited (load : Loader) (options : Options) (run : Run) (node : Node) :
    Phase → Except RenderError Step → Run → Prop
  | plain {phase pieces} (hplain : plainPieces node phase = some pieces) :
      Visited load options run node phase (.ok .next) (run.add pieces)
  | unknown {phase} (hkind : hasRendering node.kind = false) :
      Visited load options run node phase (.error (.unknownKind node.kind phase)) run
  | image {phase} (hkind : node.kind = .image) :
      Visited load options run node phase (.ok .skipChildren)
        (run.note Log.debug s!"Skipping image {node.destination}")
  | payload {phase block} (hkind : node.kind = .text)
      (hconsuming : run.state.consumingFrontMatter = true) (hload : load node.literal = .ok block) :
      Visited load options run node phase (.ok .next)
        ((run.note Log.debug (loadedMessage block)).become
          { run.state with titleBlock := some block, consumingFrontMatter := false })
  | badPayload {phase error} (hkind : node.kind = .text)
      (hconsuming : run.state.consumingFrontMatter = true)
      (hload : load node.literal = .error error) :
      Visited load options run node phase (.error (.frontMatter error)) run
  | emptyText {phase} (hkind : node.kind = .text)
      (hconsuming : run.state.consumingFrontMatter = false) (hliteral : node.literal = "") :
      Visited load options run node phase (.ok .next) run
  | bufferedText {phase buffer} (hkind : node.kind = .text)
      (hconsuming : run.state.consumingFrontMatter = false) (hliteral : node.literal ≠ "")
      (hbuffer : run.state.tableBuffer = some buffer) :
      Visited load options run node phase (.ok .next)
        (run.become
          { run.state with tableBuffer := some (buffer ++ Text.dropSpaces node.literal) })
  | writtenText {phase} (hkind : node.kind = .text)
      (hconsuming : run.state.consumingFrontMatter = false) (hliteral : node.literal ≠ "")
      (hbuffer : run.state.tableBuffer = none) :
      Visited load options run node phase (.ok .next)
        (run.add [.text (Text.dropSpaces node.literal)])
  | enterTable (hkind : node.kind = .table) (hbuffer : run.state.tableBuffer = none) :
      Visited load options run node .enter (.ok .next)
        (run.become { run.state with tableBuffer := some "" })
  | nestedTable {buffer} (hkind : node.kind = .table)
      (hbuffer : run.state.tableBuffer = some buffer) :
      Visited load options run node .enter (.error .nestedTable) run
  | leaveTable {buffer layout} (hkind : node.kind = .table)
      (hbuffer : run.state.tableBuffer = some buffer)
      (hlayout : Table.layout buffer = .ok layout) :
      Visited load options run node .leave (.ok .next)
        ((run.become { run.state with tableBuffer := none }).add (Troff.tableDisplay layout))
  | badTable {buffer error} (hkind : node.kind = .table)
      (hbuffer : run.state.tableBuffer = some buffer)
      (hlayout : Table.layout buffer = .error error) :
      Visited load options run node .leave (.error (.layout error))
        (run.become { run.state with tableBuffer := none })
  | mark {buffer mark} (hmark : tableMark node.kind = some mark)
      (hbuffer : run.state.tableBuffer = some buffer) :
      Visited load options run node .leave (.ok .next)
        (run.become { run.state with tableBuffer := some (buffer ++ mark) })
  | outsideTable (hkind : node.kind = .table ∨ (tableMark node.kind).isSome)
      (hbuffer : run.state.tableBuffer = none) :
      Visited load options run node .leave (.error (.outsideTable node.kind)) run
  | enterList (hkind : node.kind = .list) :
      Visited load options run node .enter (.ok .next)
        ((run.add (if run.state.counters.isEmpty then [] else [Troff.indent])).become
          { run.state with counters := 0 :: run.state.counters })
  | leaveList (hkind : node.kind = .list) :
      Visited load options run node .leave (.ok .next)
        ((run.become { run.state with counters := run.state.counters.tail }).add [Troff.outdent])
  | enterItem {count outer} (hkind : node.kind = .listItem)
      (hcounters : run.state.counters = count :: outer) :
      Visited load options run node .enter (.ok .next)
        ((run.become { run.state with counters := (count + 1) :: outer }).add
          [Troff.indentedParagraph (itemLabel (node.listStyle.getD {}) ((count + 1) :: outer))])
  | outsideList (hkind : node.kind = .listItem) (hcounters : run.state.counters = []) :
      Visited load options run node .enter (.error .outsideList) run
  | repeatedFrontMatter (hkind : node.kind = .heading) (hfront : isFrontMatter options node = true)
      (hblock : run.state.titleBlock.isSome) :
      Visited load options run node .enter (.ok .skipChildren)
        (run.note Log.warning
          "Ignoring additional front matter heading; the title block is already set")
  | enterFrontMatter (hkind : node.kind = .heading) (hfront : isFrontMatter options node = true)
      (hblock : run.state.titleBlock = none) :
      Visited load options run node .enter (.ok .next)
        (run.become { run.state with consumingFrontMatter := true })
  | enterSection (hkind : node.kind = .heading) (hfront : isFrontMatter options node = false) :
      Visited load options run node .enter (.ok .next)
        ((run.become { run.state with consumingFrontMatter := false }).add [Troff.sectionHeading])
  | leaveSection (hkind : node.kind = .heading) (hfront : isFrontMatter options node = false) :
      Visited load options run node .leave (.ok .next)
        ((run.become { run.state with consumingFrontMatter := false }).add [Troff.lineBreak])
  | leaveFrontMatter {block pieces} (hkind : node.kind = .heading)
      (hfront : isFrontMatter options node = true) (hblock : run.state.titleBlock = some block)
      (hrequests : Troff.requests (Troff.titleBlock block) = (pieces, none)) :
      Visited load options run node .leave (.ok .next)
        ((run.become { run.state with consumingFrontMatter := false }).add pieces)
  | badTitleBlock {block pieces error} (hkind : node.kind = .heading)
      (hfront : isFrontMatter options node = true) (hblock : run.state.titleBlock = some block)
      (hrequests : Troff.requests (Troff.titleBlock block) = (pieces, some error)) :
      Visited load options run node .leave (.error (.encoding error))
        ((run.become { run.state with consumingFrontMatter := false }).add pieces)
  | noPayload (hkind : node.kind = .heading) (hfront : isFrontMatter options node = true)
      (hblock : run.state.titleBlock = none) :
      Visited load options run node .leave (.error .noPayload)
        (run.become { run.state with consumingFrontMatter := false })

/-- The kinds of nodes that have other rules, and those without a rendering. -/
theorem kind_of_plainPieces {node : Node} {phase : Phase} {pieces : List Piece}
    (hplain : plainPieces node phase = some pieces) :
    (hasRendering node.kind = true ∧ node.kind ≠ .text ∧ node.kind ≠ .image) ∧
      node.kind ≠ .list ∧ node.kind ≠ .table ∧ node.kind ≠ .heading ∧
      (node.kind ≠ .listItem ∨ phase = .leave) := by
  refine ⟨⟨?rendering, ?_, ?_⟩, ?_, ?_, ?_, ?item⟩
  case rendering =>
    cases hkind : node.kind <;> simp [plainPieces, hkind, hasRendering] at hplain ⊢
  case item =>
    cases phase with
    | enter =>
        left
        intro hkind
        simp [plainPieces, hkind] at hplain
    | leave => exact .inr rfl
  all_goals
    intro hkind
    simp [plainPieces, hkind] at hplain

/-- Rows and cells end with marks. -/
theorem kind_of_tableMark {kind : Kind} {mark : String} (hmark : tableMark kind = some mark) :
    kind = .tableRow ∧ mark = "\n" ∨ kind = .tableCell ∧ mark = "\t" := by
  unfold tableMark at hmark
  split at hmark <;> simp_all

/-! ## Every visit follows a rule -/

theorem loadTitleBlock_eq (load : Loader) (payload : String) :
    loadTitleBlock load payload =
      match load payload with
      | .error e => throw (.frontMatter e)
      | .ok block => (do
        report Log.debug (loadedMessage block)
        update fun state =>
          { state with titleBlock := some block, consumingFrontMatter := false }) :=
  rfl

section Kinds

variable {load : Loader} {options : Options} {node : Node}

theorem visitWith_text (hkind : node.kind = .text) (phase : Phase) :
    visitWith load options node phase = (do text load node; return .next) := by
  cases node
  cases hkind
  rfl

theorem visitWith_image (hkind : node.kind = .image) (phase : Phase) :
    visitWith load options node phase = (do
      report Log.debug s!"Skipping image {node.destination}"
      return .skipChildren) := by
  cases node
  cases hkind
  rfl

/-- A node of a kind without a rendering is refused. -/
theorem visitWith_unknown (hkind : hasRendering node.kind = false) (phase : Phase) :
    visitWith load options node phase = throw (.unknownKind node.kind phase) := by
  obtain ⟨kind, _, _, _, _, _, _⟩ := node
  cases kind <;> first | (cases hkind; done) | rfl

theorem visitWith_enterTable (hkind : node.kind = .table) :
    visitWith load options node .enter = (do enterTable; return .next) := by
  cases node
  cases hkind
  rfl

theorem visitWith_leaveTable (hkind : node.kind = .table) :
    visitWith load options node .leave = (do leaveTable node.kind; return .next) := by
  cases node
  cases hkind
  rfl

theorem visitWith_mark {mark : String} (hmark : tableMark node.kind = some mark) :
    visitWith load options node .leave = (do markTable node.kind mark; return .next) := by
  obtain ⟨kind, _, _, _, _, _, _⟩ := node
  cases kind <;> cases hmark <;> rfl

theorem visitWith_enterList (hkind : node.kind = .list) :
    visitWith load options node .enter = (do enterList; return .next) := by
  cases node
  cases hkind
  rfl

theorem visitWith_leaveList (hkind : node.kind = .list) :
    visitWith load options node .leave = (do leaveList; return .next) := by
  cases node
  cases hkind
  rfl

theorem visitWith_enterItem (hkind : node.kind = .listItem) :
    visitWith load options node .enter = (do enterItem node; return .next) := by
  cases node
  cases hkind
  rfl

theorem visitWith_enterHeading (hkind : node.kind = .heading) :
    visitWith load options node .enter = (do return ← enterHeading options node) := by
  cases node
  cases hkind
  rfl

theorem visitWith_leaveHeading (hkind : node.kind = .heading) :
    visitWith load options node .leave = (do leaveHeading options node; return .next) := by
  cases node
  cases hkind
  rfl

end Kinds

section

variable {load : Loader} {options : Options} {run : Run} {node : Node} {phase : Phase}

/-- A visit is one that a rule describes. -/
def ByRule (load : Loader) (options : Options) (run : Run) (node : Node) (phase : Phase) : Prop :=
  ∃ answer after, (visitWith load options node phase).runFrom run = (answer, after) ∧
    Visited load options run node phase answer after

/-- A visit that runs as a rule says follows that rule. -/
theorem Visited.byRule {answer : Except RenderError Step} {after : Run}
    (hrule : Visited load options run node phase answer after)
    (hrun : (visitWith load options node phase).runFrom run = (answer, after)) :
    ByRule load options run node phase :=
  ⟨answer, after, hrun, hrule⟩

/-- A plain visit only writes its pieces. -/
theorem runFrom_visit_plain {pieces : List Piece} (hplain : plainPieces node phase = some pieces) :
    (visitWith load options node phase).runFrom run = (.ok .next, run.add pieces) := by
  obtain ⟨kind, literal, _, _, _, _, _⟩ := node
  cases kind <;> cases phase <;> cases hplain
  case paragraph.enter =>
    -- No depth is negative, so a paragraph goes on in the current indentation.
    have hdepth : Troff.paragraph literal run.state.counters.length =
        [Troff.lineBreak, .text literal] := if_neg (by omega)
    exact congrArg (fun pieces => (Except.ok Step.next, run.add pieces)) hdepth
  all_goals rfl

/-- A text is a payload, goes into the open table, or is written. -/
theorem byRule_text (hkind : node.kind = .text) : ByRule load options run node phase := by
  cases hconsuming : run.state.consumingFrontMatter with
  | true =>
      cases hload : load node.literal with
      | error e =>
          refine Visited.byRule (.badPayload hkind hconsuming hload) ?_
          simp [visitWith_text hkind, text, loadTitleBlock_eq, hconsuming, hload]
      | ok block =>
          refine Visited.byRule (.payload hkind hconsuming hload) ?_
          simp [visitWith_text hkind, text, loadTitleBlock_eq, hconsuming, hload]
  | false =>
      by_cases hliteral : node.literal = ""
      · refine Visited.byRule (.emptyText hkind hconsuming hliteral) ?_
        simp [visitWith_text hkind, text, hconsuming, hliteral]
      · cases hbuffer : run.state.tableBuffer with
        | none =>
            refine Visited.byRule (.writtenText hkind hconsuming hliteral hbuffer) ?_
            simp [visitWith_text hkind, text, writeText, hconsuming, hliteral, hbuffer]
        | some buffer =>
            refine Visited.byRule (.bufferedText hkind hconsuming hliteral hbuffer) ?_
            simp [visitWith_text hkind, text, writeText, hconsuming, hliteral, hbuffer]

/-- A table that can be laid out is written when it is left. -/
theorem runFrom_visit_leaveTable {buffer : String} {layout : Table.Layout}
    (hkind : node.kind = .table) (hbuffer : run.state.tableBuffer = some buffer)
    (hlayout : Table.layout buffer = .ok layout) :
    (visitWith load options node .leave).runFrom run =
      (.ok .next, (run.become { run.state with tableBuffer := none }).add
        (Troff.tableDisplay layout)) := by
  simp [visitWith_leaveTable hkind, leaveTable, hbuffer, Troff.table, hlayout, Except.map]

theorem byRule_table (hkind : node.kind = .table) : ByRule load options run node phase := by
  cases phase with
  | enter =>
      cases hbuffer : run.state.tableBuffer with
      | none =>
          refine Visited.byRule (.enterTable hkind hbuffer) ?_
          simp [visitWith_enterTable hkind, enterTable, hbuffer]
      | some buffer =>
          refine Visited.byRule (.nestedTable hkind hbuffer) ?_
          simp [visitWith_enterTable hkind, enterTable, hbuffer]
  | leave =>
      cases hbuffer : run.state.tableBuffer with
      | none =>
          refine Visited.byRule (.outsideTable (.inl hkind) hbuffer) ?_
          simp [visitWith_leaveTable hkind, leaveTable, hbuffer]
      | some buffer =>
          cases hlayout : Table.layout buffer with
          | ok layout =>
              refine Visited.byRule (.leaveTable hkind hbuffer hlayout) ?_
              exact runFrom_visit_leaveTable hkind hbuffer hlayout
          | error e =>
              refine Visited.byRule (.badTable hkind hbuffer hlayout) ?_
              simp [visitWith_leaveTable hkind, leaveTable, hbuffer, Troff.table, hlayout,
                Except.map]

theorem byRule_mark {mark : String} (hmark : tableMark node.kind = some mark) :
    ByRule load options run node .leave := by
  cases hbuffer : run.state.tableBuffer with
  | none =>
      refine Visited.byRule (.outsideTable (.inr (by simp [hmark])) hbuffer) ?_
      simp [visitWith_mark hmark, markTable, hbuffer]
  | some buffer =>
      refine Visited.byRule (.mark hmark hbuffer) ?_
      simp [visitWith_mark hmark, markTable, hbuffer]

theorem byRule_list (hkind : node.kind = .list) : ByRule load options run node phase := by
  cases phase with
  | enter =>
      refine Visited.byRule (.enterList hkind) ?_
      cases hcounters : run.state.counters <;>
        simp [visitWith_enterList hkind, enterList, hcounters]
  | leave =>
      refine Visited.byRule (.leaveList hkind) ?_
      simp [visitWith_leaveList hkind, leaveList]

theorem byRule_enterItem (hkind : node.kind = .listItem) :
    ByRule load options run node .enter := by
  cases hcounters : run.state.counters with
  | nil =>
      refine Visited.byRule (.outsideList hkind hcounters) ?_
      simp [visitWith_enterItem hkind, enterItem, countItem, hcounters]
  | cons count outer =>
      refine Visited.byRule (.enterItem hkind hcounters) ?_
      simp [visitWith_enterItem hkind, enterItem, countItem, itemStart, hcounters]

/-- A heading is a section or front matter, and front matter is taken once. -/
theorem byRule_heading (hkind : node.kind = .heading) : ByRule load options run node phase := by
  cases hfront : isFrontMatter options node with
  | false =>
      cases phase with
      | enter =>
          refine Visited.byRule (.enterSection hkind hfront) ?_
          simp [visitWith_enterHeading hkind, enterHeading, hfront]
      | leave =>
          refine Visited.byRule (.leaveSection hkind hfront) ?_
          simp [visitWith_leaveHeading hkind, leaveHeading, hfront]
  | true =>
      cases phase with
      | enter =>
          cases hblock : run.state.titleBlock with
          | none =>
              refine Visited.byRule (.enterFrontMatter hkind hfront hblock) ?_
              simp [visitWith_enterHeading hkind, enterHeading, hfront, hblock]
          | some block =>
              refine Visited.byRule (.repeatedFrontMatter hkind hfront (by simp [hblock])) ?_
              simp [visitWith_enterHeading hkind, enterHeading, hfront, hblock]
      | leave =>
          cases hblock : run.state.titleBlock with
          | none =>
              refine Visited.byRule (.noPayload hkind hfront hblock) ?_
              simp [visitWith_leaveHeading hkind, leaveHeading, hfront, hblock]
          | some block =>
              obtain ⟨pieces, fault?, hrequests⟩ : ∃ pieces fault?,
                  Troff.requests (Troff.titleBlock block) = (pieces, fault?) := ⟨_, _, rfl⟩
              cases fault? with
              | none =>
                  refine Visited.byRule (.leaveFrontMatter hkind hfront hblock hrequests) ?_
                  simp [visitWith_leaveHeading hkind, leaveHeading, hfront, hblock,
                    runFrom_writeDrafts_ok _ hrequests]
              | some e =>
                  refine Visited.byRule (.badTitleBlock hkind hfront hblock hrequests) ?_
                  simp [visitWith_leaveHeading hkind, leaveHeading, hfront, hblock,
                    runFrom_writeDrafts_error _ hrequests]

/-- Every visit follows a rule. -/
theorem byRule : ByRule load options run node phase := by
  cases hplain : plainPieces node phase with
  | some pieces => exact Visited.byRule (.plain hplain) (runFrom_visit_plain hplain)
  | none =>
      cases hkind : node.kind with
      | text => exact byRule_text hkind
      | table => exact byRule_table hkind
      | list => exact byRule_list hkind
      | heading => exact byRule_heading hkind
      | listItem =>
          cases phase with
          | enter => exact byRule_enterItem hkind
          | leave => simp [plainPieces, hkind] at hplain
      | tableRow | tableCell =>
          cases phase with
          | enter => simp [plainPieces, hkind] at hplain
          | leave => exact byRule_mark (by rw [hkind]; rfl)
      | image =>
          refine Visited.byRule (.image hkind) ?_
          simp [visitWith_image hkind]
      | thematicBreak | lineBreak | other =>
          have hrendering : hasRendering node.kind = false := by
            rw [hkind]
            rfl
          refine Visited.byRule (.unknown hrendering) ?_
          simp [visitWith_unknown hrendering]
      | _ => cases phase <;> simp [plainPieces, hkind] at hplain

/-- Every visit follows a rule. -/
theorem visited {answer : Except RenderError Step} {after : Run}
    (hrun : (visitWith load options node phase).runFrom run = (answer, after)) :
    Visited load options run node phase answer after := by
  have hby : ByRule load options run node phase := byRule
  obtain ⟨_, _, hrun', hrule⟩ := hby
  rw [hrun] at hrun'
  cases hrun'
  exact hrule

/-- No visit stops the walk. -/
theorem Visited.ne_stop {answer : Except RenderError Step} {after : Run}
    (hrule : Visited load options run node phase answer after) : answer ≠ .ok .stop := by
  intro heq
  subst heq
  cases hrule

/-- Leaving any other node than an image goes on to the next. -/
theorem Visited.eq_next_of_leave {step : Step} {after : Run}
    (hrule : Visited load options run node .leave (.ok step) after)
    (himage : node.kind ≠ .image) : step = .next := by
  cases hrule with
  | image hkind => exact absurd hkind himage
  | _ => rfl

end

end Manuscript.Render
