import Manuscript.Proofs.Document.Places
import Manuscript.Proofs.Render.Repeated
import Manuscript.Proofs.Render.TableCells

/-! # Blocks of tables

What is written into the block of a table is told by the tree below the table: texts
without the spaces that they start with, a tab after each cell and a line feed after
each row, whatever else stands in between (`Node.buffered`). Every table without a
heading above or below it is entered once and written as one block when it is left
(`table_blocks`).
-/

namespace Manuscript

open Render

namespace Node

mutual

/-- What a node adds to the table that it stands in. -/
def buffered : Node → String
  | ⟨kind, literal, _, _, _, _, children⟩ =>
    if kind = .text then Text.dropSpaces literal
    else if kind.isLeaf || kind == .image then ""
    else bufferedAll children ++ (tableMark kind).getD ""

/-- What a forest adds to the table that it stands in. -/
def bufferedAll : List Node → String
  | [] => ""
  | child :: rest => child.buffered ++ bufferedAll rest

end

section

variable {node : Node}

theorem buffered_eq (node : Node) :
    node.buffered =
      if node.kind = .text then Text.dropSpaces node.literal
      else if node.kind.isLeaf || node.kind == .image then ""
      else bufferedAll node.children ++ (tableMark node.kind).getD "" := by
  cases node
  rfl

/-- A leaf is buffered if it is a text. -/
theorem buffered_end (hend : node.kind.isLeaf = true ∨ node.kind = .image) :
    node.buffered = if node.kind = .text then Text.dropSpaces node.literal else "" := by
  have hnothing : (node.kind.isLeaf || node.kind == .image) = true := by simpa using hend
  rw [buffered_eq, hnothing, if_pos rfl]

theorem ne_text_of_container (hleaf : node.kind.isLeaf = false) : node.kind ≠ .text := by
  intro htext
  simp [htext, Kind.isLeaf] at hleaf

/-- A container is buffered as its children and its mark. -/
theorem buffered_container (hleaf : node.kind.isLeaf = false) (himage : node.kind ≠ .image) :
    node.buffered = bufferedAll node.children ++ (tableMark node.kind).getD "" := by
  rw [buffered_eq, if_neg (ne_text_of_container hleaf), if_neg (by simp [hleaf, himage])]

end

end Node

namespace Render

/-- A place of a table that has no heading above or below it. -/
def isPlainTable (place : List Node × Node) : Bool :=
  place.2.kind = .table &&
    (place.1 ++ place.2.descendants).all (·.kind ≠ .heading)

/-- A text is buffered for the open table, and the next text is no front matter. -/
structure Buffering (run : Run) (text : String) : Prop where
  buffer : run.state.tableBuffer = some text
  idle : run.state.consumingFrontMatter = false

section

variable {load : Loader} {options : Options} {node : Node} {run after : Run} {text : String}
  {step : Step}

/-- A table is entered only if no table is open, and it starts with nothing buffered. -/
theorem Visited.of_enterTable (hkind : node.kind = .table)
    (hrule : Visited load options run node .enter (.ok step) after) :
    step = .next ∧ run.state.tableBuffer = none ∧ after = run.buffer "" := by
  cases hrule with
  | enterTable _ hnone => exact ⟨rfl, hnone, rfl⟩
  | plain hplain => simp [plainPieces, hkind] at hplain
  | image hother | payload hother | emptyText hother | bufferedText hother | writtenText hother
  | enterList hother | enterItem hother | repeatedFrontMatter hother | enterFrontMatter hother
  | enterSection hother => cases hkind.symm.trans hother

/-- A table that is left is written as the layout of what was buffered. -/
theorem Visited.of_leaveTable (hkind : node.kind = .table)
    (hrule : Visited load options run node .leave (.ok step) after) :
    step = .next ∧ ∃ buffer layout, run.state.tableBuffer = some buffer ∧
      Table.layout buffer = .ok layout ∧
      after.written.toList = run.written.toList ++ Troff.tableDisplay layout := by
  cases hrule with
  | leaveTable _ hbuffer hlayout => exact ⟨rfl, _, _, hbuffer, hlayout, Run.written_add _ _⟩
  | plain hplain => simp [plainPieces, hkind] at hplain
  | mark hmark => simp [tableMark, hkind] at hmark
  | image hother | payload hother | emptyText hother | bufferedText hother | writtenText hother
  | leaveList hother | leaveSection hother | leaveFrontMatter hother =>
      cases hkind.symm.trans hother

/-! ## Buffering -/

/-- Entering a node buffers its text. -/
theorem Buffering.enter (hbuffering : Buffering run text) (hheading : node.kind ≠ .heading)
    (hrule : Visited load options run node .enter (.ok step) after) :
    Buffering after
      (text ++ if node.kind = .text then Text.dropSpaces node.literal else "") := by
  obtain ⟨hbuffer, hidle⟩ := hbuffering
  have hsame : node.kind ≠ .text → after.state.tableBuffer = run.state.tableBuffer →
      after.state.consumingFrontMatter = run.state.consumingFrontMatter →
      Buffering after
        (text ++ if node.kind = .text then Text.dropSpaces node.literal else "") := by
    intro hkind hbuffer' hidle'
    rw [if_neg hkind, String.append_empty]
    exact ⟨hbuffer'.trans hbuffer, hidle'.trans hidle⟩
  cases hrule with
  | plain hplain => exact hsame (kind_of_plainPieces hplain).1.2.1 rfl rfl
  | image hkind | enterList hkind | enterItem hkind => exact hsame (by simp [hkind]) rfl rfl
  | payload hkind hconsuming => cases hidle.symm.trans hconsuming
  | writtenText hkind hconsuming hliteral hnone | enterTable hkind hnone =>
      cases hbuffer.symm.trans hnone
  | emptyText hkind hconsuming hliteral =>
      have hdrop : Text.dropSpaces "" = "" := rfl
      rw [if_pos hkind, hliteral, hdrop, String.append_empty]
      exact ⟨hbuffer, hidle⟩
  | bufferedText hkind hconsuming hliteral hsome =>
      cases hbuffer.symm.trans hsome
      rw [if_pos hkind]
      exact ⟨rfl, hidle⟩
  | repeatedFrontMatter hkind | enterFrontMatter hkind | enterSection hkind =>
      exact absurd hkind hheading

/-- Leaving a node buffers its mark. -/
theorem Buffering.leave (hbuffering : Buffering run text) (hheading : node.kind ≠ .heading)
    (htable : node.kind ≠ .table) (hleaf : node.kind.isLeaf = false)
    (hrule : Visited load options run node .leave (.ok step) after) :
    Buffering after (text ++ (tableMark node.kind).getD "") := by
  obtain ⟨hbuffer, hidle⟩ := hbuffering
  have hsame : tableMark node.kind = none → after.state.tableBuffer = run.state.tableBuffer →
      after.state.consumingFrontMatter = run.state.consumingFrontMatter →
      Buffering after (text ++ (tableMark node.kind).getD "") := by
    intro hmark hbuffer' hidle'
    rw [hmark, Option.getD_none, String.append_empty]
    exact ⟨hbuffer'.trans hbuffer, hidle'.trans hidle⟩
  cases hrule with
  | plain hplain =>
      refine hsame ?_ rfl rfl
      unfold tableMark
      split <;> simp_all [plainPieces]
  | mark hmark hsome =>
      cases hbuffer.symm.trans hsome
      rw [hmark]
      exact ⟨rfl, hidle⟩
  | image hkind | leaveList hkind => exact hsame (by rw [hkind]; rfl) rfl rfl
  | payload hkind | emptyText hkind | bufferedText hkind | writtenText hkind =>
      simp [hkind, Kind.isLeaf] at hleaf
  | leaveTable hkind => exact absurd hkind htable
  | leaveSection hkind | leaveFrontMatter hkind => exact absurd hkind hheading

variable (load options) in
/-- Rendering a node in an open table adds what the node holds to the buffer. -/
def AddsBuffered (node : Node) : Prop :=
  ∀ {run after : Run} {step : Step} {text : String},
    (node.descend (visitWith load options)).runFrom run = (.ok step, after) → step ≠ .stop →
    Buffering run text → Buffering after (text ++ node.buffered)

/-- The trees of a forest are buffered one after the other. -/
theorem buffering_forest {nodes : List Node}
    (hnodes : ∀ child ∈ nodes, AddsBuffered load options child) (hstep : step ≠ .stop)
    (hrun : (Node.descendAll (visitWith load options) nodes).runFrom run = (.ok step, after))
    (hbuffering : Buffering run text) : Buffering after (text ++ Node.bufferedAll nodes) := by
  induction nodes generalizing run text with
  | nil =>
      cases hrun
      rw [Node.bufferedAll, String.append_empty]
      exact hbuffering
  | cons first rest ih =>
      obtain ⟨hfirst, hrest⟩ := List.forall_mem_cons.mp hnodes
      rw [Node.descendAll_cons] at hrun
      obtain ⟨_, between, hhere, hgo, hothers⟩ := Action.runFrom_goOn_ok hstep hrun
      have hbetween := hfirst hhere hgo hbuffering
      have hafter := ih hrest hothers hbetween
      rwa [String.append_assoc] at hafter

/-- Every node without headings adds what is buffered of it. -/
theorem addsBuffered (node : Node)
    (hheadings : ∀ other ∈ node :: node.descendants, other.kind ≠ .heading) :
    AddsBuffered load options node := by
  induction node using Node.induction with
  | step node ih =>
      intro run after step text hrun hstep hbuffering
      obtain ⟨hheading, hbelow⟩ := List.forall_mem_cons.mp hheadings
      cases renders_of_ok hstep hrun with
      | passed hover => exact absurd (TitleSearch.heading_of_passesOver hover) hheading
      | once _ hend hrule =>
          rw [Node.buffered_end hend]
          exact hbuffering.enter hheading hrule
      | container _ hleaf himage henter hchildren hgo hleave =>
          -- A table that is entered while another one is open fails.
          have htable : node.kind ≠ .table := by
            intro htable
            cases hbuffering.buffer.symm.trans (henter.of_enterTable htable).2.1
          have hentered := hbuffering.enter hheading henter
          rw [if_neg (Node.ne_text_of_container hleaf), String.append_empty] at hentered
          have hleft := buffering_forest (fun child hchild => ih child hchild fun other hmem =>
            hbelow other (Node.descendants_subset hchild hmem)) hgo hchildren hentered
          rw [Node.buffered_container hleaf himage, ← String.append_assoc]
          exact hleft.leave hheading htable hleaf hleave

end

/-! ## Along a walk -/

section

variable {load : Loader} {options : Options} {root node : Node} {start run final : Run}
  {history : History RenderError Run} {rest : Pending}

theorem kind_of_isPlainTable {place : List Node × Node} (hplain : isPlainTable place = true) :
    place.2.kind = .table := by
  rw [isPlainTable, Bool.and_eq_true, decide_eq_true_eq] at hplain
  exact hplain.1

/-- No table below a heading is without a heading above it. -/
theorem filter_isPlainTable_heading (hkind : node.kind = .heading) (above : List Node) :
    (node.places above).filter isPlainTable = [] := by
  rw [List.filter_eq_nil_iff]
  rintro ⟨outer, target⟩ hmem hplain
  simp only [isPlainTable, Bool.and_eq_true, decide_eq_true_eq, List.all_eq_true] at hplain
  obtain ⟨htable, hheadings⟩ := hplain
  cases mem_places_iff.mp hmem with
  | here => cases hkind.symm.trans htable
  | child _ _ _ hreaches =>
      have habove := List.mem_append_left target.descendants (hreaches.subset List.mem_cons_self)
      exact hheadings node habove hkind

/-- Every table without headings above and below it is entered, in document order. -/
theorem enteredPlaces_isPlainTable
    (hdone : Underway (visitWith load options) root start [] history run) :
    (enteredPlaces history).filter isPlainTable = (root.places []).filter isPlainTable := by
  have hall := hdone.filter_places (passesOverImages load options) (p := isPlainTable) ?_
  · rwa [Pending.places, List.append_nil] at hall
  · intro node rest history run after _ hrun above
    rcases (visited hrun).next_or_skip with ⟨hnext, -⟩ | ⟨-, -, -, himage | hover⟩
    · cases hnext
    · rw [Node.places_end (.inr himage)]
    · have hkind := TitleSearch.heading_of_passesOver hover
      rw [filter_isPlainTable_heading hkind]
      simp [isPlainTable, hkind]

/-- A table is laid out alike from its text and from the bytes of it. -/
theorem layoutBytes_toUTF8 (s : String) : Table.layoutBytes s.toUTF8 = Table.layout s := by
  rw [Table.layoutBytes, Text.fromUTF8?_toUTF8]

/-- A table without headings above and below it is written when it is left. -/
theorem exists_block
    (hwalk : (walk (visitWith load options) root).runFrom (Renderer.start options) =
      (.ok .next, final))
    (hunderway : Underway (visitWith load options) root (Renderer.start options)
      ((node, .enter) :: rest) history run)
    (hplain : isPlainTable ((openNodes history).map OpenNode.node, node) = true) :
    ∃ inside left layout after,
      Spans (historyOf (visitWith load options) root (Renderer.start options))
        ⟨node, .enter, run, .ok .next⟩ inside left history ∧
      Table.layoutBytes node.buffered.toUTF8 = .ok layout ∧
      (visitWith load options left.node .leave).runFrom left.before = (.ok .next, after) ∧
      after.written.toList = left.before.written.toList ++ Troff.tableDisplay layout := by
  simp only [isPlainTable, Bool.and_eq_true, decide_eq_true_eq, List.all_eq_true,
    List.forall_mem_append] at hplain
  obtain ⟨hkind, habove, hbelow⟩ := hplain
  have hidle : run.state.consumingFrontMatter = false := by
    refine (remembers_of_underway hunderway).consuming_eq_false fun heading hmem => ?_
    obtain ⟨hopen, hheading⟩ := List.mem_filter.mp hmem
    exact absurd (by simpa using hheading) (habove _ (List.mem_map_of_mem hopen))
  obtain ⟨_, _, hrun, hstep⟩ := hunderway.descend_ok hwalk
  cases (Node.descends_of_ok hstep hrun).2 with
  | skip henter => cases ((visited henter).of_enterTable hkind).1
  | leaf hleaf => simp [hkind, Kind.isLeaf] at hleaf
  | @container entered left _ answer hleaf henter hchildren hgo hleave hanswer =>
      obtain ⟨-, -, rfl⟩ := (visited henter).of_enterTable hkind
      have hbuffering : Buffering left ("" ++ Node.bufferedAll node.children) := by
        refine buffering_forest (fun child hchild => ?_) hgo hchildren ⟨rfl, hidle⟩
        exact addsBuffered child fun other hmem =>
          hbelow other (Node.descendants_subset hchild hmem)
      obtain ⟨rfl, buffer, layout, hbuffer, hlayout, hwritten⟩ :=
        (visited hleave).of_leaveTable hkind
      obtain ⟨inside, hspans⟩ :=
        hunderway.spans_of_container hleaf henter hchildren hgo hleave hanswer
      refine ⟨inside, _, layout, _, hspans, ?_, hleave, hwritten⟩
      cases hbuffering.buffer.symm.trans hbuffer
      have hmark : node.buffered = "" ++ Node.bufferedAll node.children := by
        rw [Node.buffered_container hleaf (by simp [hkind]), hkind]
        exact String.append_empty.trans String.empty_append.symm
      rw [hmark, layoutBytes_toUTF8]
      exact hlayout

end

/-- The tables without headings above and below them that are reached outside of leaves and images
are entered once each, in document order. When such a table is left, one block is written: the
layout of what the tree below the table holds. -/
theorem table_blocks (load : Loader) (renderer : Renderer) (root : Node)
    (hresult : (renderer.renderWith load root).result = .ok ()) :
    let history := renderer.historyWith load root
    (enteredPlaces history).filter isPlainTable = (root.places []).filter isPlainTable ∧
    ∀ entered earlier, entered :: earlier <:+ history → entered.phase = .enter →
      isPlainTable ((openNodes earlier).map OpenNode.node, entered.node) = true →
      ∃ inside left layout after, Spans history entered inside left earlier ∧
        Table.layoutBytes entered.node.buffered.toUTF8 = .ok layout ∧
        (visitWith load renderer.options left.node .leave).runFrom left.before =
          (.ok .next, after) ∧
        after.written.toList = left.before.written.toList ++ Troff.tableDisplay layout ∧
        Troff.textOf (Troff.tableDisplay layout) =
          ".DS\n.TS H\n" ++ layout.header ++ "\n.TH\n" ++ layout.body ++ ".TE\n.DE\n" := by
  obtain ⟨final, hwalk, -⟩ := Renderer.walk_of_renderWith_ok hresult
  have hdone := underway_historyOf hwalk
  refine ⟨enteredPlaces_isPlainTable hdone, ?_⟩
  rintro ⟨node, phase, run, answer⟩ earlier hsuffix rfl hplain
  obtain ⟨⟨_, hunderway⟩, -⟩ := makes_of_suffix hsuffix
  obtain ⟨inside, left, layout, after, hspans, hlayout, hleave, hwritten⟩ :=
    exists_block hwalk hunderway hplain
  obtain ⟨step, _, hanswer, hrun⟩ := hdone.ran (hsuffix.mem List.mem_cons_self)
  cases hanswer
  cases ((visited hrun).of_enterTable (kind_of_isPlainTable hplain)).1
  exact ⟨inside, left, layout, after, hspans, hlayout, hleave, hwritten,
    textOf_tableDisplay layout.header layout.body⟩

/-- A table with rows of different lengths, one of them empty, and with an image and nested styles
in one of its cells. -/
def unevenTable : Node := .document [
  { kind := .paragraph, children := [.text "see"] },
  { kind := .table
    children := [
      .tableHead [.tableRow [.tableCell [.text " é"], .tableCell []]],
      .tableBody [
        .tableRow [
          .tableCell [
            { kind := .emphasis
              children := [{ kind := .strong, children := [.text "b"] }, .text " c"] },
            { kind := .image, children := [.text "d"] }]],
        .tableRow []]] }]

unseal Table.layOut in
/-- Rows of different lengths are laid out in columns of one width, without what is in an image. -/
theorem uneven_table_block :
    (Renderer.renderWith FrontMatter.load {} unevenTable).result = .ok () ∧
    ((unevenTable.places []).filter isPlainTable).map (·.2.buffered) = ["é\t\t\nbc\t\n\n"] ∧
    ∃ entered inside left earlier after,
      Spans (Renderer.historyWith FrontMatter.load {} unevenTable) entered inside left earlier ∧
      entered.node.kind = .table ∧
      (visitWith FrontMatter.load {} left.node .leave).runFrom left.before = (.ok .next, after) ∧
      after.written.toList = left.before.written.toList ++
        Troff.tableDisplay ⟨"é         ", "bc    \n\n"⟩ := by
  have hresult : (Renderer.renderWith FrontMatter.load {} unevenTable).result = .ok () := by
    rw [Renderer.renderWith, Renderer.document, walk_eq_descend]
    decide +kernel
  obtain ⟨hplaces, hblocks⟩ := table_blocks FrontMatter.load {} unevenTable hresult
  have hbuffered : ((unevenTable.places []).filter isPlainTable).map (·.2.buffered) =
      ["é\t\t\nbc\t\n\n"] := by decide
  refine ⟨hresult, hbuffered, ?_⟩
  obtain ⟨place, hplace, htext⟩ := List.map_eq_singleton_iff.mp hbuffered
  have hmem : place ∈ (enteredPlaces (Renderer.historyWith FrontMatter.load {} unevenTable)).filter
      isPlainTable := by
    rw [hplaces, hplace]
    exact List.mem_singleton_self _
  obtain ⟨hentered, hplain⟩ := List.mem_filter.mp hmem
  obtain ⟨entered, earlier, hsuffix, henter, rfl⟩ := mem_enteredPlaces_iff.mp hentered
  obtain ⟨inside, left, layout, after, hspans, hlayout, hleave, hwritten, -⟩ :=
    hblocks entered earlier hsuffix henter hplain
  have hcells : Table.layout "é\t\t\nbc\t\n\n" = .ok ⟨"é         ", "bc    \n\n"⟩ := rfl
  rw [layoutBytes_toUTF8, htext, hcells] at hlayout
  cases hlayout
  exact ⟨entered, inside, left, earlier, after, hspans, kind_of_isPlainTable hplain, hleave,
    hwritten⟩

/-- A table that is stored below a text. -/
def tableInText : Node where
  kind := .document
  children := [
    { kind := .text, children := [{ kind := .table, children := [{ kind := .tableRow }] }] }]

unseal Table.layOut in
/-- No block is written for a table below a text. -/
theorem table_in_text_unwritten :
    (tableInText.descendants.filter (·.kind = .table)).map Node.buffered = ["\n"] ∧
    Table.layoutBytes "\n".toUTF8 = .ok ⟨"", ""⟩ ∧
    (∀ node ∈ tableInText :: tableInText.descendants,
      node.kind ≠ .image ∧ node.kind ≠ .heading) ∧
    (Renderer.renderWith FrontMatter.load {} tableInText).result = .ok () ∧
    Troff.textOf (Renderer.renderWith FrontMatter.load {} tableInText).written = ".SG\n" := by
  refine ⟨by decide, ?_, by decide, ?_, ?_⟩
  · rw [layoutBytes_toUTF8]
    rfl
  · rw [Renderer.renderWith, Renderer.document, walk_eq_descend]
    rfl
  · rw [Renderer.renderWith, Renderer.document, walk_eq_descend]
    decide +kernel

end Render

end Manuscript
