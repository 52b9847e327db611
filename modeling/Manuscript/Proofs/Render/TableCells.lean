import Manuscript.Document.Build
import Manuscript.Proofs.Document.Span
import Manuscript.Proofs.Render.Memory
import Manuscript.Proofs.Table.Columns

/-! # Cells of rendered tables

Rendering a table of texts buffers its rows and writes their layout. If all rows
have the same number of cells, the lines of the display show these cells, each at
the start of its column, and the cells can be read off the lines
(`table_shows_cells`).
-/

namespace Manuscript.Render

open Table (ShowsCells columnStart readCells rowText)

/-- A run in which a text is buffered. -/
def Run.buffer (run : Run) (text : String) : Run :=
  run.become { run.state with tableBuffer := some text }

/-- The text that rows of cells are buffered as. -/
def tableText (rows : List (List String)) : String :=
  String.join (rows.map fun row =>
    String.join (row.map fun cell => Text.dropSpaces cell ++ "\t") ++ "\n")

variable (load : Loader) (options : Options) (run : Run) in
/-- Rendering a node in a table buffers a text and does nothing else. -/
def Buffers (node : Node) (text : String) : Prop :=
  ∀ buffer, (node.descend (visitWith load options)).runFrom (run.buffer buffer) =
    (.ok .next, run.buffer (buffer ++ text))

section

variable {load : Loader} {options : Options} {run : Run} {node : Node} {phase : Phase}

/-! ## Buffering -/

theorem runFrom_visit_buffered (hkind : node.kind = .text)
    (hidle : run.state.consumingFrontMatter = false) (buffer : String) :
    (visitWith load options node phase).runFrom (run.buffer buffer) =
      (.ok .next, run.buffer (buffer ++ Text.dropSpaces node.literal)) := by
  by_cases hliteral : node.literal = ""
  · have hdrop : Text.dropSpaces "" = "" := rfl
    simp [visitWith_text hkind, text, Run.buffer, hidle, hliteral, hdrop]
  · simp [visitWith_text hkind, text, writeText, Run.buffer, Run.become, hidle, hliteral]

theorem runFrom_visit_mark {mark : String} (hmark : tableMark node.kind = some mark)
    (buffer : String) :
    (visitWith load options node .leave).runFrom (run.buffer buffer) =
      (.ok .next, run.buffer (buffer ++ mark)) := by
  simp [visitWith_mark hmark, markTable, Run.buffer, Run.become]

/-- Parts that are buffered are buffered one after the other. -/
theorem buffers_forest {α : Type} {nodeOf : α → Node} {textOf : α → String} {parts : List α}
    (hparts : ∀ part ∈ parts, Buffers load options run (nodeOf part) (textOf part))
    (buffer : String) :
    (Node.descendAll (visitWith load options) (parts.map nodeOf)).runFrom (run.buffer buffer) =
      (.ok .next, run.buffer (buffer ++ String.join (parts.map textOf))) := by
  induction parts generalizing buffer with
  | nil => simp [Node.descendAll]
  | cons first rest ih =>
      obtain ⟨hfirst, hrest⟩ := List.forall_mem_cons.mp hparts
      rw [List.map_cons, Node.descendAll_cons, Action.runFrom_goOn_next (hfirst buffer), ih hrest]
      simp [String.append_assoc]

/-- A part of a table that is ended with a mark buffers what it holds and the mark. -/
theorem Buffers.marked {mark text : String} (hplain : plainPieces node .enter = some [])
    (hmark : tableMark node.kind = some mark)
    (hbelow : ∀ buffer,
      (Node.descendAll (visitWith load options) node.children).runFrom (run.buffer buffer) =
        (.ok .next, run.buffer (buffer ++ text))) :
    Buffers load options run node (text ++ mark) := by
  intro buffer
  have hleaf : node.kind.isLeaf = false := by
    rcases kind_of_tableMark hmark with ⟨hkind, -⟩ | ⟨hkind, -⟩ <;> rw [hkind] <;> rfl
  have henter : (visitWith load options node .enter).runFrom (run.buffer buffer) =
      (.ok .next, run.buffer buffer) := by
    rw [runFrom_visit_plain hplain, Run.add_nil]
  rw [Node.runFrom_descend_ok hleaf henter (hbelow buffer) (runFrom_visit_mark hmark _) (by decide),
    String.append_assoc]

/-- A head or a body buffers what it holds. -/
theorem Buffers.section {text : String} (hkind : node.kind = .tableHead ∨ node.kind = .tableBody)
    (hbelow : ∀ buffer,
      (Node.descendAll (visitWith load options) node.children).runFrom (run.buffer buffer) =
        (.ok .next, run.buffer (buffer ++ text))) :
    Buffers load options run node text := by
  intro buffer
  have hplain : ∀ phase, plainPieces node phase = some [] := by
    intro phase
    rcases hkind with hkind | hkind <;> simp [plainPieces, hkind]
  have hvisit : ∀ phase run,
      (visitWith load options node phase).runFrom run = (.ok .next, run) := by
    intro phase run
    rw [runFrom_visit_plain (hplain phase), Run.add_nil]
  have hleaf : node.kind.isLeaf = false := by
    rcases hkind with hkind | hkind <;> rw [hkind] <;> rfl
  exact Node.runFrom_descend_ok hleaf (hvisit .enter _) (hbelow buffer) (hvisit .leave _)
    (by decide)

/-- A row of texts is buffered as its cells, each with a tab, and the end of a line. -/
theorem buffers_textRow (hidle : run.state.consumingFrontMatter = false) (row : List String) :
    Buffers load options run (Node.textRow row)
      (String.join (row.map fun cell => Text.dropSpaces cell ++ "\t") ++ "\n") := by
  apply Buffers.marked rfl rfl
  apply buffers_forest
  intro cell _
  apply Buffers.marked rfl rfl
  intro buffer
  have hleaf : (Node.text cell).kind.isLeaf = true := rfl
  rw [Node.tableCell, Node.descendAll_singleton]
  exact Node.runFrom_descend_leaf hleaf (runFrom_visit_buffered rfl hidle buffer)

theorem tableText_append (header rows : List (List String)) :
    tableText (header ++ rows) = tableText header ++ tableText rows := by
  rw [tableText, List.map_append, String.join_append]
  rfl

theorem runFrom_visit_enterTable (hkind : node.kind = .table)
    (hbuffer : run.state.tableBuffer = none) :
    (visitWith load options node .enter).runFrom run = (.ok .next, run.buffer "") := by
  simp [visitWith_enterTable hkind, enterTable, hbuffer, Run.buffer]

theorem Run.buffer_none (hbuffer : run.state.tableBuffer = none) (text : String) :
    (run.buffer text).become { (run.buffer text).state with tableBuffer := none } = run := by
  obtain ⟨⟨_, _, _, _⟩, _, _⟩ := run
  cases hbuffer
  rfl

/-- Outside of tables and front matter, a table of texts writes the layout of its rows and changes
nothing that is remembered. -/
theorem runFrom_descend_table {header rows : List (List String)} {layout : Table.Layout}
    (hlayout : Table.layout (tableText (header ++ rows)) = .ok layout)
    (hidle : run.state.consumingFrontMatter = false) (hbuffer : run.state.tableBuffer = none) :
    ((Node.table header rows).descend (visitWith load options)).runFrom run =
      (.ok .next, run.add (Troff.tableDisplay layout)) := by
  have hrows (rows : List (List String)) (buffer : String) :
      (Node.descendAll (visitWith load options) (rows.map Node.textRow)).runFrom
        (run.buffer buffer) = (.ok .next, run.buffer (buffer ++ tableText rows)) :=
    buffers_forest (fun row _ => buffers_textRow hidle row) buffer
  have hhead : Buffers load options run (Node.tableHead (header.map Node.textRow))
      (tableText header) := Buffers.section (.inl rfl) (hrows header)
  have hbody : Buffers load options run (Node.tableBody (rows.map Node.textRow))
      (tableText rows) := Buffers.section (.inr rfl) (hrows rows)
  have hchildren :
      (Node.descendAll (visitWith load options) (Node.table header rows).children).runFrom
        (run.buffer "") = (.ok .next, run.buffer (tableText (header ++ rows))) := by
    rw [Node.table, Node.descendAll_cons, Action.runFrom_goOn_next (hhead ""),
      Node.descendAll_singleton, hbody, String.empty_append, tableText_append]
  have hleave : (visitWith load options (Node.table header rows) .leave).runFrom
      (run.buffer (tableText (header ++ rows))) =
        (.ok .next, run.add (Troff.tableDisplay layout)) := by
    rw [runFrom_visit_leaveTable rfl rfl hlayout, Run.buffer_none hbuffer]
  exact Node.runFrom_descend_ok rfl (runFrom_visit_enterTable rfl hbuffer) hchildren hleave
    (by decide)

/-! ## Lines of the display -/

/-- What is shown of the cells of a row: their texts without the spaces that they start with. -/
def shownCells (row : List String) : List (List Char) :=
  row.map fun cell => (Text.dropSpaces cell).toList

/-- The buffered text of a table has one line for each row. -/
theorem toList_tableText (rows : List (List String)) :
    (tableText rows).toList = ((rows.map shownCells).map rowText).flatMap (· ++ ['\n']) := by
  simp [tableText, shownCells, rowText, String.toList_join, List.flatMap_map]

theorem shownCells_eq (row : List String) :
    shownCells row = (row.map String.toList).map (·.dropWhile (· == ' ')) := by
  simp [shownCells, Text.dropSpaces]

/-- A table is displayed as its head, its body and the requests around them. -/
theorem textOf_tableDisplay (header body : String) :
    Troff.textOf (Troff.tableDisplay ⟨header, body⟩) =
      ".DS\n.TS H\n" ++ header ++ "\n.TH\n" ++ body ++ ".TE\n.DE\n" := by
  have hpieces : (Troff.tableDisplay ⟨header, body⟩).map Troff.Piece.toText =
      [".DS\n", ".TS H\n", header, "\n", ".TH\n", body, ".TE\n", ".DE\n"] := rfl
  rw [Troff.textOf, hpieces]
  apply String.toList_injective
  simp

variable {rows : List (List String)} {columns : Nat}

/-- A table with rows of one length is laid out with one width for each column. -/
theorem layout_tableText (hne : rows ≠ []) (hcolumns : ∀ row ∈ rows, row.length = columns)
    (hcells : ∀ row ∈ rows, ∀ cell ∈ row, '\t' ∉ cell.toList ∧ '\n' ∉ cell.toList) :
    ∃ widths first others, widths.length = columns ∧
      Table.layout (tableText rows) =
        .ok ⟨String.ofList first, String.ofList (others.flatMap (· ++ ['\n']))⟩ ∧
      List.Forall₂ (ShowsCells widths) (first :: others) (rows.map shownCells) := by
  apply Table.layout_of_cells (by simpa using hne) _ _ (toList_tableText rows)
  · intro shown hmem
    obtain ⟨row, hrow, rfl⟩ := List.mem_map.mp hmem
    rw [shownCells, List.length_map]
    exact hcolumns row hrow
  · intro shown hmem cell hcell
    obtain ⟨row, hrow, rfl⟩ := List.mem_map.mp hmem
    rw [shownCells_eq] at hcell
    obtain ⟨_, hchars, rfl⟩ := List.mem_map.mp hcell
    obtain ⟨text, htext, rfl⟩ := List.mem_map.mp hchars
    have hclean := hcells row hrow text htext
    have hsublist := List.dropWhile_sublist (· == ' ') (l := text.toList)
    exact ⟨fun htab => hclean.1 (hsublist.mem htab), fun hfeed => hclean.2 (hsublist.mem hfeed)⟩

section

variable {widths : List Nat} {lines : List (List Char)}

/-- Lines that show rows of one length have one length. -/
theorem length_of_shows (hcolumns : ∀ row ∈ rows, row.length = columns)
    (hshows : List.Forall₂ (ShowsCells widths) lines (rows.map shownCells)) :
    ∀ line ∈ lines, line.length = columnStart widths columns := by
  rw [List.forall₂_map_right_iff] at hshows
  induction hshows with
  | nil => simp
  | @cons line row lines rows hline _ ih =>
      obtain ⟨hrow, hrows⟩ := List.forall_mem_cons.mp hcolumns
      refine List.forall_mem_cons.mpr ⟨?_, ih hrows⟩
      rw [hline.width, shownCells, List.length_map, hrow]

/-- The cells of a row are read off the line that shows it. -/
theorem read_of_shows (hcolumns : ∀ row ∈ rows, row.length = columns)
    (hshows : List.Forall₂ (ShowsCells widths) lines (rows.map shownCells)) :
    lines.map (readCells widths columns) =
      rows.map (·.map fun cell => Text.trimBy (· == ' ') cell.toList) := by
  rw [List.forall₂_map_right_iff] at hshows
  induction hshows with
  | nil => rfl
  | @cons line row lines rows hline _ ih =>
      obtain ⟨hrow, hrows⟩ := List.forall_mem_cons.mp hcolumns
      rw [shownCells_eq] at hline
      have hread := hline.read
      rw [List.length_map, hrow, List.map_map] at hread
      rw [List.map_cons, List.map_cons, ih hrows, hread]
      rfl

end

/-! ## Tables in a document -/

section

variable {load : Loader} {renderer : Renderer} {root : Node} {entered : Visit RenderError Run}
  {earlier : History RenderError Run} {header rows : List (List String)} {layout : Table.Layout}
  (hlayout : Table.layout (tableText (header ++ rows)) = .ok layout)
include hlayout

/-- A table alone is rendered as its display. -/
theorem renderWith_table :
    (renderer.renderWith load (Node.table header rows)).result = .ok () ∧
      (renderer.renderWith load (Node.table header rows)).written =
        (Renderer.start renderer.options).written.toList ++ Troff.tableDisplay layout ++
          [Troff.signature] := by
  have hwalk : (walk (visitWith load renderer.options) (Node.table header rows)).runFrom
      (Renderer.start renderer.options) =
        (.ok .next, (Renderer.start renderer.options).add (Troff.tableDisplay layout)) := by
    rw [walk_eq_descend]
    apply runFrom_descend_table hlayout <;> rw [Renderer.start_state]
  rw [Renderer.renderWith_ok hwalk, Run.written_add]
  exact ⟨rfl, rfl⟩

/-- Outside of tables and front matter, the display of a table is what is written from entering it
to leaving it. -/
theorem exists_spans_table (hsuffix : entered :: earlier <:+ renderer.historyWith load root)
    (henter : entered.phase = .enter) (hnode : entered.node = Node.table header rows)
    (htable : openOf .table earlier = [])
    (hfront : ∀ heading ∈ openOf .heading earlier,
      isFrontMatter renderer.options heading.node = false) :
    ∃ inside left after, Spans (renderer.historyWith load root) entered inside left earlier ∧
      (visitWith load renderer.options left.node .leave).runFrom left.before = (.ok .next, after) ∧
      after.written.toList =
        entered.before.written.toList ++ Troff.tableDisplay layout := by
  obtain ⟨⟨_, hunderway⟩, hanswered⟩ := makes_of_suffix hsuffix
  have hremembers := remembers_of_underway hunderway
  have hidle := hremembers.consuming_eq_false hfront
  have hbuffer := hremembers.tableBuffer_eq_none htable
  have hopens : entered.opens = true := by
    rw [henter, hnode, runFrom_visit_enterTable rfl hbuffer] at hanswered
    have hanswer : entered.answer = .ok .next := hanswered.symm
    simp [Visit.opens, henter, hanswer, hnode, Node.table, Kind.isLeaf]
  have hrun : (entered.node.descend (visitWith load renderer.options)).runFrom entered.before =
      (.ok .next, entered.before.add (Troff.tableDisplay layout)) := by
    rw [hnode]
    exact runFrom_descend_table hlayout hidle hbuffer
  obtain ⟨inside, left, answer, hspans, hleave⟩ :=
    exists_spans_of_enter hsuffix hopens hrun (by decide)
  have hkind : left.node.kind ≠ .image := by
    rw [hspans.node_eq, hnode]
    exact Kind.noConfusion
  have hnext : answer = .next := (visited hleave).eq_next_of_leave hkind
  subst hnext
  exact ⟨inside, left, _, hspans, hleave, Run.written_add _ _⟩

end

end

/-- The display of a table of texts without tabs and line feeds, all rows of which have the same
number of cells, has a line for each row: the first one before the request that ends the heading,
the others after it. All lines have the same length. There are columns, the same ones for all
lines, such that each cell is shown at the start of its column, without the spaces that it starts
with and followed by at least four spaces. So the cells can be read off the lines, but for the
spaces around them. This display is written for the table alone and also, outside of tables and
front matter, for the table in any document. -/
theorem table_shows_cells (header rows : List (List String)) (columns : Nat)
    (hne : header ++ rows ≠ []) (hcolumns : ∀ row ∈ header ++ rows, row.length = columns)
    (hcells : ∀ row ∈ header ++ rows, ∀ cell ∈ row, '\t' ∉ cell.toList ∧ '\n' ∉ cell.toList) :
    ∃ layout widths first others,
      Troff.textOf (Troff.tableDisplay layout) =
        ".DS\n.TS H\n" ++ String.ofList first ++ "\n.TH\n" ++
          String.ofList (others.flatMap (· ++ ['\n'])) ++ ".TE\n.DE\n" ∧
      (first :: others).length = (header ++ rows).length ∧ widths.length = columns ∧
      (∀ line ∈ first :: others, line.length = columnStart widths columns) ∧
      List.Forall₂ (ShowsCells widths) (first :: others) ((header ++ rows).map shownCells) ∧
      (first :: others).map (readCells widths columns) =
        (header ++ rows).map (·.map fun cell => Text.trimBy (· == ' ') cell.toList) ∧
      (∀ (load : Loader) (renderer : Renderer),
        (renderer.renderWith load (Node.table header rows)).result = .ok () ∧
        (renderer.renderWith load (Node.table header rows)).written =
          (Renderer.start renderer.options).written.toList ++ Troff.tableDisplay layout ++
            [Troff.signature]) ∧
      ∀ (load : Loader) (renderer : Renderer) (root : Node) (entered : Visit RenderError Run)
        (earlier : History RenderError Run),
        entered :: earlier <:+ renderer.historyWith load root → entered.phase = .enter →
        entered.node = Node.table header rows → openOf .table earlier = [] →
        (∀ heading ∈ openOf .heading earlier,
          isFrontMatter renderer.options heading.node = false) →
        ∃ inside left after,
          Spans (renderer.historyWith load root) entered inside left earlier ∧
          (visitWith load renderer.options left.node .leave).runFrom left.before =
            (.ok .next, after) ∧
          after.written.toList =
            entered.before.written.toList ++ Troff.tableDisplay layout := by
  obtain ⟨widths, first, others, hwidths, hlayout, hshows⟩ :=
    layout_tableText hne hcolumns hcells
  refine ⟨_, widths, first, others, textOf_tableDisplay _ _, ?_, hwidths,
    length_of_shows hcolumns hshows, hshows, read_of_shows hcolumns hshows, ?_, ?_⟩
  · rw [hshows.length_eq, List.length_map]
  · intro load renderer
    exact renderWith_table hlayout
  · intro load renderer root entered earlier hsuffix henter hnode htable hfront
    exact exists_spans_table hlayout hsuffix henter hnode htable hfront

/-- A table with a letter of two bytes, spaces around a text, and cells with nothing else. -/
def accentedTable : Node := Node.table [["é", " b "]] [["", "   "]]

/-- Its cells can be read off its two lines, and a document that holds it shows them alike. -/
theorem accented_table_cells :
    ∃ layout widths first second,
      Troff.textOf (Troff.tableDisplay layout) =
        ".DS\n.TS H\n" ++ String.ofList first ++ "\n.TH\n" ++ String.ofList (second ++ ['\n']) ++
          ".TE\n.DE\n" ∧
      first.length = second.length ∧ readCells widths 2 first = [['é'], ['b']] ∧
      readCells widths 2 second = [[], []] ∧
      (Renderer.renderWith FrontMatter.load {} accentedTable).result = .ok () ∧
      (Renderer.renderWith FrontMatter.load {} accentedTable).written =
        Troff.tableDisplay layout ++ [Troff.signature] ∧
      ∃ entered inside left earlier after,
        Spans (Renderer.historyWith FrontMatter.load {} (Node.document [accentedTable])) entered
          inside left earlier ∧
        (visitWith FrontMatter.load {} left.node .leave).runFrom left.before = (.ok .next, after) ∧
        after.written.toList = entered.before.written.toList ++ Troff.tableDisplay layout := by
  obtain ⟨layout, widths, first, others, htext, hcount, -, hlengths, -, hread, halone, hinside⟩ :=
    table_shows_cells [["é", " b "]] [["", "   "]] 2 (by decide) (by decide) (by decide)
  obtain ⟨second, rfl⟩ : ∃ second, others = [second] := by
    rw [← List.length_eq_one_iff]
    simpa using hcount
  obtain ⟨hfirst, hsecond⟩ : first.length = columnStart widths 2 ∧
      second.length = columnStart widths 2 := by
    simpa using hlengths
  have hcells : (([["é", " b "]] ++ [["", "   "]]).map
      (·.map fun cell => Text.trimBy (· == ' ') cell.toList)) = [[['é'], ['b']], [[], []]] := by
    decide
  rw [hcells] at hread
  obtain ⟨hreadFirst, hreadSecond⟩ : readCells widths 2 first = [['é'], ['b']] ∧
      readCells widths 2 second = [[], []] := by
    simpa using hread
  -- The table is visited second, right after the document.
  have hdocument : Underway (visitWith FrontMatter.load {}) (Node.document [accentedTable])
      (Renderer.start {}) [(accentedTable, .enter), (Node.document [accentedTable], .leave)] _ _ :=
    Underway.start.step (runFrom_visit_plain rfl) (by decide)
  have hsuffix := (hdocument.step (runFrom_visit_enterTable rfl rfl) (by decide)).suffix_historyOf
  obtain ⟨inside, left, after, hspans, hleave, hwritten⟩ :=
    hinside FrontMatter.load {} _ _ _ hsuffix rfl rfl rfl (List.forall_mem_nil _)
  obtain ⟨hresult, hdisplay⟩ := halone FrontMatter.load {}
  refine ⟨layout, widths, first, second, ?_, by omega, hreadFirst, hreadSecond, hresult, hdisplay,
    _, inside, left, _, after, hspans, hleave, hwritten⟩
  simpa using htext

end Manuscript.Render
