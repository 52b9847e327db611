import Manuscript.Proofs.Document.Span
import Manuscript.Proofs.Render.Memory
import Manuscript.Proofs.Render.Output

/-! # Output during a table

Texts and the ends of rows and cells go to the buffer of the open table. All
other nodes in a table write to the output, before the table itself is written
(`table_output_kept_iff`).
-/

namespace Manuscript.Render

open Troff (Piece)

/-- The kinds of nodes that write nothing past the open table. -/
def keptInTable : Kind → Bool
  | .document | .text | .htmlSpan | .link | .tableHead | .tableBody | .tableRow | .tableCell => true
  | _ => false

/-- The kinds of nodes that write when they are left, but not always when they are entered. -/
def writesAtEnd : Kind → Bool
  | .list | .table | .heading => true
  | _ => false

section

variable {load : Loader} {options : Options} {node : Node} {phase : Phase} {run after : Run}
  {step : Step}

/-- What is written at the end of such a node is never nothing. -/
theorem writes_leave_ne_nil (hrule : Visited load options run node .leave (.ok step) after)
    (hkind : writesAtEnd node.kind = true) :
    writes options node .leave run.state ≠ [] := by
  cases hrule with
  | leaveTable hkind hbuffer hlayout =>
      simp [writes, hkind, hbuffer, Troff.table, hlayout, Except.map, Troff.tableDisplay,
        Troff.display]
  | leaveList hkind => simp [writes, hkind]
  | leaveSection hkind hfront => simp [writes, hkind, hfront]
  | @leaveFrontMatter block pieces hkind hfront hblock hrequests =>
      simpa [writes, hkind, hfront, hblock, hrequests] using
        Troff.requests_titleBlock_ne_nil hrequests
  | plain hplain =>
      obtain ⟨-, hlist, htable, hheading, -⟩ := kind_of_plainPieces hplain
      unfold writesAtEnd at hkind
      split at hkind <;> simp_all
  | mark hmark =>
      rcases kind_of_tableMark hmark with ⟨hother, -⟩ | ⟨hother, -⟩ <;>
        simp [writesAtEnd, hother] at hkind
  | image hother | payload hother | emptyText hother | bufferedText hother | writtenText hother =>
      simp [writesAtEnd, hother] at hkind

theorem writes_item_ne_nil (hrule : Visited load options run node .enter (.ok step) after)
    (hkind : node.kind = .listItem) : writes options node .enter run.state ≠ [] := by
  cases hrule with
  | enterItem _ hcounters => simp [writes, hkind, hcounters]
  | plain hplain => simp [plainPieces, hkind] at hplain
  | image hother | payload hother | emptyText hother | bufferedText hother | writtenText hother
  | enterTable hother | enterList hother | repeatedFrontMatter hother | enterFrontMatter hother
  | enterSection hother =>
      rw [hkind] at hother
      cases hother

/-- A visit that writes nothing is of a node that is kept in tables or passed over, unless it
enters a node that writes when it is left or leaves an item. -/
theorem Visited.kept_of_writes_nil
    (hrule : Visited load options run node phase (.ok step) after)
    (hnothing : writes options node phase run.state = []) :
    (keptInTable node.kind = true ∨ step = .skipChildren) ∨
      (phase = .enter ∧ step = .next ∧ node.kind.isLeaf = false ∧ writesAtEnd node.kind = true) ∨
      (phase = .leave ∧ node.kind = .listItem) := by
  have hleave : phase = .leave → writesAtEnd node.kind = false := by
    rintro rfl
    rw [← Bool.not_eq_true]
    exact fun hkind => writes_leave_ne_nil hrule hkind hnothing
  cases hrule with
  | plain hplain =>
      rw [writes_of_plain hplain] at hnothing
      subst hnothing
      unfold plainPieces at hplain
      split at hplain <;> simp_all [keptInTable, Troff.codeBlock]
  | image | repeatedFrontMatter => exact .inl (.inr rfl)
  | payload hkind | emptyText hkind | bufferedText hkind | writtenText hkind =>
      exact .inl (.inl (by rw [hkind]; rfl))
  | mark hmark =>
      rcases kind_of_tableMark hmark with ⟨hkind, -⟩ | ⟨hkind, -⟩ <;>
        exact .inl (.inl (by rw [hkind]; rfl))
  | enterTable hkind | enterList hkind | enterFrontMatter hkind =>
      exact .inr (.inl ⟨rfl, rfl, by rw [hkind]; rfl, by rw [hkind]; rfl⟩)
  | leaveTable hkind | leaveList hkind | leaveSection hkind | leaveFrontMatter hkind =>
      simp [hkind, writesAtEnd] at hleave
  | enterItem hkind hcounters => simp [writes, hkind, hcounters] at hnothing
  | enterSection hkind hfront => simp [writes, hkind, hfront] at hnothing

/-- While a table is open, a node that is kept in tables or passed over writes nothing. -/
theorem Visited.writes_nil_of_kept
    (hrule : Visited load options run node phase (.ok step) after)
    (hopen : run.state.tableBuffer.isSome = true)
    (hkept : keptInTable node.kind = true ∨ step = .skipChildren) :
    writes options node phase run.state = [] := by
  rcases hkept with hkept | rfl
  · unfold keptInTable at hkept
    split at hkept <;> rename_i hkind <;> cases phase <;>
      simp_all [writes, plainPieces]
  · cases hrule with
    | image hkind => simp [writes, hkind, plainPieces]
    | repeatedFrontMatter hkind hfront => simp [writes, hkind, hfront]

end

section

variable {load : Loader} {options : Options} {root : Node} {start : Run}
  {entered left : Visit RenderError Run} {inside earlier : History RenderError Run}

/-- If nothing is written between entering and leaving a node, all that is visited in between is
kept in tables or passed over. -/
theorem kept_of_output_nil
    (hspans : Spans (historyOf (visitWith load options) root start) entered inside left earlier)
    (hnothing : ∀ v ∈ inside, writes options v.node v.phase v.before.state = []) :
    ∀ v ∈ inside, keptInTable v.node.kind = true ∨ v.answer = .ok .skipChildren := by
  obtain ⟨_, hunderway⟩ := (makes_of_suffix hspans.suffix).underway
  have hran : ∀ v ∈ inside, ∃ step after, v.answer = .ok step ∧
      Visited load options v.before v.node v.phase (.ok step) after := by
    intro v hmem
    obtain ⟨step, after, hanswer, hrun⟩ := hunderway.ran (List.mem_append_left _ hmem)
    exact ⟨step, after, hanswer, visited hrun⟩
  -- Whoever writes when it is left is not left here, and so is not opened here either.
  have hnoleave : inside.countP (fun v => decide (v.phase = .leave) && writesAtEnd v.node.kind) =
      0 := by
    refine List.countP_eq_zero.mpr fun v hmem hleaves => ?_
    simp only [Bool.and_eq_true, decide_eq_true_eq] at hleaves
    obtain ⟨step, after, -, hrule⟩ := hran v hmem
    rw [hleaves.1] at hrule
    exact writes_leave_ne_nil hrule hleaves.2 (hleaves.1 ▸ hnothing v hmem)
  have hnoopen := hspans.countP_opens_eq_countP_leaves (writesAtEnd ·.kind)
  rw [hnoleave, List.countP_eq_zero] at hnoopen
  -- No item is opened here, and so none is left here either.
  have hnoitem : inside.countP (fun v => v.opens && decide (v.node.kind = .listItem)) = 0 := by
    refine List.countP_eq_zero.mpr fun v hmem hitem => ?_
    simp only [Bool.and_eq_true, decide_eq_true_eq] at hitem
    obtain ⟨step, after, -, hrule⟩ := hran v hmem
    have henter := Visit.enter_of_opens hitem.1
    rw [henter] at hrule
    exact writes_item_ne_nil hrule hitem.2 (henter ▸ hnothing v hmem)
  have hnoexit := hspans.countP_opens_eq_countP_leaves (decide <| ·.kind = .listItem)
  rw [hnoitem, eq_comm, List.countP_eq_zero] at hnoexit
  intro v hmem
  obtain ⟨step, after, hanswer, hrule⟩ := hran v hmem
  rcases hrule.kept_of_writes_nil (hnothing v hmem) with hkept | ⟨henter, rfl, hleaf, hend⟩ | hitem
  · rw [hanswer]
    simpa using hkept
  · exact absurd (by simp [Visit.opens, henter, hanswer, hleaf, hend]) (hnoopen v hmem)
  · exact absurd (by simp [hitem]) (hnoexit v hmem)

/-- If all that is visited while a table is open is kept in tables or passed over, nothing is
written in the meantime. -/
theorem output_nil_of_kept
    (hspans : Spans (historyOf (visitWith load options) root (Renderer.start options)) entered
      inside left earlier)
    (hkind : entered.node.kind = .table)
    (hkept : ∀ v ∈ inside, keptInTable v.node.kind = true ∨ v.answer = .ok .skipChildren) :
    ∀ v ∈ inside, writes options v.node v.phase v.before.state = [] := by
  intro v hmem
  obtain ⟨later, before, hinside⟩ := List.append_of_mem hmem
  obtain ⟨_, hunderway⟩ := (makes_of_suffix (hspans.suffix_inside hinside)).underway
  have hopen : v.before.state.tableBuffer.isSome = true := by
    refine (remembers_of_underway hunderway).tableBuffer.mpr fun hnone => ?_
    have htable := hspans.mem_openNodes (hinside.trans (List.append_cons later v before))
    have hin : ⟨earlier.length, entered.node⟩ ∈ openOf .table (before ++ entered :: earlier) :=
      List.mem_filter.mpr ⟨htable, by simpa using hkind⟩
    rw [hnone] at hin
    cases hin
  obtain ⟨_, hleft⟩ := (makes_of_suffix hspans.suffix).underway
  obtain ⟨step, after, hanswer, hrun⟩ := hleft.ran (List.mem_append_left _ hmem)
  refine (visited hrun).writes_nil_of_kept hopen ?_
  have hkept := hkept v hmem
  rw [hanswer] at hkept
  simpa using hkept

end

/-- Nothing is written between entering and leaving a table exactly if all that is visited in
between is kept in tables or passed over. What is written there stands before the display of the
table, which holds the layout of what was buffered. -/
theorem table_output_kept_iff (load : Loader) (renderer : Renderer) (root : Node)
    (entered left : Visit RenderError Run) (inside earlier : History RenderError Run)
    (hspans : Spans (renderer.historyWith load root) entered inside left earlier)
    (hkind : entered.node.kind = .table) :
    (left.before.written = entered.before.written ↔
      ∀ v ∈ inside, keptInTable v.node.kind = true ∨ v.answer = .ok .skipChildren) ∧
    (left.answer = .ok .next → ∃ buffer layout after,
      left.before.state.tableBuffer = some buffer ∧ Table.layout buffer = .ok layout ∧
        (visitWith load renderer.options left.node .leave).runFrom left.before =
          (.ok .next, after) ∧
        after.written.toList = entered.before.written.toList ++
          outputOf renderer.options inside ++ Troff.tableDisplay layout) := by
  have hentered : writes renderer.options entered.node entered.phase entered.before.state = [] := by
    have henter := Visit.enter_of_opens hspans.opens
    simp [writes, hkind, henter, plainPieces]
  have hbetween := written_between hspans.suffix
  rw [hentered, List.append_nil] at hbetween
  constructor
  · rw [← Array.toList_inj, hbetween, List.append_right_eq_self]
    constructor
    · intro hnothing
      refine kept_of_output_nil hspans fun v hmem => ?_
      exact List.flatMap_eq_nil_iff.mp hnothing v (List.mem_reverse.mpr hmem)
    · intro hkept
      refine List.flatMap_eq_nil_iff.mpr fun v hmem => ?_
      exact output_nil_of_kept hspans hkind hkept v (List.mem_reverse.mp hmem)
  · intro hanswer
    have hnode := hspans.node_eq
    have hanswered := (makes_of_suffix hspans.suffix).answer
    rw [hspans.leave, hanswer] at hanswered
    obtain ⟨after, hrun⟩ : ∃ after, (visitWith load renderer.options left.node .leave).runFrom
        left.before = (.ok .next, after) := ⟨_, Prod.ext hanswered rfl⟩
    have hrule := visited hrun
    rw [hnode] at hrule
    cases hrule with
    | @leaveTable buffer layout _ hbuffer hlayout =>
        exact ⟨buffer, layout, _, hbuffer, hlayout, hrun, by rw [Run.written_add]; simp [hbetween]⟩
    | plain hplain => simp [plainPieces, hkind] at hplain
    | mark hmark => simp [tableMark, hkind] at hmark
    | payload hother | emptyText hother | bufferedText hother | writtenText hother
    | leaveList hother | leaveSection hother | leaveFrontMatter hother =>
        rw [hkind] at hother
        cases hother

/-- A cell of a text, a link and a span of markup, all of which stay in the table. -/
def linkedCell : Node where
  kind := .table
  children := [
    { kind := .tableRow
      children := [
        { kind := .tableCell
          children := [
            { kind := .text, literal := "a" },
            { kind := .link, children := [{ kind := .text, literal := "b" }] },
            { kind := .htmlSpan, literal := "<br>" }] }] }]

unseal Table.layOut in
/-- While the table with this cell is open, nothing is written. -/
theorem linked_cell_kept :
    ∃ entered inside left,
      Spans (Renderer.historyWith FrontMatter.load {} linkedCell) entered inside left [] ∧
      entered.node.kind = .table ∧ inside.length = 9 ∧
      left.before.written = entered.before.written := by
  cases hmade : Renderer.historyWith FrontMatter.load {} linkedCell with
  | nil =>
      rw [Renderer.historyWith, historyOf_eq_descend] at hmade
      cases hmade
  | cons left rest =>
      have hfacts : rest.dropLast ++ [rest.getLastD left] = rest ∧ left.phase = .leave ∧
          openNodes rest = [⟨0, (rest.getLastD left).node⟩] := by
        rw [Renderer.historyWith, historyOf_eq_descend] at hmade
        cases hmade
        exact ⟨rfl, rfl, rfl⟩
      obtain ⟨hrest, hleave, hopen⟩ := hfacts
      have hspans : Spans (Renderer.historyWith FrontMatter.load {} linkedCell)
          (rest.getLastD left) rest.dropLast left [] := by
        refine ⟨⟨[], ?_⟩, hleave, ?_⟩
        · rw [hrest, hmade, List.nil_append]
        · rw [hrest]
          exact hopen
      have hkinds : (rest.getLastD left).node.kind = .table ∧ rest.dropLast.length = 9 ∧
          ∀ v ∈ rest.dropLast, keptInTable v.node.kind = true := by
        clear hrest hleave hopen hspans
        rw [Renderer.historyWith, historyOf_eq_descend] at hmade
        cases hmade
        decide
      obtain ⟨hkind, hlength, hkept⟩ := hkinds
      obtain ⟨hiff, -⟩ := table_output_kept_iff FrontMatter.load {} linkedCell _ left _ [] hspans
        hkind
      rw [← hmade]
      exact ⟨_, _, left, hspans, hkind, hlength, hiff.mpr fun v hmem => .inl (hkept v hmem)⟩

/-- The smallest table with emphasis. -/
def styledCell : Node where
  kind := .document
  children := [
    { kind := .table
      children := [
        { kind := .tableRow
          children := [
            { kind := .tableCell
              children := [
                { kind := .emphasis, children := [{ kind := .text, literal := "x" }] }] }] }] }]

unseal Table.layOut in
/-- Emphasis in a cell is written ahead of the display of the table. -/
theorem emphasis_written_past_table :
    (Renderer.renderWith FrontMatter.load {} styledCell).result = .ok () ∧
    Troff.textOf (Renderer.renderWith FrontMatter.load {} styledCell).written =
      ".I\n\n.R\n.DS\n.TS H\nx    \n.TH\n.TE\n.DE\n.SG\n" ∧
    ∃ entered inside left earlier,
      Spans (Renderer.historyWith FrontMatter.load {} styledCell) entered inside left earlier ∧
      entered.node.kind = .table ∧ Troff.textOf entered.before.written.toList = "" ∧
      Troff.textOf left.before.written.toList = ".I\n\n.R\n" := by
  refine ⟨?_, ?_, ?_⟩
  · rw [Renderer.renderWith, Renderer.document, walk_eq_descend]
    rfl
  · rw [Renderer.renderWith, Renderer.document, walk_eq_descend]
    decide +kernel
  · cases hmade : (Renderer.historyWith FrontMatter.load {} styledCell).drop 1 with
    | nil =>
        rw [Renderer.historyWith, historyOf_eq_descend] at hmade
        cases hmade
    | cons left rest =>
        have hsuffix : left :: rest <:+ Renderer.historyWith FrontMatter.load {} styledCell := by
          rw [← hmade]
          exact List.drop_suffix _ _
        have hleave : left.phase = .leave ∧ left.node.kind = .table ∧
            Troff.textOf left.before.written.toList = ".I\n\n.R\n" ∧
            ∀ v ∈ rest, v.node.kind = .table → v.before.written = #[] := by
          rw [Renderer.historyWith, historyOf_eq_descend] at hmade
          cases hmade
          decide
        obtain ⟨hphase, htable, htext, hempty⟩ := hleave
        obtain ⟨entered, inside, earlier, rfl, hspans⟩ := exists_spans hsuffix hphase
        have hkind : entered.node.kind = .table := by
          rw [← hspans.node_eq]
          exact htable
        have hstart := hempty entered (List.mem_append_right _ List.mem_cons_self) hkind
        exact ⟨entered, inside, left, earlier, hspans, hkind, by rw [hstart]; rfl, htext⟩

end Manuscript.Render
