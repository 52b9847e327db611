import Manuscript.Document.Build
import Manuscript.Proofs.Render.LineKept
import Manuscript.Proofs.Render.Styles

/-! # Requests at the start of a line

A request acts only at the start of a line. In a tree of blocks every request is
written there, but for those that entering emphasis writes
(`requests_start_lines`).
-/

namespace Manuscript.Render

open Troff (Piece Line lineOf AtLineStart)

section

variable {load : Loader} {options : Options} {root node : Node} {start run after : Run}
  {rest pending : Pending} {history : History RenderError Run} {phase : Phase} {step : Step}

theorem not_opened_before_enter (hshape : BlockShaped options root)
    (hkept : LineKept options ((node, .enter) :: rest) history run)
    (hunderway : Underway (visitWith load options) root start ((node, .enter) :: rest) history run)
    (hinline : isInline node.kind = false) : lineOf run.written.toList ≠ .opened :=
  (Troff.atLineStart_iff _).mp (hkept.before hshape hunderway hinline)

theorem not_opened_before_leave (hshape : BlockShaped options root)
    (hkept : LineKept options ((node, .leave) :: rest) history run)
    (hunderway : Underway (visitWith load options) root start ((node, .leave) :: rest) history run)
    (hflow : isFlowing options node = false) : lineOf run.written.toList ≠ .opened :=
  (Troff.atLineStart_iff _).mp (hkept.before hshape hunderway hflow)

/-- Nodes of leaf kinds are only entered. -/
theorem enters_of_isLeaf
    (hunderway : Underway (visitWith load options) root start ((node, phase) :: rest) history run)
    (hleaf : node.kind.isLeaf = true) : phase = .enter := by
  cases phase with
  | enter => rfl
  | leave =>
      rw [hunderway.isLeaf_of_leave] at hleaf
      cases hleaf

/-- Requests that need nothing of what is remembered start their lines: they are written at the
start of a block, or after the end of a line. -/
theorem startLines_plain (hshape : BlockShaped options root)
    (hkept : LineKept options ((node, phase) :: rest) history run)
    (hunderway : Underway (visitWith load options) root start ((node, phase) :: rest) history run)
    {pieces : List Piece} (hplain : plainPieces node phase = some pieces)
    (hstyle : isStyle node.kind = false ∨ phase = .leave) :
    Troff.StartLines (lineOf run.written.toList) pieces := by
  obtain ⟨outer, hreaches, -⟩ := hunderway.exists_reaches (passesOverImages load options)
  have hended (line : Line) : Line.ended.after line ≠ .opened := by simp
  have hblock (hleaf : node.kind.isLeaf = true) (hinline : isInline node.kind = false) :
      lineOf run.written.toList ≠ .opened := by
    cases enters_of_isLeaf hunderway hleaf
    exact not_opened_before_enter hshape hkept hunderway hinline
  unfold plainPieces at hplain
  split at hplain <;> cases hplain <;> rename_i hkind <;> try trivial
  next => exact ⟨hblock (by rw [hkind]; rfl) (by rw [hkind]; rfl), trivial⟩
  next => exact ⟨hended _, by decide, trivial⟩
  next =>
    have hliteral := Line.ofText_dropSpaces (hshape.literal hreaches (by simp [hkind]))
    exact ⟨hblock (by rw [hkind]; rfl) (by rw [hkind]; rfl),
      Line.after_ne_opened hliteral (by decide), trivial⟩
  all_goals first
    | exact ⟨hended _, trivial⟩
    | simp [hkind, isStyle] at hstyle

/-- The rows of a table that was assembled end their lines, so that its requests start theirs. -/
theorem startLines_table
    (hkept : LineKept options ((node, .leave) :: rest) history run)
    (hunderway : Underway (visitWith load options) root start ((node, .leave) :: rest) history run)
    (hkind : node.kind = .table) {buffer : String} (hbuffer : run.state.tableBuffer = some buffer)
    {layout : Table.Layout} (hlayout : Table.layout buffer = .ok layout) :
    Troff.StartLines (lineOf run.written.toList) (Troff.tableDisplay layout) := by
  obtain ⟨outer, -, hopen⟩ := hunderway.exists_reaches (passesOverImages load options)
  have hline := hkept.inTable (by simp [hbuffer])
  have hrows := hkept.rows buffer hbuffer node (by rw [innermost, hopen]; rfl) (by simp [hkind])
  have hbody : Line.ofText layout.body ≠ .opened := by
    rw [Line.ofText_ne_opened_iff] at hrows ⊢
    exact Table.body_ended hrows hlayout
  exact Troff.startLines_tableDisplay ((Troff.atLineStart_iff _).mp hline) hbody

/-- The requests that a visit writes start their lines, but for the one that enters a style. -/
theorem startLines_writes (hshape : BlockShaped options root)
    (hkept : LineKept options ((node, phase) :: rest) history run)
    (hunderway : Underway (visitWith load options) root start ((node, phase) :: rest) history run)
    (hrule : Visited load options run node phase (.ok step) after)
    (hstyle : isStyle node.kind = false ∨ phase = .leave) :
    Troff.StartLines (lineOf run.written.toList) (writes options node phase run.state) := by
  cases hrule with
  | plain hplain =>
      rw [writes_of_plain hplain]
      exact startLines_plain hshape hkept hunderway hplain hstyle
  -- These write no request.
  | image hkind => simp [writes, hkind, plainPieces, Troff.StartLines]
  | payload hkind hconsuming => simp [writes, hkind, hconsuming, Troff.StartLines]
  | emptyText hkind hconsuming hliteral => simp [writes, hkind, hliteral, Troff.StartLines]
  | bufferedText hkind hconsuming _ hbuffer => simp [writes, hkind, hbuffer, Troff.StartLines]
  | writtenText hkind hconsuming hliteral hbuffer =>
      simp [writes, hkind, hconsuming, hliteral, hbuffer, Troff.StartLines]
  | enterTable hkind => simp [writes, hkind, plainPieces, Troff.StartLines]
  | mark hmark =>
      rcases kind_of_tableMark hmark with ⟨hkind, -⟩ | ⟨hkind, -⟩ <;>
        simp [writes, hkind, plainPieces, Troff.StartLines]
  | repeatedFrontMatter hkind hfront => simp [writes, hkind, hfront, Troff.StartLines]
  | enterFrontMatter hkind hfront => simp [writes, hkind, hfront, Troff.StartLines]
  | leaveSection hkind hfront =>
      simp only [writes, hkind, hfront]
      trivial
  -- These write requests at the start or at the end of a block.
  | leaveTable hkind hbuffer hlayout =>
      have htable := startLines_table hkept hunderway hkind hbuffer hlayout
      simpa only [writes, hkind, hbuffer, Option.map_some, Troff.table, hlayout, Except.map]
        using htable
  | enterList hkind =>
      have hline := not_opened_before_enter hshape hkept hunderway (by rw [hkind]; rfl)
      simp only [writes, hkind]
      split
      · trivial
      · exact ⟨hline, trivial⟩
  | leaveList hkind =>
      have hline := not_opened_before_leave hshape hkept hunderway
        (by simp [isFlowing, holdsText, hkind])
      simp only [writes, hkind]
      exact ⟨hline, trivial⟩
  | enterItem hkind hcounters =>
      have hline := not_opened_before_enter hshape hkept hunderway (by rw [hkind]; rfl)
      simp only [writes, hkind, hcounters]
      exact ⟨hline, trivial⟩
  | enterSection hkind hfront =>
      have hline := not_opened_before_enter hshape hkept hunderway (by rw [hkind]; rfl)
      simp only [writes, hkind, hfront]
      exact ⟨hline, trivial⟩
  | leaveFrontMatter hkind hfront hblock =>
      have hline := not_opened_before_leave hshape hkept hunderway
        (by simp [isFlowing, carriesFrontMatter, hkind, hfront])
      simp only [writes, hkind, hfront, hblock]
      exact Troff.startLines_drafts hline _

end

/-- At every moment of a rendering, each request that has been written starts a line or is that of a
style. -/
theorem starts_line_or_style {load : Loader} {options : Options} {root : Node} {run : Run}
    {pending : Pending} {history : History RenderError Run} (hshape : BlockShaped options root)
    (hpreamble : Line.ofText options.preamble ≠ .opened)
    (hunderway : Underway (visitWith load options) root (Renderer.start options) pending history
      run)
    {before after : List Piece} {request : Troff.Request}
    (hwritten : run.written.toList = before ++ .request request :: after) :
    AtLineStart before ∨
      ∃ v earlier, v :: earlier <:+ history ∧ isStyle v.node.kind = true ∧ v.phase = .enter ∧
        before = v.before.written.toList ∧ .request request = styleRequest v.node.kind := by
  rcases exists_visit_of_written hunderway hwritten with hpreamble |
    ⟨v, earlier, first, second, hvisit, rfl, hwrites⟩
  · -- The preamble is no request.
    rw [Renderer.start_written] at hpreamble
    split at hpreamble <;> simp at hpreamble
  · obtain ⟨rest, hmade⟩ := (makes_of_suffix (hvisit.trans hunderway.suffix_historyOf)).underway
    obtain ⟨step, left, -, hrun⟩ := hunderway.ran (hvisit.subset List.mem_cons_self)
    by_cases henters : isStyle v.node.kind = true ∧ v.phase = .enter
    · obtain ⟨hstyle, henter⟩ := henters
      right
      rw [henter, writes_of_plain (plainPieces_enter_style hstyle)] at hwrites
      cases first with
      | nil =>
          obtain ⟨hrequest, -⟩ := List.cons.inj hwrites
          exact ⟨v, earlier, hvisit, hstyle, henter, List.append_nil _, hrequest.symm⟩
      | cons other others => simp at hwrites
    · left
      have hstyle : isStyle v.node.kind = false ∨ v.phase = .leave := by
        cases hphase : v.phase <;> simp_all
      have hstart := startLines_writes hshape (lineKept_of_underway hshape hpreamble hmade) hmade
        (visited hrun) hstyle
      rw [hwrites] at hstart
      rw [Troff.atLineStart_iff, Troff.lineOf_append]
      exact hstart.before

/-- In a tree of blocks without literals that leave a line open, every request is written at the
start of a line, but for those that entering a style writes. -/
theorem requests_start_lines (load : Loader) (renderer : Renderer) (root : Node)
    (hshape : BlockShaped renderer.options root)
    (hpreamble : renderer.options.preamble = "" ∨
      renderer.options.preamble.toList.getLast? = some '\n')
    (hresult : (renderer.renderWith load root).result = .ok ()) :
    ∀ before request after,
      (renderer.renderWith load root).written = before ++ .request request :: after →
      AtLineStart before ∨
        ∃ v earlier, v :: earlier <:+ renderer.historyWith load root ∧
          isStyle v.node.kind = true ∧ v.phase = .enter ∧ before = v.before.written.toList ∧
          .request request = styleRequest v.node.kind := by
  intro before request after hwritten
  rw [← Line.ofText_ne_opened_iff] at hpreamble
  obtain ⟨final, hwalk, -⟩ := Renderer.walk_of_renderWith_ok hresult
  have hunderway := underway_historyOf hwalk
  have hfinal := lineKept_of_underway hshape hpreamble hunderway
  have hend : AtLineStart final.written.toList := by
    apply hfinal.outside
    rw [innermost, hunderway.open_of_done]
    simp
  rw [Renderer.renderWith_ok hwalk] at hwritten
  rcases List.append_eq_append_iff.mp hwritten with ⟨others, rfl, hsignature⟩ |
    ⟨others, hwritten, hpiece⟩
  · -- This is the request that ends the document.
    obtain ⟨rfl, -⟩ : others = [] ∧ after = [] := by
      cases others <;> simp_all
    rw [List.append_nil]
    exact .inl hend
  · cases others with
    | nil =>
        rw [List.append_nil] at hwritten
        rw [hwritten] at hend
        exact .inl hend
    | cons other others =>
        obtain ⟨rfl, -⟩ := List.cons.inj hpiece
        exact starts_line_or_style hshape hpreamble hunderway hwritten

/-- Blocks of all kinds. -/
def blockSampler : Node where
  kind := .document
  children := [
    Node.titleBlockHeading "title: T",
    { kind := .heading, children := [Node.text "a", Node.emphasis [Node.text "b"]] },
    Node.list [
      Node.listItem [Node.paragraph [Node.codeSpan "c"], Node.codeBlock "  d\n"],
      Node.listItem [Node.list [Node.listItem [Node.htmlBlock "e"]]]],
    Node.blockQuote [
      { kind := .table
        children := [
          Node.tableHead [Node.tableRow [Node.tableCell [Node.strong [Node.text "f"]]]],
          Node.tableBody [Node.tableRow [Node.tableCell [Node.text "g"]]]] }]]

/-- In the rendering of the sampler, all requests but those of its two styles start a line. -/
theorem requests_start_lines_in_sampler :
    BlockShaped {} blockSampler ∧
    (Renderer.renderWith (fun _ => .ok {}) {} blockSampler).result = .ok () ∧
    ∀ before request after,
      (Renderer.renderWith (fun _ => .ok {}) {} blockSampler).written =
        before ++ .request request :: after →
      AtLineStart before ∨
        ∃ v earlier, v :: earlier <:+ Renderer.historyWith (fun _ => .ok {}) {} blockSampler ∧
          isStyle v.node.kind = true ∧ v.phase = .enter ∧ before = v.before.written.toList ∧
          .request request = styleRequest v.node.kind := by
  have hshape : BlockShaped {} blockSampler := by
    constructor <;> decide
  have hok : (Renderer.renderWith (fun _ => .ok {}) {} blockSampler).result.toBool = true := by
    rw [Renderer.renderWith, Renderer.document, walk_eq_descend]
    decide +kernel
  have hresult : (Renderer.renderWith (fun _ => .ok {}) {} blockSampler).result = .ok () := by
    cases hresult : (Renderer.renderWith (fun _ => .ok {}) {} blockSampler).result with
    | ok => rfl
    | error e =>
        rw [hresult] at hok
        cases hok
  exact ⟨hshape, hresult,
    requests_start_lines (fun _ => .ok {}) {} blockSampler hshape (.inl rfl) hresult⟩

end Manuscript.Render
