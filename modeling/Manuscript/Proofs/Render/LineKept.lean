import Manuscript.Proofs.Render.LineStart
import Manuscript.Proofs.Render.TitleStage
import Manuscript.Proofs.Table.Lines

/-! # Lines in trees of blocks

In a tree of blocks only text can leave a line open, and text flows only in a few
kinds of nodes. Outside of these, and anywhere in a table, output is at the start
of a line whenever a visit is to be made (`lineKept_of_underway`).
-/

namespace Manuscript.Render

open Troff (Piece Line lineOf AtLineStart)

/-- The kinds of nodes that text flows in. -/
def holdsText : Kind → Bool
  | .paragraph | .heading | .tableCell | .emphasis | .strong | .link => true
  | _ => false

/-- Text flows in a node and is not taken for front matter. -/
def isFlowing (options : Options) (node : Node) : Bool :=
  holdsText node.kind && !carriesFrontMatter options node

/-- Whether a node of one kind may have a child of another. What leaves and images hold is never
visited. -/
def nests : Kind → Kind → Bool
  | .document, child | .blockQuote, child | .listItem, child => isBlock child
  | .list, child => child == .listItem
  | .table, child => child == .tableHead || child == .tableBody || child == .tableRow
  | .tableHead, child | .tableBody, child => child == .tableRow
  | .tableRow, child => child == .tableCell
  | .other _, _ => false
  | parent, child => !holdsText parent || isInline child

/-- A tree of blocks. No literal of a block leaves a line open, and a heading of front matter holds
a single text. -/
structure BlockShaped (options : Options) (root : Node) : Prop where
  top : root.kind = .document ∨ isBlock root.kind = true
  nesting : ∀ parent ∈ root.reached, ∀ child ∈ parent.children, nests parent.kind child.kind = true
  literals : ∀ node ∈ root.reached, node.kind ∈ [Kind.paragraph, .blockQuote, .codeBlock] →
    Line.ofText node.literal ≠ .opened
  frontMatter : ∀ heading ∈ root.reached, carriesFrontMatter options heading = true →
    heading.children.map Node.kind = [.text]

/-- The node that was opened last of those that are open. -/
def innermost {ε σ : Type} (history : History ε σ) : Option Node :=
  ((openNodes history).map OpenNode.node).head?

/-- Where output stands while a tree of blocks is rendered: at the start of a line where no text
flows and everywhere in a table. What is buffered between the rows of a table ends with the end of a
row, and the text of front matter is the only one in its heading. -/
structure LineKept (options : Options) (pending : Pending) (history : History RenderError Run)
    (run : Run) : Prop where
  outside : (∀ inner ∈ innermost history, isFlowing options inner = false) →
    AtLineStart run.written.toList
  inTable : run.state.tableBuffer.isSome → AtLineStart run.written.toList
  rows : ∀ buffer, run.state.tableBuffer = some buffer →
    ∀ inner ∈ innermost history, inner.kind ∈ [.table, .tableHead, .tableBody] →
      Line.ofText buffer ≠ .opened
  payload : ∀ inner ∈ innermost history, carriesFrontMatter options inner = true →
    (∃ rest, pending = (inner, .leave) :: rest) ∨
      run.state.consumingFrontMatter = true ∧
        ∃ text rest, text.kind = .text ∧ pending = (text, .enter) :: (inner, .leave) :: rest

/-! ## Shapes -/

section

variable {options : Options} {root node : Node} {outer : List Node} {parent child : Kind}

theorem isInline_of_isBlock (hblock : isBlock child = true) : isInline child = false := by
  unfold isBlock at hblock
  split at hblock <;> first | rfl | cases hblock

theorem isInline_of_nests (hnests : nests parent child = true) (hholds : holdsText parent = true) :
    isInline child = true := by
  unfold holdsText at hholds
  split at hholds <;> simp_all [nests, holdsText]

/-- Inlines stand where text flows, or below leaves and images. -/
theorem holdsText_of_nests (hnests : nests parent child = true) (hinline : isInline child = true)
    (hleaf : parent.isLeaf = false) (himage : parent ≠ .image) : holdsText parent = true := by
  have hpart : ∀ part, isInline part = false → child ≠ part := by
    rintro part hpart rfl
    rw [hpart] at hinline
    cases hinline
  have hblock : isBlock child = false := by
    cases hblock : isBlock child with
    | false => rfl
    | true =>
        rw [isInline_of_isBlock hblock] at hinline
        cases hinline
  cases parent
  case image => exact absurd rfl himage
  all_goals first
    | rfl
    | (cases hleaf; done)
    | simp [nests, hblock, hpart .listItem rfl, hpart .tableHead rfl, hpart .tableBody rfl,
        hpart .tableRow rfl, hpart .tableCell rfl] at hnests

/-- What a table holds directly and in its parts. -/
theorem kind_of_nests_rows (hnests : nests parent child = true)
    (hparent : parent ∈ [Kind.table, .tableHead, .tableBody]) :
    child ∈ [Kind.tableHead, .tableBody, .tableRow] := by
  simp only [List.mem_cons, List.not_mem_nil, or_false] at hparent
  rcases hparent with rfl | rfl | rfl <;> simp_all [nests, or_assoc]

/-- The parts of tables stand in tables. -/
theorem parent_of_section (hnests : nests parent child = true)
    (hchild : child = .tableHead ∨ child = .tableBody) (hleaf : parent.isLeaf = false)
    (himage : parent ≠ .image) : parent = .table := by
  rcases hchild with rfl | rfl <;>
    cases parent <;> first | rfl | (cases hleaf; done) | exact absurd rfl himage | cases hnests

/-- What a tree of blocks says about a node that is below others. -/
theorem BlockShaped.root_or_parent (hshape : BlockShaped options root)
    (hreaches : Reaches [] root outer node) :
    outer = [] ∧ node = root ∨ ∃ parent others, outer = parent :: others ∧
      nests parent.kind node.kind = true ∧ parent.kind.isLeaf = false ∧ parent.kind ≠ .image ∧
      (carriesFrontMatter options parent = true → node.kind = .text) := by
  rcases hreaches.here_or_below with ⟨rfl, rfl⟩ |
    ⟨parent, others, rfl, hmem, hparent, hleaf, himage⟩
  · exact .inl ⟨rfl, rfl⟩
  · have hreached : parent ∈ root.reached := (mem_reached_iff []).mpr ⟨others, hparent⟩
    refine .inr ⟨parent, others, rfl, hshape.nesting parent hreached node hmem, hleaf, himage, ?_⟩
    intro hcarries
    have hkinds := hshape.frontMatter parent hreached hcarries
    have hkind : node.kind ∈ parent.children.map Node.kind := List.mem_map_of_mem hmem
    rw [hkinds, List.mem_singleton] at hkind
    exact hkind

theorem BlockShaped.of_head (hshape : BlockShaped options root)
    (hreaches : Reaches [] root outer node) {parent : Node} (hhead : outer.head? = some parent) :
    nests parent.kind node.kind = true ∧
      (carriesFrontMatter options parent = true → node.kind = .text) := by
  rcases hshape.root_or_parent hreaches with ⟨rfl, -⟩ | ⟨_, others, rfl, hnests, -, -, htext⟩
  · cases hhead
  · cases hhead
    exact ⟨hnests, htext⟩

theorem BlockShaped.not_inline (hshape : BlockShaped options root) :
    isInline root.kind = false := by
  rcases hshape.top with hkind | hblock
  · rw [hkind]
    rfl
  · exact isInline_of_isBlock hblock

/-- Only inlines stand where text flows. -/
theorem BlockShaped.outside_of_not_inline (hshape : BlockShaped options root)
    (hreaches : Reaches [] root outer node) (hinline : isInline node.kind = false) :
    ∀ parent ∈ outer.head?, isFlowing options parent = false := by
  rcases hshape.root_or_parent hreaches with ⟨rfl, -⟩ | ⟨parent, others, rfl, hnests, -⟩
  · simp
  · cases hholds : holdsText parent.kind with
    | false => simp [isFlowing, hholds]
    | true =>
        rw [isInline_of_nests hnests hholds] at hinline
        cases hinline

/-- An inline stands where text flows, or it is the text of front matter. -/
theorem BlockShaped.payload_of_inline (hshape : BlockShaped options root)
    (hreaches : Reaches [] root outer node) (hinline : isInline node.kind = true)
    (houtside : ∀ parent ∈ outer.head?, isFlowing options parent = false) :
    ∃ parent, outer.head? = some parent ∧ carriesFrontMatter options parent = true ∧
      node.kind = .text := by
  rcases hshape.root_or_parent hreaches with ⟨-, rfl⟩ |
    ⟨parent, others, rfl, hnests, hleaf, himage, htext⟩
  · rw [hshape.not_inline] at hinline
    cases hinline
  · have hholds := holdsText_of_nests hnests hinline hleaf himage
    have hcarries : carriesFrontMatter options parent = true := by
      simpa [isFlowing, hholds] using houtside parent rfl
    exact ⟨parent, rfl, hcarries, htext hcarries⟩

end

/-! ## Where visits leave output -/

section

variable {load : Loader} {options : Options} {root node : Node} {start run after : Run}
  {rest pending : Pending} {history : History RenderError Run} {phase : Phase} {step : Step}

/-- Literals of blocks end their lines. -/
theorem BlockShaped.literal (hshape : BlockShaped options root) {outer : List Node}
    (hreaches : Reaches [] root outer node)
    (hkind : node.kind ∈ [Kind.paragraph, .blockQuote, .codeBlock]) :
    Line.ofText node.literal ≠ .opened :=
  hshape.literals node ((mem_reached_iff []).mpr ⟨outer, hreaches⟩) hkind

/-- Only a text that is neither taken for front matter nor buffered may leave a line open. -/
theorem lineAfter_ne_opened (hshape : BlockShaped options root) {outer : List Node}
    (hreaches : Reaches [] root outer node) {state : State}
    (htext : node.kind = .text → state.consumingFrontMatter = true ∨ state.tableBuffer.isSome) :
    lineAfter options node phase state ≠ .opened := by
  unfold lineAfter
  split <;> first | decide | skip
  next hkind =>
    have hsilent : (state.consumingFrontMatter || state.tableBuffer.isSome) = true := by
      simpa using htext hkind
    rw [if_pos hsilent]
    decide
  next hkind =>
    exact Line.after_ne_opened (hshape.literal hreaches (by simp [hkind])) (by decide)
  next hkind =>
    exact Line.after_ne_opened (hshape.literal hreaches (by simp [hkind])) (by decide)
  all_goals split <;> decide

/-- A block that starts at the start of a line also ends there. -/
theorem atLineStart_after (hshape : BlockShaped options root) {outer : List Node}
    (hreaches : Reaches [] root outer node)
    (hrule : Visited load options run node phase (.ok step) after)
    (hstart : AtLineStart run.written.toList)
    (htext : node.kind = .text →
      run.state.consumingFrontMatter = true ∨ run.state.tableBuffer.isSome) :
    AtLineStart after.written.toList := by
  rw [Troff.atLineStart_iff] at hstart ⊢
  rw [hrule.lineOf_eq]
  exact Line.after_ne_opened (lineAfter_ne_opened hshape hreaches htext) hstart

/-- How a visit changes the buffer. -/
theorem Visited.buffer_cases (hrule : Visited load options run node phase (.ok step) after)
    {buffer : String} (hbuffer : after.state.tableBuffer = some buffer) :
    (node.kind = .table ∧ phase = .enter ∧ buffer = "") ∨
      ∃ before, run.state.tableBuffer = some before ∧
        (node.kind = .text ∨
          (∃ mark, phase = .leave ∧ tableMark node.kind = some mark ∧ buffer = before ++ mark) ∨
          buffer = before ∧ node.kind ≠ .table ∧
            (tableMark node.kind = none ∨ phase = .enter)) := by
  cases hrule with
  | enterTable hkind =>
      cases hbuffer
      exact .inl ⟨hkind, rfl, rfl⟩
  | leaveTable => cases hbuffer
  | mark hmark hbefore =>
      cases hbuffer
      exact .inr ⟨_, hbefore, .inr (.inl ⟨_, rfl, hmark, rfl⟩)⟩
  | bufferedText hkind _ _ hbefore => exact .inr ⟨_, hbefore, .inl hkind⟩
  | payload hkind | emptyText hkind | writtenText hkind => exact .inr ⟨_, hbuffer, .inl hkind⟩
  | plain hplain =>
      obtain ⟨-, -, htable, -⟩ := kind_of_plainPieces hplain
      refine .inr ⟨_, hbuffer, .inr (.inr ⟨rfl, htable, ?_⟩)⟩
      cases phase with
      | enter => exact .inr rfl
      | leave =>
          left
          unfold tableMark
          split <;> rename_i hkind <;> simp [plainPieces, hkind] at hplain ⊢
  | image hkind | enterList hkind | leaveList hkind | enterItem hkind | repeatedFrontMatter hkind
  | enterFrontMatter hkind | enterSection hkind | leaveSection hkind | leaveFrontMatter hkind =>
      exact .inr ⟨_, hbuffer, .inr (.inr ⟨rfl, by simp [hkind], .inl (by simp [tableMark, hkind])⟩)⟩

/-! ## Innermost open nodes -/

variable {outer : List Node}

theorem innermost_enter (hopen : (openNodes history).map OpenNode.node = outer) :
    innermost (⟨node, .enter, run, .ok step⟩ :: history) =
      if step = .next ∧ node.kind.isLeaf = false then some node else outer.head? := by
  subst hopen
  cases hleaf : node.kind.isLeaf <;> cases step <;> simp [innermost, openNodes, hleaf]

theorem innermost_leave (hopen : (openNodes history).map OpenNode.node = node :: outer) :
    innermost (⟨node, .leave, run, .ok step⟩ :: history) = outer.head? := by
  rw [innermost, openNodes, List.map_tail, hopen]
  rfl

/-- The innermost open node after a visit is the one that was opened or the one around it. -/
theorem mem_innermost (hopen : (openNodes history).map OpenNode.node = openAt node outer phase)
    {inner : Node} (hinner : inner ∈ innermost (⟨node, phase, run, .ok step⟩ :: history)) :
    (phase = .enter ∧ step = .next ∧ node.kind.isLeaf = false ∧ inner = node) ∨
      outer.head? = some inner := by
  cases phase with
  | leave =>
      rw [innermost_leave hopen] at hinner
      exact .inr hinner
  | enter =>
      rw [innermost_enter hopen] at hinner
      split at hinner
      next hopened =>
        cases hinner
        exact .inl ⟨rfl, hopened.1, hopened.2, rfl⟩
      next => exact .inr hinner

theorem kind_ne_text (hleaf : node.kind.isLeaf = false) : node.kind ≠ .text := by
  intro htext
  rw [htext] at hleaf
  cases hleaf

/-- What is opened and is no place for text is no inline. -/
theorem isInline_of_opened (hleaf : node.kind.isLeaf = false) (himage : node.kind ≠ .image)
    (hflow : isFlowing options node = false) : isInline node.kind = false := by
  obtain ⟨kind, _, _, _, _, _, _⟩ := node
  cases kind <;> first
    | rfl
    | (cases hleaf; done)
    | exact absurd rfl himage
    | simp [isFlowing, holdsText, carriesFrontMatter] at hflow

/-- Leaving a node in which text flows ends the line, but for cells and links. -/
theorem lineAfter_leave_flowing (hflow : isFlowing options node = true) (state : State) :
    lineAfter options node .leave state = .ended ∨ node.kind = .tableCell ∨ node.kind = .link := by
  obtain ⟨kind, _, _, _, _, _, _⟩ := node
  cases kind <;> first
    | exact .inl rfl
    | exact .inr (.inl rfl)
    | exact .inr (.inr rfl)
    | cases hflow

/-! ## What visits keep -/

variable (hshape : BlockShaped options root)
include hshape

/-- Output is at the start of a line before a node is entered that is no inline, and before a node
is left that no text flows in. -/
theorem LineKept.before (hkept : LineKept options ((node, phase) :: rest) history run)
    (hunderway : Underway (visitWith load options) root start ((node, phase) :: rest) history run)
    (hnode : match phase with
      | .enter => isInline node.kind = false
      | .leave => isFlowing options node = false) : AtLineStart run.written.toList := by
  obtain ⟨outer, hreaches, hopen⟩ := hunderway.exists_reaches (passesOverImages load options)
  apply hkept.outside
  rw [innermost, hopen]
  cases phase with
  | enter => exact hshape.outside_of_not_inline hreaches hnode
  | leave => simpa [openAt] using hnode

/-- Entering a node leaves the output at the start of a line, unless the node holds text. -/
theorem LineKept.outside_enter (hkept : LineKept options ((node, .enter) :: rest) history run)
    (hunderway : Underway (visitWith load options) root start ((node, .enter) :: rest) history run)
    (hrule : Visited load options run node .enter (.ok step) after)
    (houtside : ∀ inner ∈ innermost (⟨node, .enter, run, .ok step⟩ :: history),
      isFlowing options inner = false) : AtLineStart after.written.toList := by
  obtain ⟨outer, hreaches, hopen⟩ := hunderway.exists_reaches (passesOverImages load options)
  rw [innermost_enter hopen] at houtside
  by_cases hopened : step = .next ∧ node.kind.isLeaf = false
  · obtain ⟨rfl, hleaf⟩ := hopened
    rw [if_pos ⟨rfl, hleaf⟩] at houtside
    have himage : node.kind ≠ .image := by
      rcases hrule.next_or_skip with ⟨-, himage, -⟩ | ⟨hskip, -⟩
      · exact himage
      · cases hskip
    have hinline := isInline_of_opened hleaf himage (houtside node rfl)
    exact atLineStart_after hshape hreaches hrule (hkept.before hshape hunderway hinline)
      fun htext => absurd htext (kind_ne_text hleaf)
  · rw [if_neg hopened] at houtside
    have hstart : AtLineStart run.written.toList := by
      apply hkept.outside
      rw [innermost, hopen]
      exact houtside
    refine atLineStart_after hshape hreaches hrule hstart ?_
    intro htext
    -- A text where no text flows is the one that is taken for front matter.
    obtain ⟨parent, hparent, hcarries, -⟩ :=
      hshape.payload_of_inline hreaches (by rw [htext]; rfl) houtside
    have hinner : parent ∈ innermost history := by
      rw [innermost, hopen]
      exact hparent
    rcases hkept.payload parent hinner hcarries with ⟨others, hpending⟩ | ⟨hconsuming, -⟩
    · cases hpending
    · exact .inl hconsuming

/-- Leaving a node leaves the output at the start of a line, unless it stands in one that holds
text. -/
theorem LineKept.outside_leave (hkept : LineKept options ((node, .leave) :: rest) history run)
    (hunderway : Underway (visitWith load options) root start ((node, .leave) :: rest) history run)
    (hrule : Visited load options run node .leave (.ok step) after)
    (houtside : ∀ inner ∈ innermost (⟨node, .leave, run, .ok step⟩ :: history),
      isFlowing options inner = false) : AtLineStart after.written.toList := by
  obtain ⟨outer, hreaches, hopen⟩ := hunderway.exists_reaches (passesOverImages load options)
  have hnottext : node.kind ≠ .text := kind_ne_text hunderway.isLeaf_of_leave
  rw [innermost_leave hopen] at houtside
  cases hflow : isFlowing options node with
  | false =>
      exact atLineStart_after hshape hreaches hrule (hkept.before hshape hunderway hflow)
        fun htext => absurd htext hnottext
  | true =>
      rcases lineAfter_leave_flowing hflow run.state with hended | hcell | hlink
      · rw [Troff.atLineStart_iff, hrule.lineOf_eq, hended, Line.ended_after]
        decide
      · have hbuffer : run.state.tableBuffer.isSome := by
          cases hrule with
          | mark _ hbuffer => simp [hbuffer]
          | plain hplain => simp [plainPieces, hcell] at hplain
          | image hother | payload hother | emptyText hother | bufferedText hother
          | writtenText hother | leaveTable hother | leaveList hother | leaveSection hother
          | leaveFrontMatter hother =>
              rw [hcell] at hother
              cases hother
        exact atLineStart_after hshape hreaches hrule (hkept.inTable hbuffer)
          fun htext => absurd htext hnottext
      · obtain ⟨-, -, -, htext⟩ :=
          hshape.payload_of_inline hreaches (by rw [hlink]; rfl) houtside
        exact absurd htext hnottext

/-- While a table is assembled, the output stays at the start of a line. -/
theorem LineKept.inTable_step (hkept : LineKept options ((node, phase) :: rest) history run)
    (hunderway : Underway (visitWith load options) root start ((node, phase) :: rest) history run)
    (hrule : Visited load options run node phase (.ok step) after)
    (hbuffer : after.state.tableBuffer.isSome) : AtLineStart after.written.toList := by
  obtain ⟨outer, hreaches, -⟩ := hunderway.exists_reaches (passesOverImages load options)
  obtain ⟨buffer, hbuffer⟩ := Option.isSome_iff_exists.mp hbuffer
  rcases hrule.buffer_cases hbuffer with ⟨hkind, rfl, -⟩ | ⟨before, hbefore, -⟩
  · have hinline : isInline node.kind = false := by
      rw [hkind]
      rfl
    refine atLineStart_after hshape hreaches hrule (hkept.before hshape hunderway hinline) ?_
    intro htext
    rw [hkind] at htext
    cases htext
  · have hopen : run.state.tableBuffer.isSome := by simp [hbefore]
    exact atLineStart_after hshape hreaches hrule (hkept.inTable hopen) fun _ => .inr hopen

/-- Between rows the table that is assembled ends in a whole line. -/
theorem LineKept.rows_step (hkept : LineKept options ((node, phase) :: rest) history run)
    (hunderway : Underway (visitWith load options) root start ((node, phase) :: rest) history run)
    (hrule : Visited load options run node phase (.ok step) after) {buffer : String}
    (hbuffer : after.state.tableBuffer = some buffer) {inner : Node}
    (hinner : inner ∈ innermost (⟨node, phase, run, .ok step⟩ :: history))
    (hkind : inner.kind ∈ [Kind.table, .tableHead, .tableBody]) :
    Line.ofText buffer ≠ .opened := by
  obtain ⟨outer, hreaches, hopen⟩ := hunderway.exists_reaches (passesOverImages load options)
  rcases hrule.buffer_cases hbuffer with ⟨-, -, rfl⟩ | ⟨before, hbefore, hcases⟩
  · decide
  have hkept' {above : Node} (hinside : innermost history = some above)
      (hrows : above.kind ∈ [Kind.table, .tableHead, .tableBody]) :
      Line.ofText before ≠ .opened := hkept.rows before hbefore above hinside hrows
  rw [innermost, hopen] at hkept'
  rcases mem_innermost hopen hinner with ⟨rfl, rfl, hleaf, rfl⟩ | hhead
  · -- A part of a table was entered, and nothing was buffered since the last row of the table.
    rcases hcases with htext | ⟨_, hleave, -⟩ | ⟨rfl, htable, -⟩
    · exact absurd htext (kind_ne_text hleaf)
    · cases hleave
    · have hsection : inner.kind = .tableHead ∨ inner.kind = .tableBody := by simp_all
      rcases hshape.root_or_parent hreaches with ⟨-, rfl⟩ |
        ⟨parent, others, rfl, hnests, hparent, himage, -⟩
      · rcases hsection with hsection | hsection <;> simpa [hsection, isBlock] using hshape.top
      · exact hkept' rfl (by simp [parent_of_section hnests hsection hparent himage])
  · have hchild := kind_of_nests_rows (hshape.of_head hreaches hhead).1 hkind
    rcases hcases with htext | ⟨mark, -, hmark, rfl⟩ | ⟨rfl, htable, hmark⟩
    · simp [htext] at hchild
    · -- A row was ended.
      rcases kind_of_tableMark hmark with ⟨-, rfl⟩ | ⟨hcell, -⟩
      · have hended : Line.ofText "\n" = .ended := by decide
        rw [Line.ofText_append, hended, Line.ended_after]
        decide
      · simp [hcell] at hchild
    · cases phase with
      | enter => exact hkept' hhead hkind
      | leave =>
          -- It was no row, since a row would have been ended.
          have hsection : node.kind ∈ [Kind.table, .tableHead, .tableBody] := by
            simp only [List.mem_cons, List.not_mem_nil, or_false] at hchild ⊢
            rcases hchild with hkind | hkind | hrow
            · exact .inr (.inl hkind)
            · exact .inr (.inr hkind)
            · simp [hrow, tableMark] at hmark
          exact hkept' rfl hsection

theorem LineKept.payload_step (hkept : LineKept options ((node, phase) :: rest) history run)
    (hunderway : Underway (visitWith load options) root start ((node, phase) :: rest) history run)
    (hrule : Visited load options run node phase (.ok step) after) {inner : Node}
    (hinner : inner ∈ innermost (⟨node, phase, run, .ok step⟩ :: history))
    (hcarries : carriesFrontMatter options inner = true) :
    (∃ others, Pending.after node phase step rest = (inner, .leave) :: others) ∨
      after.state.consumingFrontMatter = true ∧ ∃ text others, text.kind = .text ∧
        Pending.after node phase step rest = (text, .enter) :: (inner, .leave) :: others := by
  obtain ⟨outer, hreaches, hopen⟩ := hunderway.exists_reaches (passesOverImages load options)
  rcases mem_innermost hopen hinner with ⟨rfl, rfl, hleaf, rfl⟩ | hhead
  · -- The heading of front matter was entered, and holds the text that is to be loaded.
    obtain ⟨hheading, hfront⟩ := carriesFrontMatter_iff.mp hcarries
    obtain ⟨text, hchildren, htext⟩ := List.map_eq_singleton_iff.mp
      (hshape.frontMatter inner ((mem_reached_iff []).mpr ⟨outer, hreaches⟩) hcarries)
    rcases hrule.enter_heading hheading with ⟨-, -, hskip, -⟩ | ⟨-, -, -, hstate⟩ | ⟨hsection, -⟩
    · cases hskip
    · refine .inr ⟨by rw [hstate], text, rest, htext, ?_⟩
      simp [Pending.after, hleaf, Pending.expand, hchildren]
    · rw [hsection] at hfront
      cases hfront
  · -- The text was loaded, and the heading is left next.
    have htext := (hshape.of_head hreaches hhead).2 hcarries
    cases phase with
    | leave => exact absurd htext (kind_ne_text hunderway.isLeaf_of_leave)
    | enter =>
        have hinside : inner ∈ innermost history := by
          rw [innermost, hopen]
          exact hhead
        have hafter : Pending.after node .enter step rest = rest := by
          cases step <;> simp [Pending.after, htext, Kind.isLeaf]
        rcases hkept.payload inner hinside hcarries with ⟨others, hpending⟩ |
          ⟨-, _, others, -, hpending⟩
        · cases hpending
        · cases hpending
          exact .inl ⟨others, hafter⟩

/-- Every visit keeps lines as they are told. -/
theorem LineKept.visit (hkept : LineKept options ((node, phase) :: rest) history run)
    (hunderway : Underway (visitWith load options) root start ((node, phase) :: rest) history run)
    (hrule : Visited load options run node phase (.ok step) after) :
    LineKept options (Pending.after node phase step rest)
      (⟨node, phase, run, .ok step⟩ :: history) after where
  outside houtside := by
    cases phase with
    | enter => exact hkept.outside_enter hshape hunderway hrule houtside
    | leave => exact hkept.outside_leave hshape hunderway hrule houtside
  inTable := hkept.inTable_step hshape hunderway hrule
  rows _ hbuffer _ hinner hkind := hkept.rows_step hshape hunderway hrule hbuffer hinner hkind
  payload _ hinner hcarries := hkept.payload_step hshape hunderway hrule hinner hcarries

/-- Lines are as they are told at every point of a walk. -/
theorem lineKept_of_underway (hpreamble : Line.ofText options.preamble ≠ .opened)
    (hunderway : Underway (visitWith load options) root (Renderer.start options) pending history
      run) : LineKept options pending history run := by
  induction hunderway with
  | start =>
      constructor
      · intro _
        rw [Troff.atLineStart_iff, Renderer.start_written]
        split
        · decide
        · simpa using hpreamble
      · simp
      · simp
      · simp [innermost, openNodes]
  | step hbefore hrun _ ih => exact ih.visit hshape hbefore (visited hrun)

end

end Manuscript.Render
