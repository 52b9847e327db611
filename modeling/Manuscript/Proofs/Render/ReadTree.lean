import Manuscript.Proofs.Document.Above
import Manuscript.Proofs.Document.Span
import Manuscript.Proofs.Markdown.WellFormed
import Manuscript.Proofs.Render.Fit
import Manuscript.Proofs.Render.Memory
import Manuscript.Proofs.Render.Repeated

/-! # Rendering the trees that are read

In a well-formed tree the open nodes are of the kinds that items, rows and cells
need, so none of these is met outside of its collection. What may still fail is
listed by `CanFail`. A table with a row is always laid out, because the walk owes
it the end of that row until its buffer holds one (`rowEnded_of_underway`).
-/

namespace Manuscript

/-! ## Nodes above in a well-formed tree -/

namespace Node.WellFormed

variable {root node : Node} {above : List Node}

/-- Every node but the root has its parent next above it. -/
theorem exists_parent (hroot : WellFormed root) (hreaches : Reaches [] root above node)
    (hkind : node.kind ≠ .document) :
    ∃ parent outer, above = parent :: outer ∧ Reaches [] root outer parent ∧
      parent ∈ root :: root.descendants ∧ node ∈ parent.children := by
  rcases hreaches.here_or_below with ⟨-, rfl⟩ | ⟨parent, outer, rfl, hchild, hparent, -⟩
  · exact absurd hroot.document hkind
  · exact ⟨parent, outer, rfl, hparent, hparent.mem, hchild⟩

theorem list_above (hroot : WellFormed root) (hreaches : Reaches [] root above node)
    (hkind : node.kind = .listItem) : ∃ list ∈ above, list.kind = .list := by
  obtain ⟨parent, outer, rfl, -, hmem, hchild⟩ := hroot.exists_parent hreaches (by simp [hkind])
  exact ⟨parent, List.mem_cons_self, (hroot.item parent hmem node hchild).mp hkind⟩

theorem table_above_section (hroot : WellFormed root) (hreaches : Reaches [] root above node)
    (hkind : node.kind = .tableHead ∨ node.kind = .tableBody) :
    ∃ table ∈ above, table.kind = .table := by
  obtain ⟨parent, outer, rfl, -, hmem, hchild⟩ :=
    hroot.exists_parent hreaches (by rcases hkind with hkind | hkind <;> simp [hkind])
  exact ⟨parent, List.mem_cons_self, (hroot.part parent hmem node hchild).mp hkind⟩

theorem table_above_row (hroot : WellFormed root) (hreaches : Reaches [] root above node)
    (hkind : node.kind = .tableRow) : ∃ table ∈ above, table.kind = .table := by
  obtain ⟨parent, outer, rfl, hparent, hmem, hchild⟩ :=
    hroot.exists_parent hreaches (by simp [hkind])
  obtain ⟨table, htable, htablekind⟩ :=
    hroot.table_above_section hparent ((hroot.row parent hmem node hchild).mp hkind)
  exact ⟨table, List.mem_cons_of_mem _ htable, htablekind⟩

theorem table_above_cell (hroot : WellFormed root) (hreaches : Reaches [] root above node)
    (hkind : node.kind = .tableCell) : ∃ table ∈ above, table.kind = .table := by
  obtain ⟨parent, outer, rfl, hparent, hmem, hchild⟩ :=
    hroot.exists_parent hreaches (by simp [hkind])
  obtain ⟨table, htable, htablekind⟩ :=
    hroot.table_above_row hparent ((hroot.cell parent hmem node hchild).mp hkind)
  exact ⟨table, List.mem_cons_of_mem _ htable, htablekind⟩

end Node.WellFormed

/-- A node is visited below nodes that are open, both when it is entered and when it is left. -/
theorem exists_reaches_of_suffix {ε σ : Type} {visit : Visitor ε σ} {root : Node} {start : σ}
    {v : Visit ε σ} {earlier : History ε σ} (himages : PassesOverImages visit)
    (hsuffix : v :: earlier <:+ historyOf visit root start) :
    ∃ above, Reaches [] root above v.node ∧ above ⊆ (openNodes earlier).map OpenNode.node := by
  obtain ⟨rest, hunderway⟩ := (makes_of_suffix hsuffix).underway
  obtain ⟨above, hreaches, hopen⟩ := hunderway.exists_reaches himages
  refine ⟨above, hreaches, ?_⟩
  rw [hopen]
  cases v.phase with
  | enter => exact List.Subset.refl _
  | leave => exact List.subset_cons_self _ _

/-! ## Rows that are still to be ended -/

/-- The pending visits before the next one that leaves a table. -/
def Pending.beforeTable (pending : Pending) : Pending :=
  pending.takeWhile fun (node, phase) => !(node.kind == .table && phase == .leave)

/-- A part of a table with a row. -/
def Node.HoldsRow (part : Node) : Prop :=
  (part.kind = .tableHead ∨ part.kind = .tableBody) ∧ ∃ row ∈ part.children, row.kind = .tableRow

/-- The visit of a node leaves a row, or goes on to visits that do. -/
def Pending.BringsRowEnd (visit : Node × Phase) : Prop :=
  visit.1.kind = .tableRow ∨ visit.2 = .enter ∧ visit.1.HoldsRow

section

variable {node child : Node} {phase : Phase} {rest : Pending} {step : Step}

theorem Pending.beforeTable_enter (node : Node) (rest : Pending) :
    Pending.beforeTable ((node, .enter) :: rest) = (node, .enter) :: rest.beforeTable := by
  simp [beforeTable]

theorem Pending.beforeTable_leave (hkind : node.kind ≠ .table) (rest : Pending) :
    Pending.beforeTable ((node, .leave) :: rest) = (node, .leave) :: rest.beforeTable := by
  simp [beforeTable, hkind]

theorem Pending.beforeTable_leaveTable (hkind : node.kind = .table) (rest : Pending) :
    Pending.beforeTable ((node, .leave) :: rest) = [] := by
  simp [beforeTable, hkind]

theorem Pending.beforeTable_expand (node : Node) (rest : Pending) :
    (expand node rest).beforeTable =
      node.children.map (·, .enter) ++ Pending.beforeTable ((node, .leave) :: rest) := by
  refine List.takeWhile_append_of_pos ?_
  rintro ⟨child, phase⟩ hmem
  obtain ⟨_, -, heq⟩ := List.mem_map.mp hmem
  cases heq
  simp

theorem Pending.mem_beforeTable_expand (hchild : child ∈ node.children) :
    (child, .enter) ∈ (expand node rest).beforeTable := by
  rw [beforeTable_expand]
  exact List.mem_append_left _ (List.mem_map_of_mem hchild)

/-- Visits of other nodes than tables keep what is pending before the next end of a table. -/
theorem Pending.beforeTable_subset_after (hkind : node.kind ≠ .table) :
    rest.beforeTable ⊆ (Pending.after node phase step rest).beforeTable := by
  unfold Pending.after
  split
  · split
    · exact List.Subset.refl _
    · rw [beforeTable_expand, beforeTable_leave hkind]
      exact List.Subset.trans (List.subset_cons_self _ _) (List.subset_append_right _ _)
  · exact List.Subset.refl _

end

namespace Render

open Pending (BringsRowEnd)

section

variable {load : Loader} {options : Options} {root node : Node} {run after : Run}
  {history : History RenderError Run} {pending rest : Pending} {phase : Phase} {step : Step}

/-- A row that was ended in the open table stays ended until the table is left. -/
theorem Visited.rowEnded (hrule : Visited load options run node phase (.ok step) after)
    (hkind : node.kind ≠ .table) (hended : RowEnded run.state) : RowEnded after.state := by
  cases hrule with
  | enterTable htable | leaveTable htable => exact absurd htable hkind
  | bufferedText _ _ _ hbuffer | mark _ hbuffer =>
      obtain ⟨ended, hopen, hmem⟩ := hended
      rw [hbuffer] at hopen
      cases hopen
      exact ⟨_, rfl, by simp [hmem]⟩
  | _ => exact hended

theorem Visited.rowEnded_leave (hrule : Visited load options run node .leave (.ok step) after)
    (hkind : node.kind = .tableRow) : RowEnded after.state := by
  cases hrule with
  | mark hmark =>
      rw [hkind] at hmark
      cases hmark
      exact ⟨_, rfl, by simp⟩
  | plain hplain => simp [plainPieces, hkind] at hplain
  | image hother | payload hother | emptyText hother | bufferedText hother | writtenText hother
  | leaveTable hother | leaveList hother | leaveSection hother | leaveFrontMatter hother =>
      rw [hkind] at hother
      cases hother

theorem Visited.eq_next (hrule : Visited load options run node .enter (.ok step) after)
    (himage : node.kind ≠ .image) (hheading : node.kind ≠ .heading) : step = .next := by
  rcases hrule.next_or_skip with ⟨hnext, -⟩ | ⟨-, -, -, hskip | hover⟩
  · exact hnext
  · exact absurd hskip himage
  · exact absurd (TitleSearch.heading_of_passesOver hover) hheading

/-- A visit that brings about the end of a row ends one itself or leaves another such visit
pending. -/
theorem Visited.bringsRowEnd (hrule : Visited load options run node phase (.ok step) after)
    (hbrings : BringsRowEnd (node, phase)) :
    RowEnded after.state ∨ ∃ v ∈ (Pending.after node phase step rest).beforeTable,
      BringsRowEnd v := by
  cases phase with
  | leave =>
      rcases hbrings with hkind | ⟨hphase, -⟩
      · exact .inl (hrule.rowEnded_leave hkind)
      · cases hphase
  | enter =>
      right
      -- Neither rows nor what holds them are passed over, so all below comes to be visited.
      have hkinds : node.kind = .tableRow ∨ node.kind = .tableHead ∨ node.kind = .tableBody :=
        hbrings.imp_right fun hholds => hholds.2.1
      obtain rfl : step = .next := by
        apply hrule.eq_next <;> rcases hkinds with hkind | hkind | hkind <;> simp [hkind]
      have hleaf : node.kind.isLeaf = false := by
        rcases hkinds with hkind | hkind | hkind <;> simp [hkind, Kind.isLeaf]
      simp only [Pending.after, hleaf, Bool.false_eq_true, if_false]
      rcases hbrings with hkind | ⟨-, -, row, hrow, hkind⟩
      · refine ⟨(node, .leave), ?_, .inl hkind⟩
        have htable : node.kind ≠ .table := by
          rw [hkind]
          decide
        rw [Pending.beforeTable_expand, Pending.beforeTable_leave htable]
        exact List.mem_append_right _ List.mem_cons_self
      · exact ⟨(row, .enter), Pending.mem_beforeTable_expand hrow, .inl hkind⟩

/-- A table that was just entered owes the rows that it holds. -/
theorem bringsRowEnd_of_enterTable
    (hunderway : Underway (visitWith load options) root (Renderer.start options)
      ((node, .enter) :: rest) history run)
    (hrun : (visitWith load options node .enter).runFrom run = (.ok step, after))
    (hkind : node.kind = .table) {table : OpenNode}
    (hopen : table ∈ openOf .table (⟨node, .enter, run, .ok step⟩ :: history))
    (hrow : ∃ part ∈ table.node.children, part.HoldsRow) :
    ∃ v ∈ (Pending.after node .enter step rest).beforeTable, BringsRowEnd v := by
  obtain rfl : step = .next :=
    (visited hrun).eq_next (by simp [hkind]) (by simp [hkind])
  -- Tables are not nested, so the open table is the one that was entered.
  have hone := (remembers_of_underway (hunderway.step hrun nofun)).oneTable
  rw [openOf_enter .table hkind rfl] at hopen hone
  have hnone : openOf .table history = [] :=
    List.eq_nil_of_length_eq_zero (Nat.le_zero.mp (Nat.le_of_succ_le_succ hone))
  rw [hnone, List.mem_singleton] at hopen
  subst hopen
  obtain ⟨part, hpart, hholds⟩ := hrow
  simp only [Pending.after, hkind, Kind.isLeaf, Bool.false_eq_true, if_false]
  exact ⟨(part, .enter), Pending.mem_beforeTable_expand hpart, .inr ⟨rfl, hholds⟩⟩

/-- While a table with rows is open, one of them was ended, or the end of one is to come before
the end of the table. -/
theorem rowEnded_of_underway
    (hunderway : Underway (visitWith load options) root (Renderer.start options) pending history
      run) {table : OpenNode} (hopen : table ∈ openOf .table history)
    (hrow : ∃ part ∈ table.node.children, part.HoldsRow) :
    RowEnded run.state ∨ ∃ v ∈ pending.beforeTable, BringsRowEnd v := by
  -- Along the walk the row that is owed stays pending before the end of the table until the visit
  -- that leaves it, and from then on its end stays in the buffer.
  induction hunderway with
  | start => cases hopen
  | @step node phase rest history before after step hbefore hrun _ ih =>
      by_cases hkind : node.kind = .table
      · cases phase with
        | enter => exact .inr (bringsRowEnd_of_enterTable hbefore hrun hkind hopen hrow)
        | leave =>
            rw [(remembers_of_underway hbefore).openOf_leaveTable hbefore hkind] at hopen
            cases hopen
      · rw [hbefore.openOf_other .table hkind] at hopen
        rcases ih hopen with hended | ⟨v, hmem, hbrings⟩
        · exact .inl ((visited hrun).rowEnded hkind hended)
        · have hcases : v = (node, phase) ∨ v ∈ rest.beforeTable := by
            cases phase with
            | enter => rwa [Pending.beforeTable_enter, List.mem_cons] at hmem
            | leave => rwa [Pending.beforeTable_leave hkind, List.mem_cons] at hmem
          rcases hcases with rfl | hmem
          · exact (visited hrun).bringsRowEnd hbrings
          · exact .inr ⟨v, Pending.beforeTable_subset_after hkind hmem, hbrings⟩

end

end Render

/-! ## What may fail -/

namespace Node

/-- A table has a row: a head, which always holds one, or a part that is not empty. -/
def HasRow (table : Node) : Prop :=
  ∃ part ∈ table.children, part.kind = .tableHead ∨ part.children ≠ []

theorem WellFormed.holdsRow {root table : Node} (hroot : WellFormed root)
    (htable : table ∈ root :: root.descendants) (hkind : table.kind = .table)
    (hrow : table.HasRow) : ∃ part ∈ table.children, part.HoldsRow := by
  obtain ⟨part, hpart, hrow⟩ := hrow
  refine ⟨part, hpart, ?_⟩
  rcases hroot.sections table htable hkind part hpart with ⟨hhead, row, hone, hrowkind⟩ |
    ⟨hbody, hrows⟩
  · exact ⟨.inl hhead, row, by simp [hone], hrowkind⟩
  · have hsome : part.children ≠ [] := by
      rcases hrow with hhead | hsome
      · rw [hbody] at hhead
        cases hhead
      · exact hsome
    obtain ⟨row, hrow⟩ := List.exists_mem_of_ne_nil _ hsome
    exact ⟨.inr hbody, row, hrow, hrows row hrow⟩

end Node

namespace Render

/-- How rendering a tree that was read may fail at a node. -/
inductive CanFail (node : Node) : RenderError → Prop
  | unknownKind (phase : Phase) (hkind : node.kind = .thematicBreak) :
      CanFail node (.unknownKind .thematicBreak phase)
  | nestedTable (hkind : node.kind = .table) : CanFail node .nestedTable
  | layout (cause : Table.LayoutError) (hkind : node.kind = .table) (hrow : ¬ node.HasRow) :
      CanFail node (.layout cause)
  | noPayload (hkind : node.kind = .heading) : CanFail node .noPayload
  | frontMatter (cause : FrontMatter.LoadError) (hkind : node.kind = .text) :
      CanFail node (.frontMatter cause)
  | encoding (cause : EncodingError) (hkind : node.kind = .heading) :
      CanFail node (.encoding cause)

section

variable {load : Loader} {options : Options} {root : Node} {v : Visit RenderError Run}
  {earlier : History RenderError Run}

theorem mem_of_suffix
    (hsuffix : v :: earlier <:+ historyOf (visitWith load options) root (Renderer.start options)) :
    v.node ∈ root :: root.descendants := by
  obtain ⟨above, hreaches, -⟩ := exists_reaches_of_suffix (passesOverImages load options) hsuffix
  exact hreaches.mem

theorem openOf_ne_nil {kind : Kind} {above : List Node}
    (hopen : above ⊆ (openNodes earlier).map OpenNode.node)
    (habove : ∃ node ∈ above, node.kind = kind) : openOf kind earlier ≠ [] := by
  obtain ⟨node, hnode, hkind⟩ := habove
  obtain ⟨o, ho, rfl⟩ := List.mem_map.mp (hopen hnode)
  exact List.ne_nil_of_mem (List.mem_filter.mpr ⟨ho, by simpa using hkind⟩)

/-- Items find a counter when they are visited. -/
theorem counters_ne_nil_of_item (hroot : root.WellFormed)
    (hsuffix : v :: earlier <:+ historyOf (visitWith load options) root (Renderer.start options))
    (hkind : v.node.kind = .listItem) : v.before.state.counters ≠ [] := by
  obtain ⟨⟨_, hunderway⟩, -⟩ := makes_of_suffix hsuffix
  obtain ⟨above, hreaches, hopen⟩ :=
    exists_reaches_of_suffix (passesOverImages load options) hsuffix
  have hlist := openOf_ne_nil hopen (hroot.list_above hreaches hkind)
  rw [(remembers_of_underway hunderway).counters, itemCounts]
  simpa using hlist

/-- Tables, rows and cells find a buffer when they are left. -/
theorem tableBuffer_ne_none (hroot : root.WellFormed)
    (hsuffix : v :: earlier <:+ historyOf (visitWith load options) root (Renderer.start options))
    (hleave : v.phase = .leave)
    (hkind : v.node.kind = .table ∨ (tableMark v.node.kind).isSome) :
    v.before.state.tableBuffer ≠ none := by
  obtain ⟨⟨_, hunderway⟩, -⟩ := makes_of_suffix hsuffix
  obtain ⟨above, hreaches, hopen⟩ :=
    exists_reaches_of_suffix (passesOverImages load options) hsuffix
  have htable : openOf .table earlier ≠ [] := by
    rcases hkind with hkind | hmark
    · rw [hleave] at hunderway
      obtain ⟨since, heq⟩ := hunderway.openOf_leave .table hkind (.ok .next)
      rw [heq]
      exact List.cons_ne_nil _ _
    · obtain ⟨mark, hmark⟩ := Option.isSome_iff_exists.mp hmark
      apply openOf_ne_nil hopen
      rcases kind_of_tableMark hmark with ⟨hrow, -⟩ | ⟨hcell, -⟩
      · exact hroot.table_above_row hreaches hrow
      · exact hroot.table_above_cell hreaches hcell
  rw [Option.ne_none_iff_isSome]
  exact (remembers_of_underway hunderway).tableBuffer.mpr htable

/-- A row of a table that has one was ended when the table is left. -/
theorem rowEnded_of_leaveTable (hroot : root.WellFormed)
    (hsuffix : v :: earlier <:+ historyOf (visitWith load options) root (Renderer.start options))
    (hleave : v.phase = .leave) (hkind : v.node.kind = .table) (hrow : v.node.HasRow) :
    RowEnded v.before.state := by
  obtain ⟨⟨_, hunderway⟩, -⟩ := makes_of_suffix hsuffix
  rw [hleave] at hunderway
  obtain ⟨since, hopen⟩ := hunderway.openOf_leave .table hkind (.ok .next)
  have hmem : ⟨since, v.node⟩ ∈ openOf .table earlier := by
    rw [hopen]
    exact List.mem_cons_self
  rcases rowEnded_of_underway hunderway hmem
    (hroot.holdsRow (mem_of_suffix hsuffix) hkind hrow) with hended | ⟨_, hpending, -⟩
  · exact hended
  · rw [Pending.beforeTable_leaveTable hkind] at hpending
    cases hpending

/-- In a well-formed tree visits fail only as told. -/
theorem canFail_of_suffix (hroot : root.WellFormed)
    (hsuffix : v :: earlier <:+ historyOf (visitWith load options) root (Renderer.start options))
    {e : RenderError} (herror : v.answer = .error e) : CanFail v.node e := by
  have hanswer := (makes_of_suffix hsuffix).answer
  have hmem := mem_of_suffix hsuffix
  have hcounters := counters_ne_nil_of_item hroot hsuffix
  have hbuffer := tableBuffer_ne_none hroot hsuffix
  have hended := rowEnded_of_leaveTable hroot hsuffix
  obtain ⟨node, phase, before, answer⟩ := v
  dsimp only at *
  rw [herror] at hanswer
  obtain ⟨after, hrun⟩ :
      ∃ after, (visitWith load options node phase).runFrom before = (.error e, after) :=
    ⟨_, Prod.ext hanswer rfl⟩
  cases visited hrun with
  | unknown hkind =>
      have hthematic : node.kind = .thematicBreak := by
        unfold hasRendering at hkind
        split at hkind
        next hthematic => exact hthematic
        next hbreak => exact absurd hbreak (hroot.lineBreak node hmem)
        next hother => exact absurd hother (hroot.known node hmem _)
        next => cases hkind
      rw [hthematic]
      exact .unknownKind phase hthematic
  | badPayload hkind => exact .frontMatter _ hkind
  | nestedTable hkind => exact .nestedTable hkind
  | badTable hkind hopen hlayout =>
      refine .layout _ hkind fun hrow => ?_
      obtain ⟨ended, hopen', hfeed⟩ := hended rfl hkind hrow
      rw [hopen] at hopen'
      cases hopen'
      exact (Table.layout_error_iff _ _).mp ⟨_, hlayout⟩ hfeed
  | outsideTable hkind hnone => exact absurd hnone (hbuffer rfl hkind)
  | outsideList hkind hnone => exact absurd hnone (hcounters hkind)
  | noPayload hkind => exact .noPayload hkind
  | badTitleBlock hkind => exact .encoding _ hkind

end

/-- If rendering fails, one of its visits did. -/
theorem exists_visit_of_error {load : Loader} {renderer : Renderer} {root : Node} {e : RenderError}
    (herror : (renderer.renderWith load root).result = .error e) :
    ∃ v earlier, v :: earlier <:+ renderer.historyWith load root ∧ v.answer = .error e := by
  obtain ⟨result, final, hwalk⟩ :
      ∃ result final, (walk (visitWith load renderer.options) root).runFrom
        (Renderer.start renderer.options) = (result, final) := ⟨_, _, rfl⟩
  cases result with
  | ok step =>
      rw [Renderer.renderWith_ok hwalk] at herror
      cases herror
  | error e' =>
      rw [Renderer.renderWith_error hwalk] at herror
      cases herror
      obtain ⟨v, hmem, hanswer⟩ := ((runFrom_walk_recorded hwalk).2.error e).mp rfl
      obtain ⟨later, earlier, heq⟩ := List.append_of_mem hmem
      exact ⟨v, earlier, ⟨later, heq.symm⟩, hanswer⟩

/-- A tree that was read, whatever the tokens, fails to render only in the ways of `CanFail`: no
item is met outside of a list, no part of a table outside of a table, nothing without a rendering
but a thematic break, and no table is without a layout but one without rows. Each visit that leaves
a table with a row lays it out, also if rendering fails later. -/
theorem rendering_of_read (tokenize : Markdown.Tokenizer) (reading : Markdown.Options)
    (source : Markdown.Source) (root : Node)
    (hroot : (Markdown.readSourceWith tokenize reading source).tree = .ok root) (load : Loader)
    (renderer : Renderer) :
    (∀ e, (renderer.renderWith load root).result = .error e →
      ∃ node ∈ root :: root.descendants, CanFail node e) ∧
    (∀ v ∈ renderer.historyWith load root, v.node.kind = .table → v.phase = .leave →
      v.node.HasRow → v.answer = .ok .next ∧ ∃ buffer layout after,
        v.before.state.tableBuffer = some buffer ∧ Table.layout buffer = .ok layout ∧
          (visitWith load renderer.options v.node .leave).runFrom v.before = (.ok .next, after) ∧
          after.written.toList = v.before.written.toList ++ Troff.tableDisplay layout) := by
  have hwell := Markdown.wellFormed_document hroot
  constructor
  · intro e herror
    obtain ⟨v, earlier, hsuffix, hanswer⟩ := exists_visit_of_error herror
    exact ⟨v.node, mem_of_suffix hsuffix, canFail_of_suffix hwell hsuffix hanswer⟩
  · intro v hmem hkind hleave hrow
    obtain ⟨later, earlier, heq⟩ := List.append_of_mem hmem
    have hsuffix : v :: earlier <:+ renderer.historyWith load root := ⟨later, heq.symm⟩
    obtain ⟨buffer, hbuffer, hfeed⟩ := rowEnded_of_leaveTable hwell hsuffix hleave hkind hrow
    cases hlayout : Table.layout buffer with
    | error e => exact absurd hfeed ((Table.layout_error_iff _ _).mp ⟨e, hlayout⟩)
    | ok layout =>
        have hrun : (visitWith load renderer.options v.node .leave).runFrom v.before = _ :=
          runFrom_visit_leaveTable hkind hbuffer hlayout
        refine ⟨?_, buffer, layout, _, hbuffer, hlayout, hrun, by simp⟩
        rw [← (makes_of_suffix hsuffix).answer, hleave, hrun]

/-- Tokens of a table whose head has no cells and of a table whose body has no rows. -/
def sparseTokens : List Markdown.Token := [
  { kind := .table, children := [{ kind := .tableHead }] },
  { kind := .table, children := [{ kind := .tableBody }] }]

/-- The tree of these tokens. -/
def sparseTree : Node :=
  .document [
    { kind := .table, children := [.tableHead [.tableRow []]] },
    { kind := .table, children := [.tableBody []] }]

unseal Table.layOut in
/-- The table that is not laid out is one that has no row. -/
theorem rendering_sparse_tables :
    (Markdown.readSourceWith (fun _ _ => sparseTokens) {} (.text "")).tree = .ok sparseTree ∧
    (Renderer.renderWith FrontMatter.load {} sparseTree).result = .error (.layout .empty) ∧
    ∃ table ∈ sparseTree :: sparseTree.descendants, table.kind = .table ∧ ¬ table.HasRow := by
  have hroot : (Markdown.readSourceWith (fun _ _ => sparseTokens) {} (.text "")).tree =
      .ok sparseTree := rfl
  have hresult : (Renderer.renderWith FrontMatter.load {} sparseTree).result =
      .error (.layout .empty) := by
    rw [Renderer.renderWith, Renderer.document, walk_eq_descend]
    rfl
  obtain ⟨hfails, -⟩ := rendering_of_read (fun _ _ => sparseTokens) {} (.text "") sparseTree hroot
    FrontMatter.load {}
  obtain ⟨table, hmem, hcan⟩ := hfails _ hresult
  cases hcan with
  | layout _ hkind hrow => exact ⟨hroot, hresult, table, hmem, hkind, hrow⟩

end Render

end Manuscript
