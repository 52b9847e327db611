import Manuscript.Failure
import Manuscript.Proofs.Document.Reach
import Manuscript.Proofs.Render.Visit
import Manuscript.Proofs.Table.Lines

/-! # Where nodes belong

Items belong in lists, rows and cells in tables, and tables outside of tables.
`Fits` states this for one node. While a tree without front matter is rendered,
what is remembered agrees with the nodes above the visited one, so that entering
and leaving a node decide whether it fits there.
-/

namespace Manuscript.Render

/-- Rendering a node ends a row of the table that is open. -/
def EndsRow (node : Node) : Prop :=
  node.kind = .tableRow ∨ node.kind = .text ∧ '\n' ∈ node.literal.toList

/-- A node that ends a row is reached from here. -/
def HoldsRowEnd (above : List Node) (node : Node) : Prop :=
  ∃ outer part, Reaches above node outer part ∧ EndsRow part

/-- What a node needs of itself, of the nodes above it and of the nodes below it. -/
structure Fits (above : List Node) (node : Node) : Prop where
  rendering : hasRendering node.kind = true
  item : node.kind = .listItem → ∃ list ∈ above, list.kind = .list
  part : node.kind = .tableRow ∨ node.kind = .tableCell → ∃ table ∈ above, table.kind = .table
  table : node.kind = .table → ∀ outer ∈ above, outer.kind ≠ .table
  row : node.kind = .table → HoldsRowEnd above node

/-- All that is reached from a node fits. -/
def AllFit (above : List Node) (node : Node) : Prop :=
  ∀ outer target, Reaches above node outer target → Fits outer target

/-- All that is reached in a tree fits. -/
def Renderable (root : Node) : Prop := AllFit [] root

/-- An error is one that rendering reports. -/
def IsReported (error : RenderError) : Prop :=
  ∃ kind, error.origin = .reported kind ∧ .rendering ∈ kind.lineage

/-! ## What is remembered below nodes -/

/-- A state agrees with the nodes above. -/
structure Within (above : List Node) (state : State) : Prop where
  consuming : state.consumingFrontMatter = false
  list : state.counters ≠ [] ↔ ∃ list ∈ above, list.kind = .list
  table : state.tableBuffer.isSome ↔ ∃ table ∈ above, table.kind = .table

/-- A table is open and a row of it was ended. -/
def RowEnded (state : State) : Prop :=
  ∃ buffer, state.tableBuffer = some buffer ∧ '\n' ∈ buffer.toList

/-- What rendering a part of a tree leaves as it was, and whether it ended a row. -/
structure Carried (ends : Prop) (before after : State) : Prop where
  consuming : after.consumingFrontMatter = false
  counters : after.counters.length = before.counters.length
  table : after.tableBuffer.isSome = before.tableBuffer.isSome
  rowEnded : before.tableBuffer.isSome → (RowEnded after ↔ RowEnded before ∨ ends)

/-- A part of a tree is rendered if it fits, and fails with a reported error if it does not. -/
inductive Decides (fits ends : Prop) (before : State) : Except RenderError Step → Run → Prop
  | fits {after} (hfits : fits) (hcarried : Carried ends before after.state) :
      Decides fits ends before (.ok .next) after
  | fails {error after} (hfits : ¬ fits) (hreported : IsReported error) :
      Decides fits ends before (.error error) after

section

variable {above : List Node} {node : Node} {before between after : State} {ends later : Prop}

theorem Within.nil : Within [] {} := by
  constructor <;> simp

/-- Below a node that is neither a list nor a table the agreement stays as it is. -/
theorem Within.cons (hwithin : Within above before) (hlist : node.kind ≠ .list)
    (htable : node.kind ≠ .table) : Within (node :: above) before where
  consuming := hwithin.consuming
  list := by simp [hwithin.list, hlist]
  table := by simp [hwithin.table, htable]

/-- What is carried over agrees with the nodes above as before. -/
theorem Carried.within (hcarried : Carried ends before after) (hwithin : Within above before) :
    Within above after where
  consuming := hcarried.consuming
  list := by
    rw [← hwithin.list, ← List.length_pos_iff, ← List.length_pos_iff, hcarried.counters]
  table := by rw [hcarried.table, hwithin.table]

theorem Carried.refl (hconsuming : before.consumingFrontMatter = false) :
    Carried False before before where
  consuming := hconsuming
  counters := rfl
  table := rfl
  rowEnded _ := by simp

/-- What is carried over twice is carried over. -/
theorem Carried.trans (hfirst : Carried ends before between)
    (hsecond : Carried later between after) : Carried (ends ∨ later) before after where
  consuming := hsecond.consuming
  counters := hsecond.counters.trans hfirst.counters
  table := hsecond.table.trans hfirst.table
  rowEnded hopen := by
    rw [hsecond.rowEnded (hfirst.table ▸ hopen), hfirst.rowEnded hopen, or_assoc]

theorem Carried.congr (hcarried : Carried ends before after) (hends : ends ↔ later) :
    Carried later before after := by
  rwa [← propext hends]

/-- What is appended to the open table may end a row. -/
theorem Carried.append (hcarried : Carried ends before after) {buffer text : String}
    (hbuffer : after.tableBuffer = some buffer) :
    Carried ('\n' ∈ text.toList ∨ ends) before
      { after with tableBuffer := some (buffer ++ text) } where
  consuming := hcarried.consuming
  counters := hcarried.counters
  table := by rw [← hcarried.table, hbuffer, Option.isSome_some, Option.isSome_some]
  rowEnded hopen := by
    have hbefore := hcarried.rowEnded hopen
    simp only [RowEnded, hbuffer, Option.some.injEq, exists_eq_left'] at hbefore
    simp only [RowEnded, Option.some.injEq, exists_eq_left', String.toList_append,
      List.mem_append, hbefore]
    rw [or_assoc, or_comm (a := ends)]

end

/-! ## Leaving a node -/

/-- A container that is neither a list nor a table and that can be entered below these nodes. -/
structure Ordinary (options : Options) (above : List Node) (node : Node) : Prop where
  leaf : node.kind.isLeaf = false
  image : node.kind ≠ .image
  list : node.kind ≠ .list
  table : node.kind ≠ .table
  rendering : hasRendering node.kind = true
  item : node.kind = .listItem → ∃ list ∈ above, list.kind = .list
  front : node.kind = .heading → isFrontMatter options node = false

section

variable {load : Loader} {options : Options} {above : List Node} {node : Node}
  {run left after : Run} {answer : Except RenderError Step} {ends : Prop}

/-- A row or a cell can be left only in a table. Leaving the other nodes that are neither lists
nor tables changes nothing. -/
theorem Ordinary.decides_leave (hordinary : Ordinary options above node)
    (hwithin : Within above run.state) (hcarried : Carried ends run.state left.state)
    (hrule : Visited load options left node .leave answer after) :
    Decides (Fits above node) (EndsRow node ∨ ends) run.state answer after := by
  obtain ⟨hleaf, himage, hlist, htable, hrendering, hitem, hfront⟩ := hordinary
  have htext : node.kind ≠ .text := by
    intro hkind
    simp [hkind, Kind.isLeaf] at hleaf
  have hopen : left.state.tableBuffer.isSome ↔ ∃ table ∈ above, table.kind = .table :=
    (hcarried.within hwithin).table
  -- Whether a row or a cell is in a table is all that is left to be decided.
  have hfits (hpart : node.kind = .tableRow ∨ node.kind = .tableCell →
      ∃ table ∈ above, table.kind = .table) : Fits above node :=
    ⟨hrendering, hitem, hpart, fun hkind => absurd hkind htable, fun hkind => absurd hkind htable⟩
  cases hrule with
  | plain hplain =>
      have hpart : node.kind ≠ .tableRow ∧ node.kind ≠ .tableCell := by
        constructor <;> intro hkind <;> simp [plainPieces, hkind] at hplain
      refine .fits (hfits (by simp [hpart])) ?_
      simpa [EndsRow, hpart, htext] using hcarried
  | @mark buffer mark hmark hbuffer =>
      refine .fits (hfits fun _ => hopen.mp (by simp [hbuffer])) ?_
      have hends : EndsRow node ↔ '\n' ∈ mark.toList := by
        rcases kind_of_tableMark hmark with ⟨hkind, rfl⟩ | ⟨hkind, rfl⟩ <;> simp [EndsRow, hkind]
      rw [hends]
      exact hcarried.append hbuffer
  | outsideTable hkind hbuffer =>
      refine .fails (fun hfits => ?_) ⟨.rendering, rfl, by decide⟩
      obtain ⟨mark, hmark⟩ := Option.isSome_iff_exists.mp (hkind.resolve_left htable)
      have hpart := (kind_of_tableMark hmark).imp And.left And.left
      have habsent : left.state.tableBuffer.isSome = true := hopen.mpr (hfits.part hpart)
      simp [hbuffer] at habsent
  | leaveSection hkind =>
      refine .fits (hfits (by simp [hkind])) ?_
      have hends : (EndsRow node ∨ ends) = ends := by simp [EndsRow, hkind]
      rw [hends]
      exact ⟨rfl, hcarried.counters, hcarried.table, hcarried.rowEnded⟩
  | leaveFrontMatter hkind hfront' => simp [hfront hkind] at hfront'
  | badTitleBlock hkind hfront' => simp [hfront hkind] at hfront'
  | noPayload hkind hfront' => simp [hfront hkind] at hfront'
  | unknown hkind => simp [hrendering] at hkind
  | image hkind => exact absurd hkind himage
  | leaveList hkind => exact absurd hkind hlist
  | leaveTable hkind => exact absurd hkind htable
  | badTable hkind => exact absurd hkind htable
  | payload hkind | badPayload hkind | emptyText hkind | bufferedText hkind
  | writtenText hkind => exact absurd hkind htext

/-- Leaving a list takes its counter away again. -/
theorem decides_leaveList (hkind : node.kind = .list)
    (hcarried : Carried ends { run.state with counters := 0 :: run.state.counters } left.state)
    (hrule : Visited load options left node .leave answer after) :
    Decides (Fits above node) (EndsRow node ∨ ends) run.state answer after := by
  have hleave : answer = .ok .next ∧
      after.state = { left.state with counters := left.state.counters.tail } := by
    cases hrule <;> simp_all [plainPieces, tableMark, hasRendering]
  obtain ⟨rfl, hstate⟩ := hleave
  refine .fits (by constructor <;> simp [hkind, hasRendering]) ?_
  have hends : (EndsRow node ∨ ends) = ends := by simp [EndsRow, hkind]
  rw [hends, hstate]
  refine ⟨hcarried.consuming, ?_, hcarried.table, hcarried.rowEnded⟩
  rw [List.length_tail, hcarried.counters, List.length_cons, Nat.add_sub_cancel]

/-- A table is written if a row of it was ended. -/
theorem decides_leaveTable (hkind : node.kind = .table) (hclosed : run.state.tableBuffer = none)
    (hwithin : Within above run.state)
    (hcarried : Carried ends { run.state with tableBuffer := some "" } left.state)
    (hends : HoldsRowEnd above node ↔ ends)
    (hrule : Visited load options left node .leave answer after) :
    Decides (Fits above node) (EndsRow node ∨ ends) run.state answer after := by
  have hopen : left.state.tableBuffer.isSome = true := hcarried.table
  have hnotable : ¬ ∃ table ∈ above, table.kind = .table := by
    rw [← hwithin.table, hclosed]
    decide
  have hrow : RowEnded left.state ↔ ends := by
    rw [hcarried.rowEnded rfl]
    simp [RowEnded]
  cases hrule with
  | @leaveTable buffer layout _ hbuffer hlayout =>
      have hended : ends := hrow.mp ⟨buffer, hbuffer, Table.lineFeed_mem_of_layout hlayout⟩
      refine .fits ⟨?_, ?_, ?_, ?_, fun _ => hends.mpr hended⟩ ?_
      · rw [hkind]
        rfl
      · simp [hkind]
      · simp [hkind]
      · exact fun _ outer hmem houter => hnotable ⟨outer, hmem, houter⟩
      · refine ⟨hcarried.consuming, hcarried.counters, ?_, ?_⟩
        · rw [hclosed]
          rfl
        · simp [hclosed]
  | @badTable buffer error _ hbuffer hlayout =>
      refine .fails (fun hfits => ?_) ⟨.tableLayout, rfl, by decide⟩
      obtain ⟨buffer', hbuffer', hfeed⟩ := hrow.mpr (hends.mp (hfits.row hkind))
      rw [hbuffer] at hbuffer'
      cases hbuffer'
      exact (Table.layout_error_iff buffer Table.gutter).mp ⟨error, hlayout⟩ hfeed
  | outsideTable _ hbuffer => simp [hbuffer] at hopen
  | plain hplain => simp [plainPieces, hkind] at hplain
  | unknown hunknown => simp [hasRendering, hkind] at hunknown
  | mark hmark => simp [tableMark, hkind] at hmark
  | image hother | payload hother | badPayload hother | emptyText hother | bufferedText hother
  | writtenText hother | leaveList hother | leaveSection hother | leaveFrontMatter hother
  | badTitleBlock hother | noPayload hother =>
      rw [hkind] at hother
      cases hother

end

/-! ## Entering a node -/

/-- A container was entered. Its children are rendered below it, and leaving it decides whether it
fits. -/
structure Opens (load : Loader) (options : Options) (above : List Node) (node : Node)
    (run entered : Run) : Prop where
  leaf : node.kind.isLeaf = false
  image : node.kind ≠ .image
  inside : Within (node :: above) entered.state
  leave : ∀ {ends left answer after}, (HoldsRowEnd above node ↔ EndsRow node ∨ ends) →
    Carried ends entered.state left.state → Visited load options left node .leave answer after →
    Decides (Fits above node) (EndsRow node ∨ ends) run.state answer after

/-- Entering a node fails, or makes its end, or opens it. -/
inductive Enters (load : Loader) (options : Options) (above : List Node) (node : Node)
    (run : Run) : Except RenderError Step → Run → Prop
  | fails {error entered} (hfits : ¬ Fits above node) (hreported : IsReported error) :
      Enters load options above node run (.error error) entered
  | ends {step entered}
      (hend : node.kind.isLeaf = true ∧ step = .next ∨ node.kind = .image ∧ step = .skipChildren)
      (hfits : Fits above node) (hcarried : Carried (EndsRow node) run.state entered.state) :
      Enters load options above node run (.ok step) entered
  | opens {entered} (hopens : Opens load options above node run entered) :
      Enters load options above node run (.ok .next) entered

section

variable {load : Loader} {options : Options} {above : List Node} {node : Node}
  {run entered : Run} {answer : Except RenderError Step}

theorem Ordinary.opens (hordinary : Ordinary options above node)
    (hwithin : Within above run.state) (hcarried : Carried False run.state entered.state) :
    Opens load options above node run entered where
  leaf := hordinary.leaf
  image := hordinary.image
  inside := (hcarried.within hwithin).cons hordinary.list hordinary.table
  leave _ hinside hrule := by
    refine hordinary.decides_leave hwithin ?_ hrule
    exact (hcarried.trans hinside).congr (by simp)

/-- Leaves and images fit everywhere. -/
theorem fits_end (hend : node.kind.isLeaf = true ∨ node.kind = .image)
    (hrendering : hasRendering node.kind = true) : Fits above node := by
  refine ⟨hrendering, ?_, ?_, ?_, ?_⟩
  · intro hkind
    simp [hkind, Kind.isLeaf] at hend
  · rintro (hkind | hkind) <;> simp [hkind, Kind.isLeaf] at hend
  · intro hkind
    simp [hkind, Kind.isLeaf] at hend
  · intro hkind
    simp [hkind, Kind.isLeaf] at hend

/-- Dropping spaces keeps line feeds. -/
theorem lineFeed_mem_dropSpaces (text : String) :
    '\n' ∈ (Text.dropSpaces text).toList ↔ '\n' ∈ text.toList := by
  rw [Text.dropSpaces, String.toList_ofList]
  induction text.toList with
  | nil => rfl
  | cons c rest ih =>
      rw [List.dropWhile_cons]
      split
      · simp_all
      · rfl

/-- A text is entered, and ends a row if it holds a line feed. -/
theorem enters_text (hkind : node.kind = .text)
    (hcarried : Carried ('\n' ∈ node.literal.toList) run.state entered.state) :
    Enters load options above node run (.ok .next) entered := by
  have hleaf : node.kind.isLeaf = true := by
    rw [hkind]
    rfl
  refine .ends (.inl ⟨hleaf, rfl⟩) (fits_end (.inl hleaf) (by rw [hkind]; rfl)) ?_
  exact hcarried.congr (by simp [EndsRow, hkind])

/-- What needs nothing of what is remembered is entered. -/
theorem enters_plain {pieces : List Troff.Piece} (hplain : plainPieces node .enter = some pieces)
    (hwithin : Within above run.state) :
    Enters load options above node run (.ok .next) (run.add pieces) := by
  obtain ⟨⟨hrendering, htext, himage⟩, hlist, htable, hheading, hitem⟩ :=
    kind_of_plainPieces hplain
  have hcarried : Carried False run.state (run.add pieces).state := .refl hwithin.consuming
  cases hleaf : node.kind.isLeaf with
  | true =>
      have hrow : node.kind ≠ .tableRow := by
        intro hkind
        simp [hkind, Kind.isLeaf] at hleaf
      refine .ends (.inl ⟨hleaf, rfl⟩) (fits_end (.inl hleaf) hrendering) (hcarried.congr ?_)
      simp [EndsRow, htext, hrow]
  | false =>
      have hordinary : Ordinary options above node := by
        refine ⟨hleaf, himage, hlist, htable, hrendering, ?_, fun hkind => absurd hkind hheading⟩
        intro hkind
        simp [hkind] at hitem
      exact .opens (hordinary.opens hwithin hcarried)

/-- Entering a node below nodes that the state agrees with. -/
theorem enters (hfront : node.kind = .heading → isFrontMatter options node = false)
    (hwithin : Within above run.state)
    (hrule : Visited load options run node .enter answer entered) :
    Enters load options above node run answer entered := by
  have hrefl := Carried.refl hwithin.consuming
  cases hrule with
  | plain hplain => exact enters_plain hplain hwithin
  | unknown hkind =>
      refine .fails (fun hfits => ?_) ⟨.unknownNode, rfl, by decide⟩
      have hrendering := hfits.rendering
      simp [hkind] at hrendering
  | image hkind =>
      refine .ends (.inr ⟨hkind, rfl⟩) (fits_end (.inr hkind) ?_) (hrefl.congr ?_)
      · simp [hkind, hasRendering]
      · simp [EndsRow, hkind]
  | payload _ hconsuming => simp [hwithin.consuming] at hconsuming
  | badPayload _ hconsuming => simp [hwithin.consuming] at hconsuming
  | emptyText hkind _ hliteral => exact enters_text hkind (hrefl.congr (by simp [hliteral]))
  | bufferedText hkind _ _ hbuffer =>
      refine enters_text hkind ((hrefl.append hbuffer).congr ?_)
      rw [or_false, lineFeed_mem_dropSpaces]
  | writtenText hkind _ _ hbuffer =>
      exact enters_text hkind ⟨hrefl.consuming, rfl, rfl, by simp [hbuffer]⟩
  | enterTable hkind hclosed =>
      refine .opens ⟨by simp [hkind, Kind.isLeaf], by simp [hkind], ?_, ?_⟩
      · exact ⟨hwithin.consuming, by simp [hwithin.list, hkind], by simp [hkind]⟩
      · intro ends left answer after hends hcarried hrule
        have hrow : HoldsRowEnd above node ↔ ends := by simpa [EndsRow, hkind] using hends
        exact decides_leaveTable hkind hclosed hwithin hcarried hrow hrule
  | nestedTable hkind hbuffer =>
      refine .fails (fun hfits => ?_) ⟨.rendering, rfl, by decide⟩
      obtain ⟨outer, hmem, houter⟩ := hwithin.table.mp (by simp [hbuffer])
      exact hfits.table hkind outer hmem houter
  | enterList hkind =>
      refine .opens ⟨by simp [hkind, Kind.isLeaf], by simp [hkind], ?_, ?_⟩
      · exact ⟨hwithin.consuming, by simp [hkind], by simp [hwithin.table, hkind]⟩
      · intro ends left answer after _ hcarried hrule
        exact decides_leaveList hkind hcarried hrule
  | enterItem hkind hcounters =>
      have hlist := hwithin.list.mp (by simp [hcounters])
      have hordinary : Ordinary options above node := by
        refine ⟨?_, ?_, ?_, ?_, ?_, fun _ => hlist, ?_⟩ <;>
          simp [hkind, Kind.isLeaf, hasRendering]
      refine .opens (hordinary.opens hwithin ?_)
      exact ⟨hrefl.consuming, by simp [hcounters], hrefl.table, hrefl.rowEnded⟩
  | outsideList hkind hcounters =>
      refine .fails (fun hfits => ?_) ⟨.rendering, rfl, by decide⟩
      exact hwithin.list.mpr (hfits.item hkind) hcounters
  | repeatedFrontMatter hkind hfront' => simp [hfront hkind] at hfront'
  | enterFrontMatter hkind hfront' => simp [hfront hkind] at hfront'
  | enterSection hkind =>
      have hordinary : Ordinary options above node := by
        refine ⟨?_, ?_, ?_, ?_, ?_, ?_, hfront⟩ <;> simp [hkind, Kind.isLeaf, hasRendering]
      refine .opens (hordinary.opens hwithin ?_)
      exact ⟨rfl, hrefl.counters, hrefl.table, hrefl.rowEnded⟩

end

end Manuscript.Render
