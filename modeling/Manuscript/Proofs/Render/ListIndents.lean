import Manuscript.Proofs.Document.Places
import Manuscript.Proofs.Document.Span
import Manuscript.Proofs.Render.ItemLabels
import Manuscript.Proofs.Render.Memory

/-! # Indentation of lists

Entering a list that stands in another one indents, and leaving any list takes an
indentation back. The requests are those of the lists of the tree without the
headings that are passed over, in the order of the walk. So they cancel out in
every list that stands in another one, and each list that stands in no other one
leaves one request to go back over (`indents_of_lists`).
-/

namespace Manuscript

open Render Troff

namespace Render

/-- A piece is a request to indent or to go back. -/
def isIndent (piece : Piece) : Bool :=
  piece.isNamed Request.indentStart || piece.isNamed Request.indentEnd

/-- How far output is indented: the requests to indent, less those to go back. -/
def indentLevel (pieces : List Piece) : Int :=
  (named Request.indentStart pieces).length - (named Request.indentEnd pieces).length

/-- What a list writes when it is entered, given whether it stands in another list. -/
def listStart (inList : Bool) : List Piece := if inList then [Troff.indent] else []

/-- A place of a list that stands in no other list. -/
def isOutermostList (place : List Node × Node) : Bool :=
  place.2.kind = .list && !place.1.any (·.kind = .list)

end Render

namespace Node

mutual

/-- The requests to indent and to go back of the lists in a tree, given whether it stands in a
list. -/
def indents (inList : Bool) : Node → List Piece
  | ⟨kind, _, _, _, _, _, children⟩ =>
    if kind.isLeaf || kind == .image then []
    else if kind = .list then listStart inList ++ indentsAll true children ++ [Troff.outdent]
    else indentsAll inList children

/-- The requests of the lists in a forest. -/
def indentsAll (inList : Bool) : List Node → List Piece
  | [] => []
  | child :: rest => child.indents inList ++ indentsAll inList rest

end

section

variable {node : Node} {inList : Bool}

theorem indents_eq (inList : Bool) (node : Node) :
    node.indents inList =
      if node.kind.isLeaf || node.kind == .image then []
      else if node.kind = .list then
        listStart inList ++ indentsAll true node.children ++ [Troff.outdent]
      else indentsAll inList node.children := by
  cases node
  rfl

/-- Leaves and images indent nothing. -/
theorem indents_end (hend : node.kind.isLeaf = true ∨ node.kind = .image) :
    node.indents inList = [] := by
  rw [indents_eq, if_pos (by simpa using hend)]

/-- A list indents if it is inside a list, and goes back at its end. -/
theorem indents_list (hkind : node.kind = .list) :
    node.indents inList = listStart inList ++ indentsAll true node.children ++ [Troff.outdent] := by
  rw [indents_eq, if_neg (by rw [hkind]; decide), if_pos hkind]

theorem indents_other (hleaf : node.kind.isLeaf = false) (himage : node.kind ≠ .image)
    (hkind : node.kind ≠ .list) : node.indents inList = indentsAll inList node.children := by
  rw [indents_eq, if_neg (by simp [hleaf, himage]), if_neg hkind]

theorem indentsAll_singleton (inList : Bool) (node : Node) :
    indentsAll inList [node] = node.indents inList := by
  rw [indentsAll, indentsAll, List.append_nil]

theorem indentsAll_append (inList : Bool) (first second : List Node) :
    indentsAll inList (first ++ second) = indentsAll inList first ++ indentsAll inList second := by
  induction first with
  | nil => rfl
  | cons child rest ih => rw [List.cons_append, indentsAll, indentsAll, ih, List.append_assoc]

end

end Node

namespace Render

/-! ## Counting the requests -/

theorem named_filter_isIndent {name : String}
    (hname : name = Request.indentStart ∨ name = Request.indentEnd) (pieces : List Piece) :
    named name (pieces.filter isIndent) = named name pieces := by
  rw [named, named, List.filter_filter]
  congr 1
  funext piece
  rcases hname with rfl | rfl <;> cases hnamed : piece.isNamed _ <;> simp [isIndent, hnamed]

/-- Levels of indentation add up. -/
theorem indentLevel_append (first second : List Piece) :
    indentLevel (first ++ second) = indentLevel first + indentLevel second := by
  simp only [indentLevel, named_append, List.length_append]
  omega

/-- Only requests to indent and to go back count for the level. -/
theorem indentLevel_filter (pieces : List Piece) :
    indentLevel (pieces.filter isIndent) = indentLevel pieces := by
  rw [indentLevel, named_filter_isIndent (.inl rfl), named_filter_isIndent (.inr rfl), indentLevel]

theorem ne_list_of_end {node : Node} (hend : node.kind.isLeaf = true ∨ node.kind = .image) :
    node.kind ≠ .list := by
  intro hlist
  simp [hlist, Kind.isLeaf] at hend

theorem indentLevel_listStart (inList : Bool) :
    indentLevel (listStart inList) = if inList then 1 else 0 := by
  cases inList <;> rfl

theorem indentLevel_outdent : indentLevel [Troff.outdent] = -1 := rfl

theorem indentLevel_indentsAll {inList : Bool} {above nodes : List Node}
    (hnodes : ∀ child ∈ nodes,
      indentLevel (child.indents inList) = -(child.places above).countP isOutermostList) :
    indentLevel (Node.indentsAll inList nodes) =
      -(Node.placesAll above nodes).countP isOutermostList := by
  induction nodes with
  | nil => rfl
  | cons child rest ih =>
      obtain ⟨hchild, hrest⟩ := List.forall_mem_cons.mp hnodes
      rw [Node.indentsAll, Node.placesAll, indentLevel_append, List.countP_append, hchild, ih hrest]
      omega

/-- The lists that stand in no other one are those that go back further than they indented. -/
theorem indentLevel_indents (above : List Node) (node : Node) :
    indentLevel (node.indents (above.any (·.kind = .list))) =
      -(node.places above).countP isOutermostList := by
  induction node using Node.induction generalizing above with
  | step node ih =>
      have hbelow := indentLevel_indentsAll fun child hchild => ih child hchild (node :: above)
      rw [List.any_cons] at hbelow
      by_cases hend : node.kind.isLeaf = true ∨ node.kind = .image
      · have hlist := ne_list_of_end hend
        rw [Node.indents_end hend, Node.places_end hend]
        simp [isOutermostList, hlist, indentLevel]
      · obtain ⟨hleaf, himage⟩ : node.kind.isLeaf = false ∧ node.kind ≠ .image := by
          simpa using hend
        rw [Node.places_container hleaf himage, List.countP_cons]
        by_cases hlist : node.kind = .list
        · -- What a list in a list writes cancels out, so that only an outermost one is counted.
          simp only [hlist, decide_true, Bool.true_or] at hbelow
          rw [Node.indents_list hlist, indentLevel_append, indentLevel_append, hbelow,
            indentLevel_listStart, indentLevel_outdent]
          have houtermost : isOutermostList (above, node) = !above.any (·.kind = .list) := by
            simp [isOutermostList, hlist]
          rw [houtermost]
          cases above.any (·.kind = .list) <;>
            · simp only [Bool.not_false, Bool.not_true, Bool.false_eq_true, if_true, if_false]
              omega
        · simp only [hlist, decide_false, Bool.false_or] at hbelow
          rw [Node.indents_other hleaf himage hlist, hbelow]
          simp [isOutermostList, hlist]

/-! ## What visits write -/

/-- The requests to indent and to go back that a visit writes, given whether a list is open. -/
def indentsAt (node : Node) (phase : Phase) (inList : Bool) : List Piece :=
  match node.kind, phase with
  | .list, .enter => listStart inList
  | .list, .leave => [Troff.outdent]
  | _, _ => []

section

variable {load : Loader} {options : Options} {node : Node} {phase : Phase} {run after : Run}
  {step : Step}

theorem indentsAt_other (hkind : node.kind ≠ .list) (phase : Phase) (inList : Bool) :
    indentsAt node phase inList = [] := by
  simp [indentsAt, hkind]

theorem filter_isIndent_eq_nil {pieces : List Piece}
    (hstart : named Request.indentStart pieces = []) (hend : named Request.indentEnd pieces = []) :
    pieces.filter isIndent = [] := by
  rw [named, List.filter_eq_nil_iff] at hstart hend
  rw [List.filter_eq_nil_iff]
  intro piece hmem
  simp [isIndent, hstart piece hmem, hend piece hmem]

/-- Only lists indent. -/
theorem filter_isIndent_plainPieces {pieces : List Piece}
    (hplain : plainPieces node phase = some pieces) : pieces.filter isIndent = [] := by
  unfold plainPieces at hplain
  split at hplain <;> cases hplain <;> rfl

/-- No title block indents. -/
theorem filter_isIndent_titleBlock (block : TitleBlock) :
    (requests (titleBlock block)).1.filter isIndent = [] := by
  apply filter_isIndent_eq_nil <;> exact named_titleBlock_eq_nil (by decide) block

/-- Lists alone indent and go back. -/
theorem filter_isIndent_writes (options : Options) (node : Node) (phase : Phase) (state : State) :
    (writes options node phase state).filter isIndent =
      indentsAt node phase (!state.counters.isEmpty) := by
  obtain hplain | ⟨pieces, hplain⟩ := (plainPieces node phase).eq_none_or_eq_some
  case inr =>
    have hlist : node.kind ≠ .list := (kind_of_plainPieces hplain).2.1
    rw [writes_of_plain hplain, filter_isIndent_plainPieces hplain, indentsAt_other hlist]
  unfold writes
  split
  next hkind =>
    simp only [indentsAt, hkind]
    split <;> rfl
  next hkind =>
    simp only [indentsAt, hkind]
    cases state.tableBuffer with
    | none => rfl
    | some buffer =>
        cases hlayout : Table.layout buffer with
        | error e => simp [Troff.table, hlayout, Except.map]
        | ok layout =>
            simp only [Option.map_some, Troff.table, hlayout, Except.map]
            apply filter_isIndent_eq_nil <;> exact named_tableDisplay (by decide) layout
  next hkind =>
    simp only [indentsAt, hkind]
    cases state.counters <;> rfl
  next hkind =>
    simp only [indentsAt, hkind]
    rfl
  next hkind =>
    simp only [indentsAt, hkind]
    cases state.counters <;> rfl
  next hkind =>
    simp only [indentsAt, hkind]
    split <;> rfl
  next hkind =>
    simp only [indentsAt, hkind]
    split
    · cases state.titleBlock with
      | none => rfl
      | some block => exact filter_isIndent_titleBlock block
    · rfl
  next hentered hleft _ _ _ =>
    rw [hplain]
    unfold indentsAt
    split <;> simp_all

/-! ## Rendering and indentation -/

/-- The requests to indent and to go back among what was written. -/
def Run.indents (run : Run) : List Piece := run.written.toList.filter isIndent

/-- What is known about whether a list is open. -/
def Run.inList (run : Run) : Bool := !run.state.counters.isEmpty

variable (options) in
/-- Rendering nodes led from one run to the other and wrote the requests of their lists. -/
structure Indented (nodes : List Node) (run after : Run) : Prop where
  lists : after.state.counters.length = run.state.counters.length
  search : after.state.search = (Node.withoutRepeatedAll options run.state.search nodes).2
  indents : after.indents = run.indents ++
    Node.indentsAll run.inList (Node.withoutRepeatedAll options run.state.search nodes).1

/-- A visit writes the indents of its node. -/
theorem Visited.indents_eq (hrule : Visited load options run node phase (.ok step) after) :
    after.indents = run.indents ++ indentsAt node phase run.inList := by
  rw [Run.indents, hrule.written_eq, List.filter_append, filter_isIndent_writes]
  rfl

theorem Run.inList_eq (hlists : after.state.counters.length = run.state.counters.length) :
    after.inList = run.inList := by
  have hempty : after.state.counters.isEmpty ↔ run.state.counters.isEmpty := by
    rw [List.isEmpty_iff_length_eq_zero, List.isEmpty_iff_length_eq_zero, hlists]
  rw [inList, inList, Bool.eq_iff_iff.mpr hempty]

theorem Indented.nil : Indented options [] run run :=
  ⟨rfl, rfl, (List.append_nil _).symm⟩

theorem Indented.cons {first : Node} {rest : List Node} {between : Run}
    (hfirst : Indented options [first] run between) (hrest : Indented options rest between after) :
    Indented options (first :: rest) run after := by
  have hin : between.inList = run.inList := Run.inList_eq hfirst.lists
  have hsearch : between.state.search = (first.withoutRepeated options run.state.search).2 :=
    hfirst.search
  have hhere : between.indents = run.indents ++
      Node.indentsAll run.inList (first.withoutRepeated options run.state.search).1 := by
    rw [hfirst.indents, Node.withoutRepeatedAll, Node.withoutRepeatedAll, List.append_nil]
  refine ⟨hrest.lists.trans hfirst.lists, ?_, ?_⟩
  · rw [hrest.search, hsearch, Node.withoutRepeatedAll]
  · rw [hrest.indents, hin, hsearch, hhere, Node.withoutRepeatedAll, Node.indentsAll_append,
      List.append_assoc]

/-- Leaving a list leaves as many lists open as there were before it was entered. -/
theorem length_countersAfter {counters below : List Nat}
    (hbelow : below.length = (countersAfter node .enter counters).length) :
    (countersAfter node .leave below).length = counters.length := by
  unfold countersAfter at hbelow ⊢
  cases hkind : node.kind <;> simp_all

theorem indented_end (hover : run.state.search.passesOver options node = false)
    (hend : node.kind.isLeaf = true ∨ node.kind = .image)
    (hrule : Visited load options run node .enter (.ok step) after) :
    Indented options [node] run after := by
  have hlist := ne_list_of_end hend
  refine ⟨?_, ?_, ?_⟩
  · rw [hrule.counters_eq]
    unfold countersAfter
    split <;> simp_all
  · rw [hrule.search_eq, Node.withoutRepeatedAll_singleton, Node.withoutRepeated_end hover hend]
  · rw [hrule.indents_eq, Node.withoutRepeatedAll_singleton, Node.withoutRepeated_end hover hend,
      Node.indentsAll_singleton, Node.indents_end hend, indentsAt_other hlist]

theorem indented_over (hover : run.state.search.passesOver options node = true)
    (hstate : after.state = run.state) (hwritten : after.written = run.written) :
    Indented options [node] run after := by
  refine ⟨by rw [hstate], ?_, ?_⟩
  · rw [hstate, Node.withoutRepeatedAll_singleton, Node.withoutRepeated_over hover]
  · rw [Run.indents, hwritten, Node.withoutRepeatedAll_singleton, Node.withoutRepeated_over hover]
    exact (List.append_nil _).symm

theorem indented_container {entered left : Run} {enterStep leaveStep : Step}
    (hover : run.state.search.passesOver options node = false)
    (hleaf : node.kind.isLeaf = false) (himage : node.kind ≠ .image)
    (henter : Visited load options run node .enter (.ok enterStep) entered)
    (hbelow : Indented options node.children entered left)
    (hleave : Visited load options left node .leave (.ok leaveStep) after) :
    Indented options [node] run after := by
  have hlists : left.state.counters.length =
      (countersAfter node .enter run.state.counters).length := by
    rw [hbelow.lists, henter.counters_eq]
  have hsearch := henter.search_eq
  refine ⟨?_, ?_, ?_⟩
  · rw [hleave.counters_eq]
    exact length_countersAfter hlists
  · rw [hleave.search_eq, hbelow.search, hsearch, Node.withoutRepeatedAll_singleton,
      Node.withoutRepeated_container hover hleaf himage]
  · rw [hleave.indents_eq, hbelow.indents, henter.indents_eq, hsearch,
      Node.withoutRepeatedAll_singleton, Node.withoutRepeated_container hover hleaf himage,
      Node.indentsAll_singleton]
    by_cases hlist : node.kind = .list
    · have hin : entered.inList = true := by
        rw [Run.inList, henter.counters_eq]
        simp [countersAfter, hlist]
      rw [Node.indents_list (by exact hlist), hin]
      simp [indentsAt, hlist]
    · have hin : entered.inList = run.inList := by
        apply Run.inList_eq
        rw [henter.counters_eq]
        unfold countersAfter
        split <;> simp_all
      rw [Node.indents_other (by exact hleaf) (by exact himage) (by exact hlist), hin,
        indentsAt_other hlist, indentsAt_other hlist, List.append_nil, List.append_nil]

variable (load options) in
/-- Rendering a node writes the requests of its lists. -/
def WritesIndents (node : Node) : Prop :=
  ∀ {run after : Run} {step : Step},
    (node.descend (visitWith load options)).runFrom run = (.ok step, after) → step ≠ .stop →
    Indented options [node] run after

/-- The trees of a forest write their indents one after the other. -/
theorem indented_forest {nodes : List Node}
    (hnodes : ∀ child ∈ nodes, WritesIndents load options child) (hstep : step ≠ .stop)
    (hrun : (Node.descendAll (visitWith load options) nodes).runFrom run = (.ok step, after)) :
    Indented options nodes run after := by
  induction nodes generalizing run with
  | nil =>
      cases hrun
      exact .nil
  | cons first rest ih =>
      obtain ⟨hfirst, hrest⟩ := List.forall_mem_cons.mp hnodes
      rw [Node.descendAll_cons] at hrun
      obtain ⟨_, between, hhere, hgo, hothers⟩ := Action.runFrom_goOn_ok hstep hrun
      exact (hfirst hhere hgo).cons (ih hrest hothers)

/-- Every node writes the indents of the tree without what is passed over. -/
theorem writesIndents (node : Node) : WritesIndents load options node := by
  induction node using Node.induction with
  | step node ih =>
      intro run after step hrun hstep
      cases renders_of_ok hstep hrun with
      | passed hover hstate hwritten => exact indented_over hover hstate hwritten
      | once hover hend hrule => exact indented_end hover hend hrule
      | container hover hleaf himage henter hbelow hgo hleave =>
          exact indented_container hover hleaf himage henter (indented_forest ih hgo hbelow) hleave

end

/-! ## Along a walk -/

/-- How many lists were entered while no list was open. -/
def outermostLists : History RenderError Run → Nat
  | [] => 0
  | v :: earlier =>
    outermostLists earlier +
      if v.node.kind = .list ∧ v.phase = .enter ∧ openOf .list earlier = [] then 1 else 0

section

variable {load : Loader} {options : Options} {root node : Node} {run after : Run}
  {pending rest : Pending} {history inside earlier : History RenderError Run} {phase : Phase}
  {entered left : Visit RenderError Run}

/-- The rendering knows whether a list is open. -/
theorem Remembers.inList_eq (hremembers : Remembers options history run.state) :
    run.inList = !(openOf .list history).isEmpty := by
  rw [Run.inList, hremembers.counters, itemCounts]
  cases openOf .list history <;> rfl

theorem next_of_enterList {step : Step} (hkind : node.kind = .list)
    (hrule : Visited load options run node .enter (.ok step) after) : step = .next := by
  rcases hrule.next_or_skip with ⟨hnext, -⟩ | ⟨-, -, -, himage | hover⟩
  · exact hnext
  · cases hkind.symm.trans himage
  · cases hkind.symm.trans (TitleSearch.heading_of_passesOver hover)

theorem outermostLists_enter (hkind : node.kind = .list) (answer : Except RenderError Step) :
    outermostLists (⟨node, .enter, run, answer⟩ :: history) =
      outermostLists history + if (openOf .list history).isEmpty then 1 else 0 := by
  rw [outermostLists]
  simp [hkind]

/-- Output is indented once for each open list, but for those that stand in no other list. -/
theorem indentLevel_of_underway
    (hunderway : Underway (visitWith load options) root (Renderer.start options) pending history
      run) :
    indentLevel run.written.toList = (openOf .list history).length - outermostLists history := by
  induction hunderway with
  | start =>
      rw [Renderer.start_written]
      split <;> rfl
  | @step node phase rest history run after step hbefore hrun _ ih =>
      have hin := (remembers_of_underway hbefore).inList_eq
      rw [(visited hrun).written_eq, indentLevel_append, ih, ← indentLevel_filter (writes _ _ _ _),
        filter_isIndent_writes, ← Run.inList, hin]
      by_cases hlist : node.kind = .list
      · cases phase with
        | enter =>
            cases next_of_enterList hlist (visited hrun)
            rw [openOf_enter .list hlist rfl, outermostLists_enter hlist, List.length_cons]
            simp only [indentsAt, hlist, indentLevel_listStart]
            cases (openOf .list history).isEmpty <;>
              · simp only [Bool.not_false, Bool.not_true, Bool.false_eq_true, if_true, if_false]
                omega
        | leave =>
            obtain ⟨since, hopen⟩ := hbefore.openOf_leave .list hlist (.ok step)
            rw [hopen, outermostLists, if_neg (by simp), List.length_cons]
            simp only [indentsAt, hlist, indentLevel_outdent]
            omega
      · rw [hbefore.openOf_other .list hlist, indentsAt_other hlist, outermostLists]
        simp [hlist, indentLevel]

/-- In a list that stands in another one, every list stands in another one. -/
theorem outermostLists_of_spans (hspans : Spans history entered inside left earlier)
    (hopen : openOf .list earlier ≠ []) {later before : History RenderError Run}
    (hinside : inside = later ++ before) :
    outermostLists (before ++ entered :: earlier) = outermostLists earlier := by
  induction before generalizing later with
  | nil => simp [outermostLists, hopen]
  | cons v before ih =>
      -- The lists that were open before the list was entered are open throughout.
      have hrest : inside = (later ++ [v]) ++ before := by simp [hinside]
      have hlists := (hspans.suffix_openNodes hrest).filter (·.node.kind = .list)
      have hsome : openOf .list (before ++ entered :: earlier) ≠ [] := by
        intro hnone
        rw [← openOf, hnone, List.suffix_nil, List.filter_cons] at hlists
        split at hlists
        · cases hlists
        · exact hopen hlists
      rw [List.cons_append, outermostLists, ih hrest, if_neg (by simp [hsome]), Nat.add_zero]

/-- Whatever is visited in a list that stands in another one is written further in than the list
was entered. -/
theorem indentLevel_lt_of_spans
    (hspans : Spans (historyOf (visitWith load options) root (Renderer.start options)) entered
      inside left earlier)
    (hkind : entered.node.kind = .list) (hopen : openOf .list earlier ≠ [])
    {v : Visit RenderError Run} (hmem : v ∈ left :: inside) :
    indentLevel entered.before.written.toList < indentLevel v.before.written.toList := by
  obtain ⟨later, before, hinside, hsuffix⟩ : ∃ later before, inside = later ++ before ∧
      v :: (before ++ entered :: earlier) <:+
        historyOf (visitWith load options) root (Renderer.start options) := by
    rcases List.mem_cons.mp hmem with rfl | hmem
    · exact ⟨[], inside, rfl, hspans.suffix⟩
    · obtain ⟨later, before, hinside⟩ := List.append_of_mem hmem
      exact ⟨later ++ [v], before, by simp [hinside], hspans.suffix_inside hinside⟩
  obtain ⟨_, hbefore⟩ := (makes_of_suffix hsuffix).underway
  obtain ⟨_, hfirst⟩ := (makes_of_suffix hspans.suffix_entered).underway
  have hlists := ((hspans.suffix_openNodes hinside).filter (·.node.kind = .list)).length_le
  rw [List.filter_cons, if_pos (by simpa using hkind), List.length_cons, ← openOf, ← openOf]
    at hlists
  rw [indentLevel_of_underway hbefore, indentLevel_of_underway hfirst,
    outermostLists_of_spans hspans hopen hinside]
  omega

/-- When the list is left, the output is as far in as where it was entered. -/
theorem indentLevel_left_of_spans
    (hspans : Spans (historyOf (visitWith load options) root (Renderer.start options)) entered
      inside left earlier)
    (hopen : openOf .list earlier ≠ []) {step : Step}
    (hrun : (visitWith load options left.node .leave).runFrom left.before = (.ok step, after)) :
    indentLevel after.written.toList = indentLevel entered.before.written.toList := by
  obtain ⟨_, hbefore⟩ := (makes_of_suffix hspans.suffix).underway
  obtain ⟨_, hfirst⟩ := (makes_of_suffix hspans.suffix_entered).underway
  rw [hspans.leave] at hbefore
  have hstep : step ≠ .stop := fun hstop => (visited hrun).ne_stop (congrArg _ hstop)
  have hafter := indentLevel_of_underway (hbefore.step hrun hstep)
  have hclosed : openOf .list (⟨left.node, .leave, left.before, .ok step⟩ ::
      (inside ++ entered :: earlier)) = openOf .list earlier := by
    simp only [openOf, openNodes, hspans.closes, List.tail_cons]
  rw [hafter, hclosed, outermostLists,
    outermostLists_of_spans hspans hopen (List.nil_append _).symm, indentLevel_of_underway hfirst]
  simp

/-- What a visit of a list writes is its indents. -/
theorem writes_list (hkind : node.kind = .list) (options : Options) (phase : Phase)
    (state : State) : writes options node phase state =
      indentsAt node phase (!state.counters.isEmpty) := by
  cases phase <;> simp only [writes, indentsAt, hkind]
  cases state.counters <;> rfl

/-- A list writes its request on entering it if one of the nodes above it is a list, and always on
leaving it. -/
theorem exists_visit_list
    (hunderway : Underway (visitWith load options) root (Renderer.start options)
      ((node, phase) :: rest) history run)
    (hkind : node.kind = .list) {step : Step}
    (hrun : (visitWith load options node phase).runFrom run = (.ok step, after)) :
    step = .next ∧ ∃ outer, Reaches [] root outer node ∧
      (openNodes history).map OpenNode.node = openAt node outer phase ∧
      after.written.toList =
        run.written.toList ++ indentsAt node phase (outer.any (·.kind = .list)) := by
  obtain ⟨outer, hreaches, hopen⟩ := hunderway.exists_reaches (passesOverImages load options)
  have hrule := visited hrun
  have hin := (remembers_of_underway hunderway).inList_eq
  have hwritten := hrule.written_eq
  rw [writes_list hkind, ← Run.inList, hin] at hwritten
  cases phase with
  | leave =>
      refine ⟨hrule.eq_next_of_leave (by simp [hkind]), outer, hreaches, hopen, ?_⟩
      rw [hwritten]
      simp only [indentsAt, hkind]
  | enter =>
      refine ⟨next_of_enterList hkind hrule, outer, hreaches, hopen, ?_⟩
      have hany : (!(openOf .list history).isEmpty) = outer.any (·.kind = .list) := by
        have houter : (openNodes history).map OpenNode.node = outer := hopen
        rw [← houter, Bool.eq_iff_iff]
        simp [openOf]
      rw [hwritten, hany]

end

/-- Rendering writes the requests of the lists in the tree without the headings that are passed
over. -/
theorem filter_isIndent_rendered {load : Loader} {renderer : Renderer} {root : Node} {final : Run}
    (hwalk : (walk (visitWith load renderer.options) root).runFrom
      (Renderer.start renderer.options) = (.ok .next, final)) :
    (renderer.renderWith load root).written.filter isIndent =
      Node.indentsAll false (root.withoutRepeated renderer.options .idle).1 := by
  have hstart : (Renderer.start renderer.options).indents = [] := by
    rw [Run.indents, Renderer.start_written]
    split <;> rfl
  have hnone : (Renderer.start renderer.options).inList = false := by
    rw [Run.inList, Renderer.start_state]
    rfl
  have hrun := hwalk
  rw [walk_eq_descend] at hrun
  have hindents := (writesIndents root hrun (by decide)).indents
  rw [hstart, hnone, Renderer.start_state, Node.withoutRepeatedAll_singleton, List.nil_append]
    at hindents
  have hend : [Troff.signature].filter isIndent = [] := rfl
  rw [Renderer.renderWith_ok hwalk, List.filter_append, hend, List.append_nil]
  exact hindents

/-- The requests to indent and to go back are those of the lists that are reached in the tree
without the headings that are passed over, in the order of the walk. Each list that stands in no
other list leaves one request to go back over. A list that is visited goes back when it is left, and
indents when it is entered if it is below another list. In a list that is below another one the
output is always further in than where the list was entered, and when the list is left the output
is there again. -/
theorem indents_of_lists (load : Loader) (renderer : Renderer) (root : Node)
    (hresult : (renderer.renderWith load root).result = .ok ()) :
    let history := renderer.historyWith load root
    let kept := (root.withoutRepeated renderer.options .idle).1
    let written := (renderer.renderWith load root).written
    written.filter isIndent = Node.indentsAll false kept ∧
    indentLevel written = -(Node.placesAll [] kept).countP isOutermostList ∧
    (∀ v earlier, v :: earlier <:+ history → v.node.kind = .list →
      ∃ outer after, Reaches [] root outer v.node ∧
        (openNodes earlier).map OpenNode.node = openAt v.node outer v.phase ∧
        (visitWith load renderer.options v.node v.phase).runFrom v.before = (.ok .next, after) ∧
        after.written.toList =
          v.before.written.toList ++ indentsAt v.node v.phase (outer.any (·.kind = .list))) ∧
    ∀ entered inside left earlier, Spans history entered inside left earlier →
      entered.node.kind = .list → openOf .list earlier ≠ [] →
      (∀ v ∈ left :: inside,
        indentLevel entered.before.written.toList < indentLevel v.before.written.toList) ∧
      ∃ after,
        (visitWith load renderer.options left.node .leave).runFrom left.before =
          (.ok .next, after) ∧
        indentLevel after.written.toList = indentLevel entered.before.written.toList := by
  obtain ⟨final, hwalk, -⟩ := Renderer.walk_of_renderWith_ok hresult
  have hdone := underway_historyOf hwalk
  have hwritten := filter_isIndent_rendered hwalk
  refine ⟨hwritten, ?_, ?_, ?_⟩
  · rw [← indentLevel_filter, hwritten]
    exact indentLevel_indentsAll fun child _ => indentLevel_indents [] child
  · intro v earlier hsuffix hkind
    obtain ⟨step, after, -, hvisit⟩ := hdone.ran (hsuffix.mem List.mem_cons_self)
    obtain ⟨⟨_, hunderway⟩, -⟩ := makes_of_suffix hsuffix
    obtain ⟨rfl, outer, hreaches, hopen, hafter⟩ := exists_visit_list hunderway hkind hvisit
    exact ⟨outer, after, hreaches, hopen, hvisit, hafter⟩
  · intro entered inside left earlier hspans hkind hopen
    refine ⟨fun v hmem => indentLevel_lt_of_spans hspans hkind hopen hmem, ?_⟩
    obtain ⟨step, after, -, hleave⟩ := hdone.ran (hspans.suffix.mem List.mem_cons_self)
    rw [hspans.leave] at hleave
    have himage : left.node.kind ≠ .image := by simp [hspans.node_eq, hkind]
    cases (visited hleave).eq_next_of_leave himage
    exact ⟨after, hleave, indentLevel_left_of_spans hspans hopen hleave⟩

/-- Of three lists, the two inside are indented and ended again, and the outer one is ended only. -/
theorem nested_lists_indents :
    (Renderer.renderWith (fun _ => .ok {}) {} nestedLists).result = .ok () ∧
    (Renderer.renderWith (fun _ => .ok {}) {} nestedLists).written.filter isIndent =
      [Troff.indent, Troff.outdent, Troff.indent, Troff.outdent, Troff.outdent] ∧
    indentLevel (Renderer.renderWith (fun _ => .ok {}) {} nestedLists).written = -1 ∧
    ∃ entered inside left earlier after,
      Spans (Renderer.historyWith (fun _ => .ok {}) {} nestedLists) entered inside left earlier ∧
      entered.node.kind = .list ∧ entered.node.children.length = 2 ∧
      (visitWith (fun _ => .ok {}) {} left.node .leave).runFrom left.before = (.ok .next, after) ∧
      indentLevel after.written.toList = indentLevel entered.before.written.toList := by
  have hresult : (Renderer.renderWith (fun _ => .ok {}) {} nestedLists).result = .ok () := by
    rw [Renderer.renderWith, Renderer.document, walk_eq_descend]
    rfl
  obtain ⟨hindents, hlevel, -, hnested⟩ :=
    indents_of_lists (fun _ => .ok {}) {} nestedLists hresult
  refine ⟨hresult, by rw [hindents]; rfl, by rw [hlevel]; rfl, ?_⟩
  -- The list in the quotation is left fifth to last.
  obtain ⟨left, before, hleft, hleave, hkind, hitems, hopen⟩ : ∃ v earlier,
      v :: earlier <:+ Renderer.historyWith (fun _ => .ok {}) {} nestedLists ∧
        v.phase = .leave ∧ v.node.kind = .list ∧ v.node.children.length = 2 ∧
        (openNodes earlier).tail.any (·.node.kind = .list) = true :=
    exists_visit_of_drop 4 ⟨_, _, rfl, by decide, by decide, by decide, by decide⟩
  obtain ⟨entered, inside, earlier, rfl, hspans⟩ := exists_spans hleft hleave
  have hnode := hspans.node_eq
  have houter : openOf .list earlier ≠ [] := by
    rw [hspans.closes, List.tail_cons, List.any_eq_true] at hopen
    obtain ⟨list, hmem, hlist⟩ := hopen
    exact List.ne_nil_of_mem (List.mem_filter.mpr ⟨hmem, hlist⟩)
  rw [hnode] at hkind hitems
  obtain ⟨-, after, hrun, hsame⟩ := hnested entered inside left earlier hspans hkind houter
  exact ⟨entered, inside, left, earlier, after, hspans, hkind, hitems, hrun, hsame⟩

end Render

end Manuscript
