import Manuscript.Proofs.Render.Output
import Manuscript.Proofs.Render.Repeated
import Manuscript.Proofs.Troff.Named

/-! # Labels of items

Where an item stands is told by its number in its list, the number of the item
around that list in its list, and so on. The requests for labels are one for
each item of the tree without the headings that are passed over, in document
order, each with the label that its place gives (`item_labels`).
-/

namespace Manuscript

open Render Troff

namespace Node

mutual

/-- The labels of the items of a tree, in document order, given the numbers of the item that the
root is and of those around it, the innermost first. -/
def itemLabels (place : List Nat) : Node → List String
  | ⟨kind, _, _, _, listStyle, _, children⟩ =>
    (if kind = .listItem then [itemLabel (listStyle.getD {}) place] else []) ++
      if kind.isLeaf || kind == .image then []
      else if kind = .list then listLabels place 1 children
      else forestLabels place children

/-- The labels in a list, given the number of its next item. -/
def listLabels (place : List Nat) (number : Nat) : List Node → List String
  | [] => []
  | item :: rest => item.itemLabels (number :: place) ++ listLabels place (number + 1) rest

/-- The labels in a forest. -/
def forestLabels (place : List Nat) : List Node → List String
  | [] => []
  | child :: rest => child.itemLabels place ++ forestLabels place rest

end

/-- The labels of a node are its own, if it is an item, and those of the nodes below it. -/
theorem itemLabels_eq (place : List Nat) (node : Node) :
    node.itemLabels place =
      (if node.kind = .listItem then [itemLabel (node.listStyle.getD {}) place] else []) ++
        if node.kind.isLeaf || node.kind == .image then []
        else if node.kind = .list then listLabels place 1 node.children
        else forestLabels place node.children := by
  cases node
  rfl

/-- The labels of two forests side by side. -/
theorem forestLabels_append (place : List Nat) (first second : List Node) :
    forestLabels place (first ++ second) =
      forestLabels place first ++ forestLabels place second := by
  induction first with
  | nil => rfl
  | cons child rest ih => rw [List.cons_append, forestLabels, forestLabels, ih, List.append_assoc]

end Node

/-- What is reached is an item exactly if it is a child of a list. -/
def ItemsInLists (above : List Node) (node : Node) : Prop :=
  ∀ outer target, Reaches above node outer target →
    (target.kind = .listItem ↔ ∃ list, outer.head? = some list ∧ list.kind = .list)

theorem ItemsInLists.child {above : List Node} {node child : Node}
    (hitems : ItemsInLists above node) (hleaf : node.kind.isLeaf = false)
    (himage : node.kind ≠ .image) (hchild : child ∈ node.children) :
    ItemsInLists (node :: above) child :=
  fun outer target hreaches => hitems outer target (.child hleaf himage hchild hreaches)

/-- It suffices that in the whole tree the items are the children of lists. -/
theorem itemsInLists_of_children {root : Node} (hroot : root.kind ≠ .listItem)
    (hchildren : ∀ parent ∈ root :: root.descendants, ∀ child ∈ parent.children,
      child.kind = .listItem ↔ parent.kind = .list) : ItemsInLists [] root := by
  intro outer target hreaches
  rcases hreaches.here_or_below with ⟨rfl, rfl⟩ | ⟨parent, others, rfl, htarget, hparent, -⟩
  · simp [hroot]
  · rw [hchildren parent hparent.mem target htarget]
    simp

namespace Render

/-! ## Visits and labels -/

/-- The counters after a visit that does not fail. -/
def countersAfter (node : Node) (phase : Phase) (counters : List Nat) : List Nat :=
  match node.kind, phase with
  | .list, .enter => 0 :: counters
  | .list, .leave => counters.tail
  | .listItem, .enter => counters.modifyHead (· + 1)
  | _, _ => counters

/-- The requests for labels among what was written. -/
def Run.labels (run : Run) : List Piece := named Request.indentedParagraph run.written.toList

section

variable {load : Loader} {options : Options} {node : Node} {phase : Phase} {run after : Run}
  {step : Step}

/-- The counters after a visit that succeeds. -/
theorem Visited.counters_eq (hrule : Visited load options run node phase (.ok step) after) :
    after.state.counters = countersAfter node phase run.state.counters := by
  cases hrule with
  | plain hplain =>
      obtain ⟨-, hlist, -, -, hitem⟩ := kind_of_plainPieces hplain
      rw [Run.state_add]
      unfold countersAfter
      split <;> simp_all
  | mark hmark =>
      rcases kind_of_tableMark hmark with ⟨hkind, -⟩ | ⟨hkind, -⟩ <;> simp [countersAfter, hkind]
  | image hkind | payload hkind | emptyText hkind | bufferedText hkind | writtenText hkind
  | enterTable hkind | leaveTable hkind | enterList hkind | leaveList hkind
  | repeatedFrontMatter hkind | enterFrontMatter hkind | enterSection hkind | leaveSection hkind
  | leaveFrontMatter hkind => simp [countersAfter, hkind]
  | enterItem hkind hcounters => simp [countersAfter, hkind, hcounters]

/-- Only entering an item writes a label. -/
theorem Visited.labels_eq (hrule : Visited load options run node phase (.ok step) after)
    (hitem : node.kind ≠ .listItem ∨ phase = .leave) : after.labels = run.labels := by
  have hnone : named Request.indentedParagraph (writes options node phase run.state) = [] := by
    by_cases hkind : node.kind = .listItem
    · have hleave := hitem.resolve_left (not_not_intro hkind)
      have hplain : plainPieces node phase = some [] := by simp [plainPieces, hkind, hleave]
      rw [writes_of_plain hplain, named_nil]
    · by_cases hheading : node.kind = .heading
      · have htitle : ∀ block,
            named Request.indentedParagraph (requests (titleBlock block)).1 = [] :=
          named_titleBlock_eq_nil (by decide)
        cases phase <;> simp only [writes, hheading] <;> split
        · rfl
        · decide
        · cases run.state.titleBlock with
          | none => rfl
          | some block => exact htitle block
        · rfl
      · exact named_writes_other (by decide) (by decide) hkind hheading run.state
  rw [Run.labels, hrule.written_eq, named_append, hnone, List.append_nil, Run.labels]

/-- Entering an item writes the label of its number. -/
theorem Visited.labels_enterItem (hrule : Visited load options run node .enter (.ok step) after)
    (hkind : node.kind = .listItem) :
    after.labels = run.labels ++ [Troff.indentedParagraph
      (itemLabel (node.listStyle.getD {}) (run.state.counters.modifyHead (· + 1)))] := by
  cases hrule with
  | enterItem _ hcounters =>
      rw [Run.labels, Run.written_add, named_append, hcounters]
      rfl
  | plain hplain => simp [plainPieces, hkind] at hplain
  | image hother | payload hother | emptyText hother | bufferedText hother | writtenText hother
  | enterTable hother | enterList hother | repeatedFrontMatter hother | enterFrontMatter hother
  | enterSection hother =>
      rw [hkind] at hother
      cases hother

end

/-! ## Rendering and labels -/

/-- The numbers of the item that a node is and of those around it, once it is entered. -/
def placeOf (node : Node) (counters : List Nat) : List Nat :=
  if node.kind = .listItem then counters.modifyHead (· + 1) else counters

/-- What rendering a part of a tree does to the counters and to the search, and the labels that it
writes. -/
structure Labelled (before after : Run) (counters : List Nat) (labels : List String)
    (search : TitleSearch) : Prop where
  counters : after.state.counters = counters
  labels : after.labels = before.labels ++ labels.map Troff.indentedParagraph
  search : after.state.search = search

section

variable {load : Loader} {options : Options} {above : List Node} {node : Node} {run entered : Run}
  {after : Run} {step : Step}

variable (options node) in
/-- Rendering a node led from one run to the other and wrote the labels of its items. -/
def LabelledNode (run after : Run) : Prop :=
  let kept := node.withoutRepeated options run.state.search
  Labelled run after (placeOf node run.state.counters)
    (Node.forestLabels (placeOf node run.state.counters) kept.1) kept.2

variable (load options) in
/-- Rendering a node writes the labels of its items. -/
def WritesLabels (node : Node) : Prop :=
  ∀ {run after : Run} {step : Step},
    (node.descend (visitWith load options)).runFrom run = (.ok step, after) → step ≠ .stop →
    LabelledNode options node run after

/-- Nodes that are no items are labelled one after the other in the same place. -/
theorem labelled_forest {nodes : List Node}
    (hnodes : ∀ child ∈ nodes, WritesLabels load options child)
    (hkinds : ∀ child ∈ nodes, child.kind ≠ .listItem) (hstep : step ≠ .stop)
    (hrun : (Node.descendAll (visitWith load options) nodes).runFrom run = (.ok step, after)) :
    Labelled run after run.state.counters
      (Node.forestLabels run.state.counters
        (Node.withoutRepeatedAll options run.state.search nodes).1)
      (Node.withoutRepeatedAll options run.state.search nodes).2 := by
  induction nodes generalizing run with
  | nil =>
      cases hrun
      exact ⟨rfl, by simp [Node.withoutRepeatedAll, Node.forestLabels], rfl⟩
  | cons first rest ih =>
      rw [Node.descendAll_cons] at hrun
      obtain ⟨_, between, hfirst, hgo, hrest⟩ := Action.runFrom_goOn_ok hstep hrun
      have hhere := hnodes first List.mem_cons_self hfirst hgo
      rw [LabelledNode, placeOf, if_neg (hkinds first List.mem_cons_self)] at hhere
      have hothers := ih (fun child hmem => hnodes child (List.mem_cons_of_mem _ hmem))
        (fun child hmem => hkinds child (List.mem_cons_of_mem _ hmem)) hrest
      rw [hhere.counters, hhere.search] at hothers
      refine ⟨hothers.counters, ?_, hothers.search⟩
      rw [hothers.labels, hhere.labels, Node.withoutRepeatedAll, Node.forestLabels_append,
        List.map_append, List.append_assoc]

theorem withoutRepeated_item (hkind : node.kind = .listItem) (search : TitleSearch) :
    ∃ kept, (node.withoutRepeated options search).1 = [kept] := by
  have hover : search.passesOver options node = false := by simp [TitleSearch.passesOver, hkind]
  rw [Node.withoutRepeated_container hover (by rw [hkind]; rfl) (by simp [hkind])]
  exact ⟨_, rfl⟩

/-- The items of a list are numbered one after the other. -/
theorem labelled_list {nodes : List Node}
    (hnodes : ∀ child ∈ nodes, WritesLabels load options child)
    (hkinds : ∀ child ∈ nodes, child.kind = .listItem) (hstep : step ≠ .stop) {number : Nat}
    {place : List Nat} (hcounters : run.state.counters = number :: place)
    (hrun : (Node.descendAll (visitWith load options) nodes).runFrom run = (.ok step, after)) :
    Labelled run after ((number + nodes.length) :: place)
      (Node.listLabels place (number + 1)
        (Node.withoutRepeatedAll options run.state.search nodes).1)
      (Node.withoutRepeatedAll options run.state.search nodes).2 := by
  induction nodes generalizing run number with
  | nil =>
      cases hrun
      exact ⟨hcounters, by simp [Node.withoutRepeatedAll, Node.listLabels], rfl⟩
  | cons first rest ih =>
      rw [Node.descendAll_cons] at hrun
      obtain ⟨_, between, hfirst, hgo, hrest⟩ := Action.runFrom_goOn_ok hstep hrun
      have hhere := hnodes first List.mem_cons_self hfirst hgo
      rw [LabelledNode, placeOf, if_pos (hkinds first List.mem_cons_self), hcounters,
        List.modifyHead_cons]
        at hhere
      have hothers := ih (fun child hmem => hnodes child (List.mem_cons_of_mem _ hmem))
        (fun child hmem => hkinds child (List.mem_cons_of_mem _ hmem)) hhere.counters hrest
      rw [hhere.search] at hothers
      -- An item is never passed over, so the items keep their numbers.
      obtain ⟨kept, hkept⟩ : ∃ kept,
          (first.withoutRepeated options run.state.search).1 = [kept] :=
        withoutRepeated_item (hkinds first List.mem_cons_self) _
      refine ⟨?_, ?_, hothers.search⟩
      · rw [hothers.counters, List.length_cons]
        congr 1
        omega
      · rw [hothers.labels, hhere.labels, Node.withoutRepeatedAll, hkept]
        simp [Node.forestLabels, Node.listLabels]

/-- The label of a node itself. -/
def ownLabel (node : Node) (place : List Nat) : List String :=
  if node.kind = .listItem then [itemLabel (node.listStyle.getD {}) place] else []

theorem labelled_enter (hrule : Visited load options run node .enter (.ok step) entered) :
    Labelled run entered
      (if node.kind = .list then 0 :: run.state.counters else placeOf node run.state.counters)
      (ownLabel node (placeOf node run.state.counters))
      (run.state.search.after options node .enter) := by
  refine ⟨?_, ?_, hrule.search_eq⟩
  · rw [hrule.counters_eq]
    unfold countersAfter placeOf
    split <;> simp_all
  · by_cases hkind : node.kind = .listItem
    · rw [hrule.labels_enterItem hkind, ownLabel, placeOf, if_pos hkind, if_pos hkind]
      rfl
    · rw [hrule.labels_eq (.inl hkind), ownLabel, if_neg hkind, List.map_nil, List.append_nil]

theorem forestLabels_end (hend : node.kind.isLeaf = true ∨ node.kind = .image)
    (place : List Nat) : Node.forestLabels place [node] = ownLabel node place := by
  have hnone : (node.kind.isLeaf || node.kind == .image) = true := by simpa using hend
  simp [Node.forestLabels, Node.itemLabels_eq, hnone, ownLabel]

theorem forestLabels_container (hleaf : node.kind.isLeaf = false) (himage : node.kind ≠ .image)
    (kept : List Node) (place : List Nat) :
    Node.forestLabels place [{ node with children := kept }] = ownLabel node place ++
      if node.kind = .list then Node.listLabels place 1 kept
      else Node.forestLabels place kept := by
  have hnone : (node.kind.isLeaf || node.kind == .image) = false := by simp [hleaf, himage]
  simp [Node.forestLabels, Node.itemLabels_eq, hnone, ownLabel]

theorem labelled_below (hitems : ItemsInLists above node)
    (hchildren : ∀ child ∈ node.children, WritesLabels load options child)
    (hleaf : node.kind.isLeaf = false) (himage : node.kind ≠ .image)
    (hentered : entered.state.counters =
      if node.kind = .list then 0 :: run.state.counters else placeOf node run.state.counters)
    (hstep : step ≠ .stop)
    (hrun : (Node.descendAll (visitWith load options) node.children).runFrom entered =
      (.ok step, after)) :
    let below := Node.withoutRepeatedAll options entered.state.search node.children
    countersAfter node .leave after.state.counters = placeOf node run.state.counters ∧
      after.labels = entered.labels ++
        (if node.kind = .list then Node.listLabels (placeOf node run.state.counters) 1 below.1
          else Node.forestLabels (placeOf node run.state.counters) below.1).map
            Troff.indentedParagraph ∧
      after.state.search = below.2 := by
  have hparent : ∀ child ∈ node.children, child.kind = .listItem ↔ node.kind = .list := by
    intro child hmem
    rw [hitems (node :: above) child (.child hleaf himage hmem .here)]
    simp
  by_cases hlist : node.kind = .list
  · have hplace : placeOf node run.state.counters = run.state.counters := by
      simp [placeOf, hlist]
    rw [if_pos hlist] at hentered
    have hbelow := labelled_list hchildren (fun child hmem => (hparent child hmem).mpr hlist) hstep
      hentered hrun
    refine ⟨?_, ?_, hbelow.search⟩
    · rw [hbelow.counters, hplace]
      simp [countersAfter, hlist]
    · rw [hbelow.labels, hplace, if_pos hlist]
  · rw [if_neg hlist] at hentered
    have hbelow := labelled_forest hchildren
      (fun child hmem hitem => hlist ((hparent child hmem).mp hitem)) hstep hrun
    rw [hentered] at hbelow
    refine ⟨?_, ?_, hbelow.search⟩
    · rw [hbelow.counters]
      unfold countersAfter
      split <;> simp_all
    · rw [hbelow.labels, if_neg hlist]

theorem labelledNode_container (hitems : ItemsInLists above node)
    (hchildren : ∀ child ∈ node.children, WritesLabels load options child)
    (hleaf : node.kind.isLeaf = false) {left : Run} {answer : Step}
    (henter : Visited load options run node .enter (.ok .next) entered)
    (hbelow : (Node.descendAll (visitWith load options) node.children).runFrom entered =
      (.ok step, left)) (hstep : step ≠ .stop)
    (hleave : Visited load options left node .leave (.ok answer) after) :
    LabelledNode options node run after := by
  have hentered := labelled_enter henter
  rcases henter.next_or_skip with ⟨-, himage, hover⟩ | ⟨hskip, -⟩
  · obtain ⟨hcounters, hlabels, hsearch⟩ :=
      labelled_below hitems hchildren hleaf himage hentered.counters hstep hbelow
    rw [LabelledNode, Node.withoutRepeated_container hover hleaf himage,
      forestLabels_container hleaf himage]
    refine ⟨hleave.counters_eq.trans hcounters, ?_, ?_⟩
    · rw [hleave.labels_eq (.inr rfl), hlabels, hentered.labels, hentered.search, List.map_append,
        List.append_assoc]
    · rw [hleave.search_eq, hsearch, hentered.search]
  · cases hskip

theorem labelledNode_end (hover : run.state.search.passesOver options node = false)
    (hend : node.kind.isLeaf = true ∨ node.kind = .image)
    (henter : Visited load options run node .enter (.ok step) after) :
    LabelledNode options node run after := by
  have hlist : node.kind ≠ .list := by
    intro hlist
    simp [hlist, Kind.isLeaf] at hend
  have hentered := labelled_enter henter
  rw [if_neg hlist, ← forestLabels_end hend] at hentered
  rw [LabelledNode, Node.withoutRepeated_end hover hend]
  exact hentered

theorem labelledNode_over (hover : run.state.search.passesOver options node = true)
    (hstate : after.state = run.state) (hwritten : after.written = run.written) :
    LabelledNode options node run after := by
  have hkind := TitleSearch.heading_of_passesOver hover
  rw [LabelledNode, Node.withoutRepeated_over hover]
  refine ⟨?_, ?_, ?_⟩
  · rw [hstate, placeOf, if_neg (by simp [hkind])]
  · rw [Run.labels, hwritten]
    simp [Node.forestLabels, Run.labels]
  · rw [hstate]

/-- Every node whose items stand in lists has the labels of its place. -/
theorem writesLabels (hitems : ItemsInLists above node) : WritesLabels load options node := by
  -- Whether a child is an item is told by the node that is put above it.
  induction node using Node.induction generalizing above with
  | step node ih =>
      intro run after step hrun hstep
      cases (Node.descends_of_ok hstep hrun).2 with
      | skip henter =>
          rcases (visited henter).next_or_skip with ⟨hnext, -⟩ |
            ⟨-, hstate, hwritten, himage | hover⟩
          · cases hnext
          · refine labelledNode_end ?_ (.inr himage) (visited henter)
            simp [TitleSearch.passesOver, himage]
          · exact labelledNode_over hover hstate hwritten
      | leaf hleaf henter =>
          rcases (visited henter).next_or_skip with ⟨-, -, hover⟩ | ⟨hskip, -⟩
          · exact labelledNode_end hover (.inl hleaf) (visited henter)
          · cases hskip
      | container hleaf henter hbelow hgo hleave =>
          have himage := passesOverImages load options _ _ _ henter
          refine labelledNode_container hitems (fun child hmem => ?_) hleaf (visited henter) hbelow
            hgo (visited hleave)
          intro run after step
          exact ih child hmem (hitems.child hleaf himage hmem)

end

/-- A document in which the items are the children of lists is rendered with one request for a label
for each item, in document order. The items are those of the tree without headings that repeat front
matter, outside of images and leaves. The label of an item of an unnumbered list is its mark; the
label of an item of a numbered list is made of the numbers, from the outermost list to its own, of
the items that it is in or is, each with a point after it. -/
theorem item_labels (load : Loader) (renderer : Renderer) (root : Node)
    (hitems : ItemsInLists [] root)
    (hresult : (renderer.renderWith load root).result = .ok ()) :
    named Request.indentedParagraph (renderer.renderWith load root).written =
      (Node.forestLabels [] (root.withoutRepeated renderer.options .idle).1).map
        Troff.indentedParagraph := by
  obtain ⟨final, hwalk, -⟩ := Renderer.walk_of_renderWith_ok hresult
  rw [Renderer.renderWith_ok hwalk]
  rw [walk_eq_descend] at hwalk
  have hlabelled := writesLabels hitems hwalk (by decide)
  have hroot : placeOf root (Renderer.start renderer.options).state.counters = [] := by
    rw [Renderer.start_state, placeOf]
    split <;> rfl
  have hstart : (Renderer.start renderer.options).labels = [] := by
    rw [Run.labels, Renderer.start_written]
    split <;> rfl
  have hlabels := hlabelled.labels
  rw [hroot, hstart, List.nil_append, Renderer.start_state] at hlabels
  have hend : named Request.indentedParagraph [Troff.signature] = [] := rfl
  rw [named_append, hend, List.append_nil]
  exact hlabels

/-- Lists in an item of a list, in an image, and in front matter that is repeated. -/
def nestedLists : Node where
  kind := .document
  children := [
    { kind := .heading, isTitleBlock := true, children := [{ kind := .text }] },
    { kind := .heading, isTitleBlock := true
      children := [{ kind := .list, children := [{ kind := .listItem }] }] },
    { kind := .list
      children := [
        { kind := .listItem, listStyle := some { ordered := true } },
        { kind := .listItem, listStyle := some { ordered := true }
          children := [
            { kind := .list, children := [{ kind := .listItem }] },
            { kind := .image
              children := [{ kind := .list, children := [{ kind := .listItem }] }] },
            { kind := .blockQuote
              children := [
                { kind := .list
                  children := [
                    { kind := .listItem, listStyle := some { ordered := true } },
                    { kind := .listItem
                      listStyle := some { ordered := true } }] }] }] }] }]

/-- Items count on in their list also after a list inside of them, and a list in an image numbers
nothing. -/
theorem nested_item_labels :
    ItemsInLists [] nestedLists ∧
    (Renderer.renderWith (fun _ => .ok {}) {} nestedLists).result = .ok () ∧
    named Request.indentedParagraph
        (Renderer.renderWith (fun _ => .ok {}) {} nestedLists).written =
      ["1.", "2.", "*", "2.1.", "2.2."].map Troff.indentedParagraph := by
  have hitems : ItemsInLists [] nestedLists := itemsInLists_of_children (by decide) (by decide)
  have hresult : (Renderer.renderWith (fun _ => .ok {}) {} nestedLists).result = .ok () := by
    rw [Renderer.renderWith, Renderer.document, walk_eq_descend]
    rfl
  refine ⟨hitems, hresult, ?_⟩
  rw [item_labels (fun _ => .ok {}) {} nestedLists hitems hresult]
  rfl

/-- An item of a list that is stored below a text. -/
def itemInText : Node where
  kind := .document
  children := [
    { kind := .text, children := [{ kind := .list, children := [{ kind := .listItem }] }] }]

/-- No label is written for an item below a text. -/
theorem item_in_text_unlabelled :
    (∀ parent ∈ itemInText :: itemInText.descendants, ∀ child ∈ parent.children,
      child.kind = .listItem ↔ parent.kind = .list) ∧
    (itemInText.descendants.filter (·.kind = .listItem)).length = 1 ∧
    (∀ node ∈ itemInText :: itemInText.descendants, node.kind ≠ .image ∧ node.kind ≠ .heading) ∧
    (Renderer.renderWith FrontMatter.load {} itemInText).result = .ok () ∧
    Troff.textOf (Renderer.renderWith FrontMatter.load {} itemInText).written = ".SG\n" ∧
    named Request.indentedParagraph
      (Renderer.renderWith FrontMatter.load {} itemInText).written = [] := by
  refine ⟨by decide, by decide, by decide, ?_, ?_, ?_⟩ <;>
    rw [Renderer.renderWith, Renderer.document, walk_eq_descend]
  · rfl
  · decide +kernel
  · rfl

end Render

end Manuscript
