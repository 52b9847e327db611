import Manuscript.Proofs.Render.Frame
import Manuscript.Proofs.Render.TitleStage

/-! # Deleting repeated front matter

If no heading is below another one, the headings of front matter after the first
one can be deleted from a document, and its output stays the same
(`renderWith_keepFirst`).
-/

namespace Manuscript

open Render

namespace Node

mutual

/-- The tree without the headings of front matter after the first one, which is no tree if it is one
of them, and whether there was one by then. What is in images and leaves does not count. -/
def keepFirst (options : Options) (seen : Bool) : Node → List Node × Bool
  | ⟨kind, literal, level, isTitleBlock, listStyle, destination, children⟩ =>
    let node : Node := ⟨kind, literal, level, isTitleBlock, listStyle, destination, children⟩
    if carriesFrontMatter options node then (if seen then [] else [node], true)
    else if kind.isLeaf || kind == .image || kind == .heading then ([node], seen)
    else
      let below := keepFirstAll options seen children
      ([{ node with children := below.1 }], below.2)

/-- The trees of a forest without the headings of front matter after the first one. -/
def keepFirstAll (options : Options) (seen : Bool) : List Node → List Node × Bool
  | [] => ([], seen)
  | child :: rest =>
    let first := child.keepFirst options seen
    let others := keepFirstAll options first.2 rest
    (first.1 ++ others.1, others.2)

end

theorem keepFirst_eq (options : Options) (seen : Bool) (node : Node) :
    node.keepFirst options seen =
      if carriesFrontMatter options node then (if seen then [] else [node], true)
      else if node.kind.isLeaf || node.kind == .image || node.kind == .heading then ([node], seen)
      else
        let below := keepFirstAll options seen node.children
        ([{ node with children := below.1 }], below.2) := by
  cases node
  rfl

end Node

namespace Render

/-- A part of rendering that does not start with front matter reads none. -/
def KeepsTitle (run after : Run) : Prop :=
  run.state.consumingFrontMatter = false →
    after.state.consumingFrontMatter = false ∧ after.state.titleBlock = run.state.titleBlock

theorem KeepsTitle.refl (run : Run) : KeepsTitle run run := fun hconsuming => ⟨hconsuming, rfl⟩

/-- Runs one after the other keep the title block if each of them does. -/
theorem KeepsTitle.trans {first second third : Run} (hfirst : KeepsTitle first second)
    (hsecond : KeepsTitle second third) : KeepsTitle first third := by
  intro hconsuming
  obtain ⟨hbetween, hblock⟩ := hfirst hconsuming
  obtain ⟨hafter, hblock'⟩ := hsecond hbetween
  exact ⟨hafter, hblock'.trans hblock⟩

/-- What is remembered of front matter outside of headings: whether there was any. -/
structure Settled (state : State) (seen : Bool) : Prop where
  consuming : state.consumingFrontMatter = false
  block : state.titleBlock.isSome = seen

/-- What keeps the title block leaves front matter settled. -/
theorem KeepsTitle.settled {run after : Run} {seen : Bool} (hkeeps : KeepsTitle run after)
    (hsettled : Settled run.state seen) : Settled after.state seen := by
  obtain ⟨hconsuming, hblock⟩ := hkeeps hsettled.consuming
  exact ⟨hconsuming, hblock ▸ hsettled.block⟩

section

variable {load : Loader} {options : Options} {above : List Node} {node : Node}
  {run other entered after : Run} {seen : Bool}

/-- A node without front matter keeps the title block. -/
theorem keeps_of_not_carries (hcarries : carriesFrontMatter options node = false) :
    Keeps (visitWith load options) KeepsTitle node := by
  intro phase run step after hrun hconsuming
  have hrule := visited hrun
  by_cases hheading : node.kind = .heading
  · have hfront : isFrontMatter options node = false := by
      simpa [carriesFrontMatter, hheading] using hcarries
    cases phase with
    | enter =>
        rcases hrule.enter_heading hheading with ⟨htrue, -⟩ | ⟨htrue, -⟩ | ⟨-, -, hstate⟩
        · rw [hfront] at htrue
          cases htrue
        · rw [hfront] at htrue
          cases htrue
        · rw [hstate]
          exact ⟨rfl, rfl⟩
    | leave =>
        rw [(hrule.leave_heading hheading).1]
        exact ⟨rfl, rfl⟩
  · by_cases htext : node.kind = .text
    · cases hrule <;> simp_all [plainPieces, tableMark]
    · obtain ⟨hblock, hconsuming'⟩ := hrule.keeps_title htext hheading
      exact ⟨hconsuming'.trans hconsuming, hblock⟩

/-- If nothing that is reached carries front matter, none is read. -/
theorem keepsTitle_of_quiet
    (hquiet : ∀ target ∈ node.reached, carriesFrontMatter options target = false)
    (hrun : (node.descend (visitWith load options)).runFrom run = (.ok .next, after)) :
    KeepsTitle run after :=
  Node.preserves_descend (passesOverImages load options) KeepsTitle.refl KeepsTitle.trans
    (fun target hmem => keeps_of_not_carries (hquiet target hmem)) (by decide) hrun

/-- A heading of front matter that is not passed over leaves a title block. -/
theorem settled_of_carries (hcarries : carriesFrontMatter options node = true)
    (hsettled : Settled run.state false)
    (hrun : (node.descend (visitWith load options)).runFrom run = (.ok .next, after)) :
    Settled after.state true := by
  obtain ⟨hkind, hfront⟩ := carriesFrontMatter_iff.mp hcarries
  have hnone : run.state.titleBlock = none := by simpa using hsettled.block
  have hleaf : node.kind.isLeaf = false := by rw [hkind]; rfl
  cases (Node.descends_of_ok (by decide) hrun).2 with
  | leaf hleaf' =>
      rw [hleaf] at hleaf'
      cases hleaf'
  | skip henter =>
      rcases (visited henter).enter_heading hkind with ⟨-, hsome, -⟩ | ⟨-, -, hskip, -⟩ | ⟨hnot, -⟩
      · simp [hnone] at hsome
      · cases hskip
      · rw [hfront] at hnot
        cases hnot
  | container _ _ _ _ hleave =>
      obtain ⟨hstate, -, hnot | ⟨block, pieces, hblock, -⟩⟩ := (visited hleave).leave_heading hkind
      · rw [hfront] at hnot
        cases hnot
      · rw [hstate]
        exact ⟨rfl, by simp [hblock]⟩

/-- The children of other nodes than headings make no difference to their visits. -/
theorem visitWith_children (hkind : node.kind ≠ .heading) (children : List Node) (phase : Phase) :
    visitWith load options { node with children } phase = visitWith load options node phase := by
  cases hcase : node.kind <;> cases phase <;> simp_all [visitWith, text, enterItem, itemStart]

variable (load options) in
/-- A node without the later front matter is rendered as the node itself. -/
def KeepsOutput (node : Node) : Prop :=
  ∀ {run other after : Run} {seen : Bool}, Settled run.state seen → Alike run other →
    (node.descend (visitWith load options)).runFrom run = (.ok .next, after) →
    Settled after.state (node.keepFirst options seen).2 ∧
      ∃ after', (Node.descendAll (visitWith load options)
          (node.keepFirst options seen).1).runFrom other = (.ok .next, after') ∧
        Alike after after'

/-- Later front matter can be left out of a forest whose trees it can be left out of. -/
theorem keepsOutput_forest {nodes : List Node}
    (hnodes : ∀ child ∈ nodes, KeepsOutput load options child) (hsettled : Settled run.state seen)
    (halike : Alike run other) {step : Step} (hstep : step ≠ .stop)
    (hrun : (Node.descendAll (visitWith load options) nodes).runFrom run = (.ok step, after)) :
    Settled after.state (Node.keepFirstAll options seen nodes).2 ∧
      ∃ after', (Node.descendAll (visitWith load options)
          (Node.keepFirstAll options seen nodes).1).runFrom other = (.ok .next, after') ∧
        Alike after after' := by
  induction nodes generalizing run other seen with
  | nil =>
      cases hrun
      exact ⟨hsettled, other, rfl, halike⟩
  | cons first rest ih =>
      rw [Node.descendAll_cons] at hrun
      obtain ⟨answer, between, hfirst, hgo, hrest⟩ := Action.runFrom_goOn_ok hstep hrun
      obtain ⟨rfl, -⟩ := Node.descends_of_ok hgo hfirst
      obtain ⟨hbetween, between', hfirst', halike'⟩ :=
        hnodes first List.mem_cons_self hsettled halike hfirst
      obtain ⟨hafter, after', hrest', halike''⟩ :=
        ih (fun child hmem => hnodes child (List.mem_cons_of_mem _ hmem)) hbetween halike' hrest
      refine ⟨hafter, after', ?_, halike''⟩
      rw [Node.keepFirstAll, Node.descendAll_append, Action.runFrom_goOn_next hfirst', hrest']

theorem keepsOutput_same {seen' : Bool} (hkept : node.keepFirst options seen = ([node], seen'))
    (hafter : Settled after.state seen') (halike : Alike run other)
    (hrun : (node.descend (visitWith load options)).runFrom run = (.ok .next, after)) :
    Settled after.state (node.keepFirst options seen).2 ∧
      ∃ after', (Node.descendAll (visitWith load options)
          (node.keepFirst options seen).1).runFrom other = (.ok .next, after') ∧
        Alike after after' := by
  rw [hkept]
  refine ⟨hafter, ?_⟩
  rw [Node.descendAll_singleton]
  exact (framed_descend load options node).alike halike hrun

/-- A later heading of front matter changes nothing that is written. -/
theorem keepsOutput_over (hcarries : carriesFrontMatter options node = true)
    (hsettled : Settled run.state true) (halike : Alike run other)
    (hrun : (node.descend (visitWith load options)).runFrom run = (.ok .next, after)) :
    Settled after.state (node.keepFirst options true).2 ∧
      ∃ after', (Node.descendAll (visitWith load options)
          (node.keepFirst options true).1).runFrom other = (.ok .next, after') ∧
        Alike after after' := by
  obtain ⟨hkind, hfront⟩ := carriesFrontMatter_iff.mp hcarries
  have hkept : node.keepFirst options true = ([], true) := by
    simp [Node.keepFirst_eq, hcarries]
  have hover : run.state.search.passesOver options node = true := by
    simp [TitleSearch.passesOver, State.search, hsettled.block, hkind, hfront]
  have hpassed : ∀ {step entered}, (visitWith load options node .enter).runFrom run =
      (.ok step, entered) → step = .skipChildren ∧ entered.state = run.state ∧
        entered.written = run.written := by
    intro step entered henter
    rcases (visited henter).next_or_skip with ⟨-, -, hnot⟩ | ⟨hskip, hstate, hwritten, -⟩
    · rw [hover] at hnot
      cases hnot
    · exact ⟨hskip, hstate, hwritten⟩
  cases (Node.descends_of_ok (by decide) hrun).2 with
  | skip henter =>
      obtain ⟨-, hstate, hwritten⟩ := hpassed henter
      rw [hkept, hstate]
      exact ⟨hsettled, other, rfl, hstate.trans halike.state, hwritten.trans halike.written⟩
  | leaf _ henter => cases (hpassed henter).1
  | container _ henter => cases (hpassed henter).1

theorem keepsOutput_container (hchildren : ∀ child ∈ node.children, KeepsOutput load options child)
    (hheading : node.kind ≠ .heading) (hleaf : node.kind.isLeaf = false)
    (himage : node.kind ≠ .image) (hsettled : Settled run.state seen) (halike : Alike run other)
    (hrun : (node.descend (visitWith load options)).runFrom run = (.ok .next, after)) :
    Settled after.state (node.keepFirst options seen).2 ∧
      ∃ after', (Node.descendAll (visitWith load options)
          (node.keepFirst options seen).1).runFrom other = (.ok .next, after') ∧
        Alike after after' := by
  have hkeeps := @keeps_of_not_carries load options node (carriesFrontMatter_of_kind hheading)
  cases (Node.descends_of_ok (by decide) hrun).2 with
  | leaf hleaf' =>
      rw [hleaf] at hleaf'
      cases hleaf'
  | skip henter =>
      rcases (visited henter).next_or_skip with ⟨hnext, -⟩ | ⟨-, -, -, hother | hover⟩
      · cases hnext
      · exact absurd hother himage
      · simp [TitleSearch.passesOver, hheading] at hover
  | container _ henter hbelow hgo hleave hgo' =>
      obtain ⟨entered', henter', halike⟩ :=
        (framed_visitWith load options node .enter).alike halike henter
      obtain ⟨hleft, left', hbelow', halike⟩ := keepsOutput_forest hchildren
        ((hkeeps _ _ _ _ henter).settled hsettled) halike hgo hbelow
      obtain ⟨after', hleave', halike⟩ :=
        (framed_visitWith load options node .leave).alike halike hleave
      have hkept : node.keepFirst options seen =
          ([{ node with children := (Node.keepFirstAll options seen node.children).1 }],
            (Node.keepFirstAll options seen node.children).2) := by
        simp [Node.keepFirst_eq, carriesFrontMatter_of_kind hheading, hleaf, himage, hheading]
      rw [hkept, Node.descendAll_singleton]
      refine ⟨(hkeeps _ _ _ _ hleave).settled hleft, after', ?_, halike⟩
      rw [← visitWith_children hheading (Node.keepFirstAll options seen node.children).1]
        at henter' hleave'
      exact Node.runFrom_descend_ok hleaf henter' hbelow' hleave' hgo'

/-- No front matter is reached from a heading that carries none. -/
theorem quiet_of_heading (hapart : HeadingsApart above node) (hkind : node.kind = .heading)
    (hcarries : carriesFrontMatter options node = false) :
    ∀ target ∈ node.reached, carriesFrontMatter options target = false := by
  rw [Node.reached_container (by rw [hkind]; rfl) (by simp [hkind])]
  refine List.forall_mem_cons.mpr ⟨hcarries, fun target hmem => ?_⟩
  exact carriesFrontMatter_of_kind (hapart.not_heading hkind hmem)

/-- Later front matter can be left out of a tree with the same output. -/
theorem keepsOutput (hapart : HeadingsApart above node) : KeepsOutput load options node := by
  -- What was seen before a node is another thing for each child, so it varies in the induction.
  induction node using Node.induction generalizing above with
  | step node ih =>
      intro run other after seen hsettled halike hrun
      cases hcarries : carriesFrontMatter options node with
      | true =>
          cases seen with
          | false =>
              refine keepsOutput_same ?_ (settled_of_carries hcarries hsettled hrun) halike hrun
              simp [Node.keepFirst_eq, hcarries]
          | true => exact keepsOutput_over hcarries hsettled halike hrun
      | false =>
          -- Nothing is deleted from a leaf, an image or a heading without front matter.
          have hsame : (∀ target ∈ node.reached, carriesFrontMatter options target = false) →
              node.keepFirst options seen = ([node], seen) → _ := fun hquiet hkept =>
            keepsOutput_same hkept ((keepsTitle_of_quiet hquiet hrun).settled hsettled) halike hrun
          by_cases hend : node.kind.isLeaf = true ∨ node.kind = .image
          · refine hsame ?_ (by rw [Node.keepFirst_eq, hcarries]; simp_all)
            rw [Node.reached_end hend]
            simpa using hcarries
          · by_cases hheading : node.kind = .heading
            · refine hsame (quiet_of_heading hapart hheading hcarries) ?_
              simp [Node.keepFirst_eq, hcarries, hheading]
            · obtain ⟨hleaf, himage⟩ : node.kind.isLeaf = false ∧ node.kind ≠ .image := by
                simpa using hend
              have hchildren : ∀ child ∈ node.children, KeepsOutput load options child :=
                fun child hmem => ih child hmem (hapart.below (.child hleaf himage hmem .here))
              exact keepsOutput_container hchildren hheading hleaf himage hsettled halike hrun

end

/-- The output of a document is that of the document without the headings of front matter after the
first one. -/
theorem renderWith_keepFirst {load : Loader} {renderer : Renderer} {root : Node}
    (hapart : HeadingsApart [] root) (hresult : (renderer.renderWith load root).result = .ok ()) :
    ∃ kept, (root.keepFirst renderer.options false).1 = [kept] ∧
      (renderer.renderWith load kept).result = .ok () ∧
      (renderer.renderWith load kept).written = (renderer.renderWith load root).written := by
  obtain ⟨final, hwalk, -⟩ := Renderer.walk_of_renderWith_ok hresult
  have hsettled : Settled (Renderer.start renderer.options).state false := by
    rw [Renderer.start_state]
    exact ⟨rfl, rfl⟩
  have hdescend := hwalk
  rw [walk_eq_descend] at hdescend
  obtain ⟨-, final', hkept, halike⟩ := keepsOutput hapart hsettled (Alike.refl _) hdescend
  obtain ⟨kept, hsingle⟩ : ∃ kept, (root.keepFirst renderer.options false).1 = [kept] := by
    rw [Node.keepFirst_eq]
    split
    · exact ⟨root, rfl⟩
    · split <;> exact ⟨_, rfl⟩
  rw [hsingle, Node.descendAll_singleton, ← walk_eq_descend] at hkept
  refine ⟨kept, hsingle, ?_, ?_⟩
  · rw [Renderer.renderWith_ok hkept]
  · rw [Renderer.renderWith_ok hkept, Renderer.renderWith_ok hwalk, halike.written]

end Render

end Manuscript
