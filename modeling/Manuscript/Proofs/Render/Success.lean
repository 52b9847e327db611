import Manuscript.Proofs.Render.Fit
import Manuscript.Proofs.Render.History

/-! # When rendering succeeds

Without front matter, whether a document can be rendered is told by its tree:
every node that the walk reaches must be of a kind that can be rendered and
must stand where it belongs (`renders_iff_renderable`).
-/

namespace Manuscript.Render

section

variable {load : Loader} {options : Options} {above : List Node} {node : Node}
  {run entered after : Run} {result : Except RenderError Step}

/-- A container that was entered is decided by its children and by leaving it. -/
theorem Opens.decides (hopens : Opens load options above node run entered)
    (henter : (visitWith load options node .enter).runFrom run = (.ok .next, entered))
    (hchildren : ∀ result left,
      (Node.descendAll (visitWith load options) node.children).runFrom entered = (result, left) →
      Decides (∀ child ∈ node.children, AllFit (node :: above) child)
        (∃ child ∈ node.children, HoldsRowEnd (node :: above) child) entered.state result left)
    (hrun : (node.descend (visitWith load options)).runFrom run = (result, after)) :
    Decides (AllFit above node) (HoldsRowEnd above node) run.state result after := by
  have hall : AllFit above node ↔
      Fits above node ∧ ∀ child ∈ node.children, AllFit (node :: above) child :=
    forall_reaches_iff hopens.leaf hopens.image
  have hends : HoldsRowEnd above node ↔
      EndsRow node ∨ ∃ child ∈ node.children, HoldsRowEnd (node :: above) child :=
    exists_reaches_iff hopens.leaf hopens.image
  rw [Node.runFrom_descend_container hopens.leaf henter] at hrun
  obtain ⟨inside, left, hinside⟩ : ∃ inside left,
      (Node.descendAll (visitWith load options) node.children).runFrom entered =
        (inside, left) := ⟨_, _, rfl⟩
  cases hchildren inside left hinside with
  | fails hfits hreported =>
      rw [Action.runFrom_goOn_error hinside] at hrun
      cases hrun
      exact .fails (fun hnode => hfits (hall.mp hnode).2) hreported
  | fits hfits hcarried =>
      rw [Action.runFrom_goOn_next hinside] at hrun
      obtain ⟨answer, final, hout⟩ : ∃ answer final,
          (visitWith load options node .leave).runFrom left = (answer, final) := ⟨_, _, rfl⟩
      cases hopens.leave hends hcarried (visited hout) with
      | fails hnode hreported =>
          rw [Action.runFrom_goOn_error hout] at hrun
          cases hrun
          exact .fails (fun hfits => hnode (hall.mp hfits).1) hreported
      | fits hnode hcarried =>
          rw [Action.runFrom_goOn_next hout, Action.runFrom_pure] at hrun
          cases hrun
          exact .fits (hall.mpr ⟨hnode, hfits⟩) (hcarried.congr hends.symm)

/-- Whether a forest is rendered is decided by its trees. -/
theorem decides_forest {nodes : List Node}
    (hnodes : ∀ child ∈ nodes, ∀ run result after, Within above run.state →
      (child.descend (visitWith load options)).runFrom run = (result, after) →
      Decides (AllFit above child) (HoldsRowEnd above child) run.state result after)
    (hwithin : Within above run.state)
    (hrun : (Node.descendAll (visitWith load options) nodes).runFrom run = (result, after)) :
    Decides (∀ child ∈ nodes, AllFit above child) (∃ child ∈ nodes, HoldsRowEnd above child)
      run.state result after := by
  induction nodes generalizing run with
  | nil =>
      cases hrun
      exact .fits (by simp) ((Carried.refl hwithin.consuming).congr (by simp))
  | cons first rest ih =>
      rw [Node.descendAll_cons] at hrun
      obtain ⟨inside, left, hfirst⟩ : ∃ inside left,
          (first.descend (visitWith load options)).runFrom run = (inside, left) := ⟨_, _, rfl⟩
      cases hnodes first List.mem_cons_self run inside left hwithin hfirst with
      | fails hfits hreported =>
          rw [Action.runFrom_goOn_error hfirst] at hrun
          cases hrun
          exact .fails (fun hall => hfits (hall first List.mem_cons_self)) hreported
      | fits hfits hcarried =>
          rw [Action.runFrom_goOn_next hfirst] at hrun
          have hothers := fun child hmem => hnodes child (List.mem_cons_of_mem _ hmem)
          cases ih hothers (hcarried.within hwithin) hrun with
          | fails hrest hreported =>
              exact .fails (fun hall => hrest fun child hmem =>
                hall child (List.mem_cons_of_mem _ hmem)) hreported
          | fits hrest hcarried' =>
              refine .fits (List.forall_mem_cons.mpr ⟨hfits, hrest⟩) ?_
              exact (hcarried.trans hcarried').congr (by simp)

/-- Leaves and images are decided by entering them. -/
theorem decides_end (hend : node.kind.isLeaf = true ∨ node.kind = .image)
    (hdecides : Decides (Fits above node) (EndsRow node) run.state result after) :
    Decides (AllFit above node) (HoldsRowEnd above node) run.state result after := by
  cases hdecides with
  | fails hfits hreported => exact .fails (fun hall => hfits (hall _ _ .here)) hreported
  | fits hfits hcarried =>
      refine .fits (fun outer target hreaches => ?_) (hcarried.congr ⟨?_, ?_⟩)
      · obtain ⟨rfl, rfl⟩ := hreaches.eq_here hend
        exact hfits
      · exact fun hends => ⟨_, _, .here, hends⟩
      · rintro ⟨outer, part, hreaches, hends⟩
        obtain ⟨rfl, rfl⟩ := hreaches.eq_here hend
        exact hends

/-- Rendering a node decides whether all that is reached from it fits. -/
theorem decides_node
    (hfront : ∀ outer heading, Reaches above node outer heading → heading.kind = .heading →
      isFrontMatter options heading = false)
    (hwithin : Within above run.state)
    (hrun : (node.descend (visitWith load options)).runFrom run = (result, after)) :
    Decides (AllFit above node) (HoldsRowEnd above node) run.state result after := by
  -- Further down there are more nodes above, so these are not fixed in the induction.
  induction node using Node.induction generalizing above run result after with
  | step node ih =>
      obtain ⟨answer, entered, henter⟩ : ∃ answer entered,
          (visitWith load options node .enter).runFrom run = (answer, entered) := ⟨_, _, rfl⟩
      have hhere := hfront above node .here
      cases enters hhere hwithin (visited henter) with
      | fails hfits hreported =>
          rw [Node.runFrom_descend_error henter] at hrun
          cases hrun
          exact .fails (fun hall => hfits (hall _ _ .here)) hreported
      | ends hend hfits hcarried =>
          rcases hend with ⟨hleaf, rfl⟩ | ⟨himage, rfl⟩
          · rw [Node.runFrom_descend_leaf hleaf henter] at hrun
            cases hrun
            exact decides_end (.inl hleaf) (.fits hfits hcarried)
          · rw [Node.runFrom_descend_skip henter] at hrun
            cases hrun
            exact decides_end (.inr himage) (.fits hfits hcarried)
      | opens hopens =>
          refine hopens.decides henter (fun inside left hforest => ?_) hrun
          refine decides_forest (fun child hmem run result after hwithin hchild => ?_)
            hopens.inside hforest
          refine ih child hmem (fun outer heading hreaches => ?_) hwithin hchild
          exact hfront outer heading (.child hopens.leaf hopens.image hmem hreaches)

end

/-- A document in which no heading carries front matter, as when none is marked and none is looked
for, is rendered exactly if all that the walk reaches fits. Otherwise an error of rendering is
reported. -/
theorem renders_iff_renderable (load : Loader) (renderer : Renderer) (root : Node)
    (hfront : ∀ above heading, Reaches [] root above heading → heading.kind = .heading →
      isFrontMatter renderer.options heading = false) :
    ((renderer.renderWith load root).result = .ok () ↔ Renderable root) ∧
    (¬ Renderable root → ∃ error kind,
      (renderer.renderWith load root).result = .error error ∧
        error.origin = .reported kind ∧ .rendering ∈ kind.lineage) := by
  obtain ⟨result, final, hwalk⟩ : ∃ result final,
      (walk (visitWith load renderer.options) root).runFrom (Renderer.start renderer.options) =
        (result, final) := ⟨_, _, rfl⟩
  have hwithin : Within [] (Renderer.start renderer.options).state := by
    rw [Renderer.start_state]
    exact .nil
  have hdescend := hwalk
  rw [walk_eq_descend] at hdescend
  cases decides_node hfront hwithin hdescend with
  | fits hfits =>
      rw [Renderer.renderWith_ok hwalk]
      exact ⟨⟨fun _ => hfits, fun _ => rfl⟩, fun hnot => absurd hfits hnot⟩
  | fails hfits hreported =>
      obtain ⟨kind, horigin, hrendering⟩ := hreported
      rw [Renderer.renderWith_error hwalk]
      refine ⟨⟨fun hok => ?_, fun hall => absurd hall hfits⟩, fun _ => ?_⟩
      · cases hok
      · exact ⟨_, kind, rfl, horigin, hrendering⟩

/-- A break cannot be rendered, but not in an image. -/
def breakInImage : Node where
  kind := .list
  children := [
    { kind := .listItem
      children := [
        { kind := .heading, children := [{ kind := .text, literal := "a" }] },
        { kind := .image, children := [{ kind := .thematicBreak }] }] }]

/-- A row is no row of the table around an image. -/
def rowInImage : Node where
  kind := .table
  children := [
    { kind := .tableHead, children := [{ kind := .image, children := [{ kind := .tableRow }] }] }]

/-- What is in an image keeps nothing from being rendered, and is no row of a table around it. -/
theorem renders_iff_renderable_past_images :
    (Renderer.renderWith FrontMatter.load {} breakInImage).result = .ok () ∧
    Renderable breakInImage ∧ ¬ Renderable rowInImage ∧
    ∃ error kind, (Renderer.renderWith FrontMatter.load {} rowInImage).result = .error error ∧
      error.origin = .reported kind ∧ .rendering ∈ kind.lineage := by
  have hresult : (Renderer.renderWith FrontMatter.load {} breakInImage).result = .ok () := by
    rw [Renderer.renderWith, Renderer.document, walk_eq_descend]
    rfl
  have herror : (Renderer.renderWith FrontMatter.load {} rowInImage).result ≠ .ok () := by
    rw [Renderer.renderWith, Renderer.document, walk_eq_descend]
    intro hok
    cases hok
  have hbreak : ∀ heading ∈ breakInImage :: breakInImage.descendants, heading.kind = .heading →
      isFrontMatter {} heading = false := by decide
  have hrow : ∀ heading ∈ rowInImage :: rowInImage.descendants, heading.kind = .heading →
      isFrontMatter {} heading = false := by decide
  obtain ⟨hok, -⟩ := renders_iff_renderable FrontMatter.load {} breakInImage
    fun _ heading hreaches => hbreak heading hreaches.mem
  obtain ⟨hfails, hreported⟩ := renders_iff_renderable FrontMatter.load {} rowInImage
    fun _ heading hreaches => hrow heading hreaches.mem
  have hnot : ¬ Renderable rowInImage := fun hall => herror (hfails.mpr hall)
  exact ⟨hresult, hok.mp hresult, hnot, hreported hnot⟩

end Manuscript.Render
