import Manuscript.Document.Build
import Manuscript.Proofs.Render.KeepFirst
import Manuscript.Proofs.Render.Success

/-! # Blocks that stand side by side

Outside of front matter every block at the top of a document leaves what is
remembered as it found it: no list and no table stays open. So each block is
rendered as if it stood alone, and what is written for several is what is
written for each of them, one after the other (`bodyWith_append`).
-/

namespace Manuscript

namespace Render

section

variable {load : Loader} {options : Options} {nodes : List Node} {run after : Run} {step : Step}

/-- Without front matter, what is rendered from a fresh start leaves a fresh start. -/
theorem state_of_quiet
    (hquiet : ∀ target ∈ Node.reachedAll nodes, carriesFrontMatter options target = false)
    (hfresh : run.state = {})
    (hrun : (Node.descendAll (visitWith load options) nodes).runFrom run = (.ok step, after)) :
    step = .next ∧ after.state = {} := by
  have hreached {child outer target} (hchild : child ∈ nodes)
      (hreaches : Reaches [] child outer target) : target ∈ Node.reachedAll nodes :=
    Node.mem_reachedAll.mpr ⟨child, hchild, (mem_reached_iff []).mpr ⟨outer, hreaches⟩⟩
  have hwithin : Within [] run.state := by
    rw [hfresh]
    exact .nil
  have hdecides := decides_forest (fun child hchild run result after hwithin hdescend => by
    refine decides_node (fun outer heading hreaches hkind => ?_) hwithin hdescend
    have hnone := hquiet heading (hreached hchild hreaches)
    simpa [carriesFrontMatter, hkind] using hnone) hwithin hrun
  cases hdecides with
  | fits _ hcarried =>
      -- What fits keeps the lists and the table as they were; the title block needs front matter.
      have htitle : KeepsTitle run after := by
        refine Node.preserves_descendAll KeepsTitle.refl KeepsTitle.trans ?_ (by decide) hrun
        intro child hchild run step after hstep hdescend
        obtain ⟨rfl, -⟩ := Node.descends_of_ok hstep hdescend
        exact keepsTitle_of_quiet (fun target htarget =>
          hquiet target (Node.mem_reachedAll.mpr ⟨child, hchild, htarget⟩)) hdescend
      obtain ⟨hconsuming, hblock⟩ := htitle (by rw [hfresh])
      have hcounters := hcarried.counters
      have htable := hcarried.table
      rw [hfresh] at hblock hcounters htable
      refine ⟨rfl, ?_⟩
      cases hafter : after.state with
      | mk consuming block counters table =>
          simp_all

variable (load options nodes) in
/-- What is written when some nodes are rendered from a fresh start. -/
def writtenAlone : Except RenderError (List Troff.Piece) :=
  match (Node.descendAll (visitWith load options) nodes).runFrom {} with
  | (.ok _, done) => .ok done.written.toList
  | (.error e, _) => .error e

theorem framed_nodes (load : Loader) (options : Options) (nodes : List Node) :
    Framed (Node.descendAll (visitWith load options) nodes) :=
  framed_descendAll load options fun child _ => framed_descend load options child

/-- Nodes after others are rendered as if they stood alone. -/
theorem writtenAlone_append {first second : List Node}
    (hquiet : ∀ target ∈ Node.reachedAll first, carriesFrontMatter options target = false) :
    writtenAlone load options (first ++ second) = (do
      let before ← writtenAlone load options first
      let later ← writtenAlone load options second
      return before ++ later) := by
  obtain ⟨result, between, hfirst⟩ : ∃ result between,
      (Node.descendAll (visitWith load options) first).runFrom {} = (result, between) :=
    ⟨_, _, rfl⟩
  unfold writtenAlone
  rw [Node.descendAll_append]
  cases result with
  | error e =>
      rw [Action.runFrom_goOn_error hfirst, hfirst]
      rfl
  | ok step =>
      obtain ⟨rfl, hfresh⟩ := state_of_quiet hquiet rfl hfirst
      rw [Action.runFrom_goOn_next hfirst, hfirst, framed_nodes load options second between, hfresh]
      rcases (Node.descendAll (visitWith load options) second).runFrom {} with ⟨_ | _, done⟩
      · rfl
      · simp [Run.followedBy, bind, Except.bind, pure, Except.pure]

end

end Render

open Render

theorem Troff.textOf_append (first second : List Troff.Piece) :
    textOf (first ++ second) = textOf first ++ textOf second := by
  simp [textOf]

namespace Renderer

variable (load : Loader) (renderer : Renderer) (nodes : List Node)

/-- What rendering a document of these nodes writes between the preamble and the end. -/
def bodyWith : Except RenderError String :=
  let rendering := renderer.renderWith load (.document nodes)
  rendering.result.map fun _ =>
    let rest := (Troff.textOf rendering.written).toList.drop
      renderer.options.preamble.toList.length
    .ofList (rest.take (rest.length - (Troff.textOf [Troff.signature]).toList.length))

theorem textOf_start (options : Options) :
    Troff.textOf (start options).written.toList = options.preamble := by
  rw [start_written]
  split
  next hempty => simp [Troff.textOf, String.isEmpty_iff.mp hempty]
  next => simp [Troff.textOf, Troff.Piece.toText]

/-- A document is walked by walking its nodes. -/
theorem walk_document (options : Options) :
    walk (visitWith load options) (.document nodes) =
      Node.descendAll (visitWith load options) nodes := by
  rw [walk_eq_descend, Node.descend_eq_descendAll rfl fun phase => rfl]
  rfl

variable {load renderer nodes} in
/-- A document fails with the error of its blocks alone. -/
theorem renderWith_document_error {e : RenderError}
    (halone : writtenAlone load renderer.options nodes = .error e) :
    (renderer.renderWith load (.document nodes)).result = .error e := by
  unfold writtenAlone at halone
  split at halone
  next => cases halone
  next e' done hnodes =>
    cases halone
    have hframed := framed_nodes load renderer.options nodes (start renderer.options)
    rw [start_state, hnodes, ← walk_document] at hframed
    rw [renderWith_error hframed]

variable {load renderer nodes} in
/-- A document of blocks is written as its preamble, the blocks alone, and its end. -/
theorem renderWith_document_ok {pieces : List Troff.Piece}
    (halone : writtenAlone load renderer.options nodes = .ok pieces) :
    (renderer.renderWith load (.document nodes)).result = .ok () ∧
    Troff.textOf (renderer.renderWith load (.document nodes)).written =
      renderer.options.preamble ++ Troff.textOf pieces ++ Troff.textOf [Troff.signature] := by
  unfold writtenAlone at halone
  split at halone
  next step done hnodes =>
    cases halone
    have hframed := framed_nodes load renderer.options nodes (start renderer.options)
    rw [start_state, hnodes, ← walk_document] at hframed
    rw [renderWith_ok hframed]
    refine ⟨rfl, ?_⟩
    rw [Troff.textOf_append, Run.followedBy, Array.toList_append, Troff.textOf_append,
      textOf_start]
  next => cases halone

/-- Rendering a document is rendering its nodes between the preamble and the end. -/
theorem bodyWith_eq :
    renderer.bodyWith load nodes = (writtenAlone load renderer.options nodes).map Troff.textOf := by
  cases halone : writtenAlone load renderer.options nodes with
  | error e => simp [bodyWith, renderWith_document_error halone, Except.map]
  | ok pieces =>
      obtain ⟨hresult, htext⟩ := renderWith_document_ok halone
      simp [bodyWith, hresult, htext, Except.map]

/-- Blocks do not influence each other: what is written for the first ones is the same whatever
follows, and what is written for those that follow is the same whatever went before. -/
theorem bodyWith_append (first second : List Node)
    (hquiet : ∀ node ∈ Node.reachedAll first, carriesFrontMatter renderer.options node = false) :
    renderer.bodyWith load (first ++ second) = (do
      let before ← renderer.bodyWith load first
      let later ← renderer.bodyWith load second
      return before ++ later) := by
  rw [bodyWith_eq, bodyWith_eq, bodyWith_eq, writtenAlone_append hquiet]
  cases writtenAlone load renderer.options first with
  | error e => rfl
  | ok before =>
      cases writtenAlone load renderer.options second with
      | error e => rfl
      | ok later => simp [bind, Except.bind, Except.map, pure, Except.pure, Troff.textOf_append]

/-- A list with a list in it. -/
def nestedList : List Node := [
  .list [.listItem [.list [.listItem [.text "a"]] { ordered := true }]] { ordered := true }]

/-- A list that is numbered from one, whatever lists went before. -/
def numberedList : List Node := [.list [.listItem [.text "b"]] { ordered := true }]

/-- A paragraph with a break, which cannot be rendered. -/
def brokenParagraph : List Node := [.paragraph [.text "c", { kind := .thematicBreak }]]

/-- The second list is numbered as if it stood alone, and a break in what follows a list is told as
it is alone. -/
theorem bodyWith_append_lists :
    (∀ node ∈ Node.reachedAll nestedList, carriesFrontMatter {} node = false) ∧
    bodyWith FrontMatter.load {} (nestedList ++ numberedList) =
      .ok (".IP 1.\n.RS\n.IP 1.1.\na.RE\n.RE\n" ++ ".IP 1.\nb.RE\n") ∧
    bodyWith FrontMatter.load {} (nestedList ++ brokenParagraph) =
      .error (.unknownKind .thematicBreak .enter) := by
  have hquiet : ∀ node ∈ Node.reachedAll nestedList, carriesFrontMatter {} node = false := by
    decide
  have hnested : bodyWith FrontMatter.load {} nestedList =
      .ok ".IP 1.\n.RS\n.IP 1.1.\na.RE\n.RE\n" := by
    rw [bodyWith_eq]
    rfl
  have hnumbered : bodyWith FrontMatter.load {} numberedList = .ok ".IP 1.\nb.RE\n" := by
    rw [bodyWith_eq]
    rfl
  have hbroken : bodyWith FrontMatter.load {} brokenParagraph =
      .error (.unknownKind .thematicBreak .enter) := by
    rw [bodyWith_eq]
    rfl
  refine ⟨hquiet, ?_, ?_⟩
  · rw [bodyWith_append FrontMatter.load {} nestedList numberedList hquiet, hnested, hnumbered]
    rfl
  · rw [bodyWith_append FrontMatter.load {} nestedList brokenParagraph hquiet, hnested, hbroken]
    rfl

end Renderer

end Manuscript
