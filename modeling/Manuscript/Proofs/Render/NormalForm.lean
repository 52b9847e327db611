import Manuscript.Document.Build
import Manuscript.Proofs.Render.Frame
import Manuscript.Proofs.Render.History

/-! # The normal form of a document

Much of a tree makes no difference to what is rendered: images and spans of HTML,
the nodes that only hold their children together, whatever is stored below a leaf,
and the fields that no visit looks at. The normal form of a document is without
them. It gives the same output as the document, or the same error
(`renderWith_normalForm`).
-/

namespace Manuscript

open Render

namespace Kind

/-- Nodes of these kinds leave nothing in the output, whatever is below them. -/
def isSilent : Kind → Bool
  | image | htmlSpan => true
  | _ => false

/-- Nodes of these kinds are rendered as their children are. -/
def isTransparent : Kind → Bool
  | document | link | tableHead | tableBody => true
  | _ => false

/-- The literal of nodes of these kinds is rendered. -/
def showsLiteral : Kind → Bool
  | text | paragraph | blockQuote | htmlBlock | codeSpan | codeBlock => true
  | _ => false

/-- What is rendered of the style of a node: a list leaves it to its items, and these count from one
whatever the first number is. -/
def shownStyle (kind : Kind) (style : Option ListStyle) : Option ListStyle :=
  match kind with
  | list => none
  | listItem => style.map fun style => { style with start := 1 }
  | _ => style

end Kind

namespace Node

/-- The node without the values of fields that are not rendered. -/
def reset (node : Node) : Node :=
  { node with
    literal := if node.kind.showsLiteral then node.literal else ""
    level := if node.kind = .heading then 0 else node.level
    listStyle := node.kind.shownStyle node.listStyle
    destination := "" }

mutual

/-- What stands for a node in the normal form of a document. -/
def normalized : Node → List Node
  | ⟨kind, literal, level, isTitleBlock, listStyle, destination, children⟩ =>
    let node : Node := ⟨kind, literal, level, isTitleBlock, listStyle, destination, children⟩
    if kind.isSilent then []
    else if kind.isTransparent then normalizedAll children
    else [{ node.reset with children := if kind.isLeaf then [] else normalizedAll children }]

/-- What stands for a forest in the normal form of a document. -/
def normalizedAll : List Node → List Node
  | [] => []
  | child :: rest => child.normalized ++ normalizedAll rest

end

/-- The normal form of a document. -/
def normalForm (root : Node) : Node :=
  { root.reset with children := normalizedAll root.children }

theorem normalized_eq (node : Node) :
    node.normalized =
      if node.kind.isSilent then []
      else if node.kind.isTransparent then normalizedAll node.children
      else [{ node.reset with
        children := if node.kind.isLeaf then [] else normalizedAll node.children }] := by
  cases node
  rfl

/-- A node with nothing that the rendering of a document does without. -/
structure Normal (node : Node) : Prop where
  shown : node.kind.isSilent = false
  solid : node.kind.isTransparent = false
  leaf : node.kind.isLeaf = true → node.children = []
  reset : node.reset = node

theorem reset_reset (node : Node) (children : List Node) :
    Node.reset { node.reset with children } = { node.reset with children } := by
  obtain ⟨kind, _, _, _, style, _, _⟩ := node
  cases kind <;> cases style <;> rfl

theorem normal_of_mem_normalizedAll {nodes : List Node}
    (hnodes : ∀ child ∈ nodes, ∀ target ∈ descendantsAll child.normalized, target.Normal) :
    ∀ target ∈ descendantsAll (normalizedAll nodes), target.Normal := by
  induction nodes with
  | nil => exact List.forall_mem_nil _
  | cons first rest ih =>
      rw [normalizedAll, descendantsAll_append, List.forall_mem_append]
      exact ⟨hnodes first List.mem_cons_self,
        ih fun child hmem => hnodes child (List.mem_cons_of_mem _ hmem)⟩

/-- All nodes of a normal form are normal. -/
theorem normal_of_mem_normalized (node : Node) :
    ∀ target ∈ descendantsAll node.normalized, target.Normal := by
  induction node using Node.induction with
  | step node ih =>
      rw [normalized_eq]
      split
      next => exact List.forall_mem_nil _
      next hsilent =>
        split
        next => exact normal_of_mem_normalizedAll ih
        next htransparent =>
          rw [descendantsAll, descendants_eq, descendantsAll, List.append_nil, List.forall_mem_cons]
          constructor
          · exact ⟨eq_false_of_ne_true hsilent, eq_false_of_ne_true htransparent,
              fun hleaf => if_pos hleaf, reset_reset node _⟩
          · dsimp only
            split
            · exact List.forall_mem_nil _
            · exact normal_of_mem_normalizedAll ih

/-- Nothing is left in the normal form of a document that makes no difference. -/
theorem normal_of_mem_normalForm {root target : Node}
    (hmem : target ∈ root.normalForm.descendants) : target.Normal := by
  rw [descendants_eq] at hmem
  exact normal_of_mem_normalizedAll (fun child _ => normal_of_mem_normalized child) target hmem

end Node

namespace Render

/-! ## Actions that agree up to reports -/

/-- Two actions come to the same result, remember the same and write the same. What they report may
differ. -/
def Agree {α : Type} (action other : Writer α) : Prop :=
  ∀ run run', Alike run run' →
    (action.runFrom run).1 = (other.runFrom run').1 ∧
      Alike (action.runFrom run).2 (other.runFrom run').2

namespace Agree

variable {α β : Type}

/-- What does not depend on reports agrees with itself. -/
theorem of_framed {action : Writer α} (hframed : Framed action) : Agree action action := by
  intro run run' halike
  rw [hframed run, hframed run', halike.state]
  exact ⟨rfl, rfl, congrArg (· ++ _) halike.written⟩

theorem report (level : Log.Level) (message : String) : Agree (report level message) (pure ()) :=
  fun _ _ halike => ⟨rfl, halike.state, halike.written⟩

/-- Parts that agree, one after the other, agree. -/
theorem bind {action other : Writer α} {next next' : α → Writer β} (haction : Agree action other)
    (hnext : ∀ value, Agree (next value) (next' value)) :
    Agree (action >>= next) (other >>= next') := by
  intro run run' halike
  obtain ⟨hresult, hafter⟩ := haction run run' halike
  rw [Action.runFrom_bind, Action.runFrom_bind]
  revert hresult hafter
  rcases action.runFrom run with ⟨_ | value, after⟩ <;>
    rcases other.runFrom run' with ⟨_ | value', after'⟩ <;>
    intro hresult hafter <;> cases hresult
  · exact ⟨rfl, hafter⟩
  · exact hnext value after after' hafter

theorem goOn {part other next next' : Writer Step} (hpart : Agree part other)
    (hnext : Agree next next') : Agree (part.goOn next) (other.goOn next') := by
  rw [Action.goOn_eq_bind, Action.goOn_eq_bind]
  refine hpart.bind fun step => ?_
  split
  · exact of_framed (.pure _)
  · exact hnext

end Agree

/-! ## Visits in the normal form -/

section

variable {load : Loader} {options : Options} {node : Node}

/-- What is not looked at does not make front matter, unless the start of texts is looked at. -/
theorem isFrontMatter_reset (hsniff : options.sniffFrontMatter = false) (children : List Node) :
    isFrontMatter options { node.reset with children } = isFrontMatter options node := by
  simp [isFrontMatter, hsniff, Node.reset]

/-- An item is labelled without its first number. -/
theorem itemLabel_shownStyle (style : Option ListStyle) (counters : List Nat) :
    itemLabel ((Kind.listItem.shownStyle style).getD {}) counters =
      itemLabel (style.getD {}) counters := by
  cases style <;> rfl

/-- Unless front matter is looked for, a visit of any other node than an image does not look at the
fields that are reset, nor at the children. -/
theorem visitWith_reset (hsniff : options.sniffFrontMatter = false) (himage : node.kind ≠ .image)
    (children : List Node) (phase : Phase) :
    visitWith load options { node.reset with children } phase =
      visitWith load options node phase := by
  have hfront : isFrontMatter options { node.reset with children } = isFrontMatter options node :=
    isFrontMatter_reset hsniff children
  cases hkind : node.kind with
  | image => exact absurd hkind himage
  | listItem =>
      cases phase <;>
        simp [visitWith, enterItem, itemStart, Node.reset, hkind, itemLabel_shownStyle]
  | heading =>
      cases phase <;>
        simp [visitWith, enterHeading, leaveHeading, hfront] <;> simp [Node.reset, hkind]
  | text => simp [visitWith, text, Node.reset, hkind, Kind.showsLiteral]
  | _ => cases phase <;> simp [visitWith, Node.reset, hkind, Kind.showsLiteral]

/-- Nodes without a trace in the output are passed over. -/
theorem agree_silent (hsilent : node.kind.isSilent = true) :
    Agree (node.descend (visitWith load options)) (pure .next) := by
  cases hkind : node.kind with
  | image =>
      rw [Node.descend_eq, visitWith_image hkind, bind_assoc]
      exact (Agree.report _ _).bind fun _ => .of_framed (.pure _)
  | htmlSpan =>
      have hdescend : node.descend (visitWith load options) = pure .next := by
        simp [Node.descend_eq, visitWith, hkind, Kind.isLeaf]
      rw [hdescend]
      exact .of_framed (.pure _)
  | _ => simp [Kind.isSilent, hkind] at hsilent

/-- Nodes that only hold their children together are rendered as these. -/
theorem descend_transparent (htransparent : node.kind.isTransparent = true) :
    node.descend (visitWith load options) =
      Node.descendAll (visitWith load options) node.children := by
  cases hkind : node.kind with
  | document | link | tableHead | tableBody =>
      exact Node.descend_eq_descendAll (by rw [hkind]; rfl) fun phase => by simp [visitWith, hkind]
  | _ => simp [Kind.isTransparent, hkind] at htransparent

/-- A forest is rendered like the normal forms of its trees. -/
theorem agree_normalizedAll {nodes : List Node}
    (hnodes : ∀ child ∈ nodes, Agree (child.descend (visitWith load options))
      (Node.descendAll (visitWith load options) child.normalized)) :
    Agree (Node.descendAll (visitWith load options) nodes)
      (Node.descendAll (visitWith load options) (Node.normalizedAll nodes)) := by
  induction nodes with
  | nil => exact .of_framed (.pure _)
  | cons first rest ih =>
      rw [Node.descendAll_cons, Node.normalizedAll, Node.descendAll_append]
      have hrest := ih fun child hmem => hnodes child (List.mem_cons_of_mem _ hmem)
      exact (hnodes first List.mem_cons_self).goOn hrest

/-- A node is rendered as what stands for it in the normal form. -/
theorem agree_normalized (hsniff : options.sniffFrontMatter = false) (node : Node) :
    Agree (node.descend (visitWith load options))
      (Node.descendAll (visitWith load options) node.normalized) := by
  induction node using Node.induction with
  | step node ih =>
      rw [Node.normalized_eq]
      split
      next hsilent => exact agree_silent hsilent
      next hsilent =>
        split
        next htransparent =>
          rw [descend_transparent htransparent]
          exact agree_normalizedAll ih
        next htransparent =>
          -- The node itself stays, so both recursions enter it, go on below it, and leave it.
          have himage : node.kind ≠ .image := by
            rintro hkind
            simp [hkind, Kind.isSilent] at hsilent
          rw [Node.descendAll_singleton, Node.descend_eq, Node.descend_eq,
            visitWith_reset hsniff himage, visitWith_reset hsniff himage]
          have hvisit (phase : Phase) := Agree.of_framed (framed_visitWith load options node phase)
          have hdone : Agree (pure .next : Writer Step) (pure .next) := .of_framed (.pure _)
          refine (hvisit .enter).bind fun step => ?_
          cases step with
          | stop => exact .of_framed (.pure _)
          | skipChildren => exact hdone
          | next =>
              have hkind : node.reset.kind = node.kind := rfl
              cases hleaf : node.kind.isLeaf with
              | true => simpa [hkind, hleaf] using hdone
              | false =>
                  simpa [hkind, hleaf] using
                    (agree_normalizedAll ih).goOn ((hvisit .leave).goOn hdone)

end

end Render

namespace Renderer

variable {load : Loader} {renderer : Renderer} {root other : Node}

/-- Trees whose walks agree are rendered alike. -/
theorem renderWith_of_agree
    (hagree : Agree (walk (visitWith load renderer.options) root)
      (walk (visitWith load renderer.options) other)) :
    (renderer.renderWith load other).result = (renderer.renderWith load root).result ∧
    (renderer.renderWith load other).written = (renderer.renderWith load root).written ∧
    (renderer.renderWith load other).renderer = (renderer.renderWith load root).renderer := by
  obtain ⟨result, final, hwalk⟩ : ∃ result final,
      (walk (visitWith load renderer.options) root).runFrom (start renderer.options) =
        (result, final) := ⟨_, _, rfl⟩
  obtain ⟨result', final', hwalk'⟩ : ∃ result' final',
      (walk (visitWith load renderer.options) other).runFrom (start renderer.options) =
        (result', final') := ⟨_, _, rfl⟩
  obtain ⟨hresult, halike⟩ := hagree _ _ (Alike.refl (start renderer.options))
  rw [hwalk, hwalk'] at hresult halike
  obtain rfl : result = result' := hresult
  have hstate : final.state = final'.state := halike.state
  have hwritten : final.written = final'.written := halike.written
  cases result with
  | error e =>
      rw [renderWith_error hwalk, renderWith_error hwalk', hstate, hwritten]
      exact ⟨rfl, rfl, rfl⟩
  | ok step =>
      rw [renderWith_ok hwalk, renderWith_ok hwalk', hstate, hwritten]
      exact ⟨rfl, rfl, rfl⟩

end Renderer

/-- Unless front matter is looked for, a document and its normal form come to the same result, or
fail with the same error, write the same and leave the renderer in the same state. -/
theorem Render.renderWith_normalForm (load : Loader) (renderer : Renderer) (root : Node)
    (hroot : root.kind = .document) (hsniff : renderer.options.sniffFrontMatter = false) :
    (renderer.renderWith load root.normalForm).result = (renderer.renderWith load root).result ∧
    (renderer.renderWith load root.normalForm).written =
      (renderer.renderWith load root).written ∧
    (renderer.renderWith load root.normalForm).renderer =
      (renderer.renderWith load root).renderer := by
  have htransparent : root.kind.isTransparent = true := by rw [hroot]; rfl
  have htransparent' : root.normalForm.kind.isTransparent = true := htransparent
  refine Renderer.renderWith_of_agree ?_
  rw [walk_eq_descend, walk_eq_descend, descend_transparent htransparent,
    descend_transparent htransparent']
  exact agree_normalizedAll fun child _ => agree_normalized hsniff child

/-- A document with much that is not rendered: an image that could not be rendered, a link, a span
of HTML, numbers of levels and lists, the sections of a table, and text below text. -/
def clutteredDocument : Node :=
  .document [
    { kind := .heading, level := 2
      children := [.link "there" [.text "a"], .image "here" [{ kind := .thematicBreak }]] },
    { kind := .list, listStyle := some { ordered := true, start := 3 }
      children := [
        { kind := .listItem, listStyle := some { ordered := true, start := 3 }
          children := [.htmlSpan "<br>", { Node.text "b" with children := [.text "c"] }] }] },
    .document [.table [["d"]] []]]

/-- What is rendered of it. -/
def bareDocument : Node :=
  .document [
    { kind := .heading, children := [.text "a"] },
    { kind := .list
      children := [
        { kind := .listItem, listStyle := some { ordered := true }, children := [.text "b"] }] },
    { kind := .table, children := [.textRow ["d"]] }]

theorem normalForm_clutteredDocument : clutteredDocument.normalForm = bareDocument := rfl

unseal Table.layOut in
/-- The document with clutter is rendered like the bare one. -/
theorem Render.renderWith_clutteredDocument :
    clutteredDocument.kind = .document ∧
    (Renderer.renderWith FrontMatter.load {} clutteredDocument).result = .ok () ∧
    Troff.textOf (Renderer.renderWith FrontMatter.load {} clutteredDocument).written =
      ".SH\na\n.IP 1.\nb.RE\n.DS\n.TS H\nd    \n.TH\n.TE\n.DE\n.SG\n" := by
  have hresult : (Renderer.renderWith FrontMatter.load {} bareDocument).result = .ok () := by
    rw [Renderer.renderWith, Renderer.document, walk_eq_descend]
    rfl
  have htext : Troff.textOf (Renderer.renderWith FrontMatter.load {} bareDocument).written =
      ".SH\na\n.IP 1.\nb.RE\n.DS\n.TS H\nd    \n.TH\n.TE\n.DE\n.SG\n" := by
    rw [Renderer.renderWith, Renderer.document, walk_eq_descend]
    rfl
  obtain ⟨hresult', hwritten, -⟩ :=
    renderWith_normalForm FrontMatter.load {} clutteredDocument rfl rfl
  rw [normalForm_clutteredDocument] at hresult' hwritten
  rw [← hresult', ← hwritten]
  exact ⟨rfl, hresult, htext⟩

end Manuscript
