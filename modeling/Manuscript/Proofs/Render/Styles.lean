import Manuscript.Proofs.Document.Above
import Manuscript.Proofs.Render.Font
import Manuscript.Proofs.Render.Repeated

/-! # Marks of styles

What entering and leaving styles writes forms brackets: each switch to a font
is closed once, after all that is switched inside of it. The brackets are those
of the tree without the headings that are passed over (`styleWrites_of_underway`).
Outside of all styles the font is roman or was never switched
(`styles_closed_where_none_open`).
-/

namespace Manuscript

open Render Troff

namespace Render

/-- What leaving a style writes. -/
def styleEnd : List Piece := [Troff.lineBreak, Troff.roman]

/-- What the visits of styles wrote, one entry for each visit, in the order in which they were
made. -/
def styleWrites (options : Options) (history : History RenderError Run) : List (List Piece) :=
  (history.reverse.filter (isStyle ·.node.kind)).map fun v =>
    writes options v.node v.phase v.before.state

/-- Each switch to the font of a style is closed by the end of that style. -/
inductive Nested : List (List Piece) → Prop
  | nil : Nested []
  | style {kind : Kind} {inside after : List (List Piece)} (hkind : isStyle kind = true)
      (hinside : Nested inside) (hafter : Nested after) :
      Nested ([styleRequest kind] :: (inside ++ styleEnd :: after))

/-- A piece is a request for a font, whatever its arguments are. -/
def isFontRequest : Piece → Bool
  | .request r => r.name ∈ [Troff.Request.italic, Troff.Request.bold, Troff.Request.roman]
  | .text _ => false

/-- The requests for fonts that visits of styles and of code spans wrote. -/
def fontRequests (options : Options) (history : History RenderError Run) : List Piece :=
  (history.reverse.filter fun v => isStyle v.node.kind || v.node.kind = .codeSpan).flatMap fun v =>
    (writes options v.node v.phase v.before.state).filter isFontRequest

end Render

namespace Node

mutual

/-- The switches and ends of the styles that are reached in a tree. -/
def styleMarks : Node → List (List Piece)
  | ⟨kind, _, _, _, _, _, children⟩ =>
    if kind.isLeaf || kind == .image then []
    else if isStyle kind then [styleRequest kind] :: (styleMarksAll children ++ [styleEnd])
    else styleMarksAll children

/-- The switches and ends of the styles that are reached in a forest. -/
def styleMarksAll : List Node → List (List Piece)
  | [] => []
  | child :: rest => child.styleMarks ++ styleMarksAll rest

end

section

variable {node : Node}

theorem styleMarks_eq (node : Node) :
    node.styleMarks =
      if node.kind.isLeaf || node.kind == .image then []
      else if isStyle node.kind then
        [styleRequest node.kind] :: (styleMarksAll node.children ++ [styleEnd])
      else styleMarksAll node.children := by
  cases node
  rfl

theorem styleMarks_end (hend : node.kind.isLeaf = true ∨ node.kind = .image) :
    node.styleMarks = [] := by
  rw [styleMarks_eq, if_pos (by simpa using hend)]

theorem styleMarks_container (hleaf : node.kind.isLeaf = false) (himage : node.kind ≠ .image) :
    node.styleMarks =
      if isStyle node.kind then
        [styleRequest node.kind] :: (styleMarksAll node.children ++ [styleEnd])
      else styleMarksAll node.children := by
  rw [styleMarks_eq, if_neg (by simp [hleaf, himage])]

theorem styleMarksAll_append (first second : List Node) :
    styleMarksAll (first ++ second) = styleMarksAll first ++ styleMarksAll second := by
  induction first with
  | nil => rfl
  | cons child rest ih =>
      rw [List.cons_append, styleMarksAll, styleMarksAll, ih, List.append_assoc]

theorem styleMarksAll_singleton (node : Node) : styleMarksAll [node] = node.styleMarks := by
  rw [styleMarksAll, styleMarksAll, List.append_nil]

end

end Node

namespace Render

/-! ## Brackets -/

/-- Nested marks, one after the other, are nested. -/
theorem Nested.append {first second : List (List Piece)} (hfirst : Nested first)
    (hsecond : Nested second) : Nested (first ++ second) := by
  induction hfirst with
  | nil => exact hsecond
  | style hkind hinside _ _ ih =>
      rw [List.cons_append, List.append_assoc, List.cons_append]
      exact .style hkind hinside ih

theorem nested_styleMarksAll {nodes : List Node}
    (hnodes : ∀ child ∈ nodes, Nested child.styleMarks) : Nested (Node.styleMarksAll nodes) := by
  induction nodes with
  | nil => exact .nil
  | cons child rest ih =>
      obtain ⟨hchild, hrest⟩ := List.forall_mem_cons.mp hnodes
      exact hchild.append (ih hrest)

/-- The marks of a tree are nested. -/
theorem nested_styleMarks (node : Node) : Nested node.styleMarks := by
  induction node using Node.induction with
  | step node ih =>
      have hchildren := nested_styleMarksAll ih
      by_cases hend : node.kind.isLeaf = true ∨ node.kind = .image
      · rw [Node.styleMarks_end hend]
        exact .nil
      · obtain ⟨hleaf, himage⟩ : node.kind.isLeaf = false ∧ node.kind ≠ .image := by
          simpa using hend
        rw [Node.styleMarks_container hleaf himage]
        split
        next hstyle => exact .style hstyle hchildren .nil
        next => exact hchildren

theorem isStyle_end {node : Node} (hend : node.kind.isLeaf = true ∨ node.kind = .image) :
    isStyle node.kind = false := by
  rw [← Bool.not_eq_true]
  intro hstyle
  rcases kind_of_isStyle hstyle with hkind | hkind <;> simp [hkind, Kind.isLeaf] at hend

theorem styleRequest_ne_styleEnd (kind : Kind) : [styleRequest kind] ≠ styleEnd := by
  simp [styleEnd]

/-- The switches among the marks are one for each style that is reached, in document order. -/
theorem switches_styleMarksAll {nodes : List Node}
    (hnodes : ∀ child ∈ nodes, child.styleMarks.filter (· ≠ styleEnd) =
      (child.reached.filter (isStyle ·.kind)).map fun style => [styleRequest style.kind]) :
    (Node.styleMarksAll nodes).filter (· ≠ styleEnd) =
      ((Node.reachedAll nodes).filter (isStyle ·.kind)).map
        fun style => [styleRequest style.kind] := by
  induction nodes with
  | nil => rfl
  | cons child rest ih =>
      obtain ⟨hchild, hrest⟩ := List.forall_mem_cons.mp hnodes
      rw [Node.styleMarksAll, Node.reachedAll, List.filter_append, List.filter_append,
        List.map_append, hchild, ih hrest]

/-- There is one switch for each style that is reached. -/
theorem switches_styleMarks (node : Node) :
    node.styleMarks.filter (· ≠ styleEnd) =
      (node.reached.filter (isStyle ·.kind)).map fun style => [styleRequest style.kind] := by
  induction node using Node.induction with
  | step node ih =>
      have hchildren := switches_styleMarksAll ih
      by_cases hend : node.kind.isLeaf = true ∨ node.kind = .image
      · rw [Node.styleMarks_end hend, Node.reached_end hend]
        simp [isStyle_end hend]
      · obtain ⟨hleaf, himage⟩ : node.kind.isLeaf = false ∧ node.kind ≠ .image := by
          simpa using hend
        rw [Node.styleMarks_container hleaf himage, Node.reached_container hleaf himage,
          List.filter_cons]
        cases isStyle node.kind with
        | true =>
            rw [if_pos rfl, if_pos rfl, List.map_cons, List.filter_cons, List.filter_append,
              hchildren]
            simp [styleRequest_ne_styleEnd]
        | false => exact hchildren

/-! ## Along a walk -/

/-- The marks of the styles that are still to be visited, given how far the search for the title
block has come. -/
def pendingMarks (options : Options) (search : TitleSearch) : Pending → List (List Piece)
  | [] => []
  | (node, .enter) :: rest =>
    let kept := node.withoutRepeated options search
    Node.styleMarksAll kept.1 ++ pendingMarks options kept.2 rest
  | (node, .leave) :: rest =>
    (if isStyle node.kind then [styleEnd] else []) ++
      pendingMarks options (search.after options node .leave) rest

section

variable {load : Loader} {options : Options} {root node : Node} {start run after : Run}
  {pending rest : Pending} {history : History RenderError Run} {phase : Phase}

theorem pendingMarks_expand (search : TitleSearch) (node : Node) (rest : Pending) :
    pendingMarks options search (Pending.expand node rest) =
      let below := Node.withoutRepeatedAll options search node.children
      Node.styleMarksAll below.1 ++ pendingMarks options below.2 ((node, .leave) :: rest) := by
  have hchildren : ∀ (children : List Node) (search : TitleSearch),
      pendingMarks options search (children.map (·, .enter) ++ (node, .leave) :: rest) =
        Node.styleMarksAll (Node.withoutRepeatedAll options search children).1 ++
          pendingMarks options (Node.withoutRepeatedAll options search children).2
            ((node, .leave) :: rest) := by
    intro children
    induction children with
    | nil => intro search; rfl
    | cons child others ih =>
        intro search
        rw [List.map_cons, List.cons_append, pendingMarks, ih, Node.withoutRepeatedAll,
          Node.styleMarksAll_append, List.append_assoc]
  exact hchildren node.children search

theorem styleWrites_cons (v : Visit RenderError Run) (earlier : History RenderError Run) :
    styleWrites options (v :: earlier) = styleWrites options earlier ++
      if isStyle v.node.kind then [writes options v.node v.phase v.before.state] else [] := by
  rw [styleWrites, List.reverse_cons, List.filter_append, List.map_append, List.filter_cons]
  cases isStyle v.node.kind <;> rfl

theorem writes_leave_style (hstyle : isStyle node.kind = true) (state : State) :
    writes options node .leave state = styleEnd := by
  have hplain : plainPieces node .leave = some styleEnd := by
    rcases kind_of_isStyle hstyle with hkind | hkind <;> simp [plainPieces, styleEnd, hkind]
  exact writes_of_plain hplain state

/-- What entering a node writes for its style, what is pending after it and how far the search has
come add up to the marks of the node and of the rest. -/
theorem pendingMarks_enter {step : Step}
    (hrule : Visited load options run node .enter (.ok step) after) (rest : Pending) :
    (if isStyle node.kind then [writes options node .enter run.state] else []) ++
        pendingMarks options after.state.search (Pending.after node .enter step rest) =
      pendingMarks options run.state.search ((node, .enter) :: rest) := by
  rcases hrule.next_or_skip with ⟨rfl, himage, hover⟩ | ⟨rfl, hstate, -, hskip⟩
  · cases hleaf : node.kind.isLeaf with
    | true =>
        have hstyle := isStyle_end (.inl hleaf)
        rw [pendingMarks, Node.withoutRepeated_end hover (.inl hleaf), hrule.search_eq, hstyle]
        simp [Pending.after, hleaf, Node.styleMarksAll, Node.styleMarks_end (.inl hleaf)]
    | false =>
        -- A container is followed by what is left of its children, and then by its end.
        have hafter : Pending.after node .enter .next rest = Pending.expand node rest := by
          simp [Pending.after, hleaf]
        have hmarks (kept : List Node) : Node.styleMarksAll [{ node with children := kept }] =
            if isStyle node.kind then
              [styleRequest node.kind] :: (Node.styleMarksAll kept ++ [styleEnd])
            else Node.styleMarksAll kept := by
          rw [Node.styleMarksAll_singleton]
          exact Node.styleMarks_container hleaf himage
        rw [pendingMarks, Node.withoutRepeated_container hover hleaf himage, hafter,
          pendingMarks_expand, hrule.search_eq]
        simp only [pendingMarks, hmarks]
        cases hstyle : isStyle node.kind with
        | true =>
            rw [writes_of_plain (plainPieces_enter_style hstyle)]
            simp
        | false => simp
  · -- Neither an image nor a heading is a style.
    have hmarks : Node.styleMarksAll (node.withoutRepeated options run.state.search).1 = [] ∧
        (node.withoutRepeated options run.state.search).2 = run.state.search ∧
        isStyle node.kind = false := by
      rcases hskip with himage | hover
      · have hover : run.state.search.passesOver options node = false := by
          simp [TitleSearch.passesOver, himage]
        rw [Node.withoutRepeated_end hover (.inr himage), Node.styleMarksAll_singleton,
          Node.styleMarks_end (.inr himage)]
        refine ⟨rfl, TitleSearch.after_other (by simp [himage]) (by simp [himage]) _, ?_⟩
        rw [himage]
        rfl
      · rw [Node.withoutRepeated_over hover]
        refine ⟨rfl, rfl, ?_⟩
        rw [TitleSearch.heading_of_passesOver hover]
        rfl
    obtain ⟨hnone, hsearch, hstyle⟩ := hmarks
    rw [pendingMarks, hnone, hsearch, hstyle, hstate]
    rfl

/-- What the visits of styles wrote and the marks of those that are still to be visited are the
marks of the tree without the headings that are passed over. -/
theorem styleWrites_of_underway
    (hunderway : Underway (visitWith load options) root start pending history run) :
    styleWrites options history ++ pendingMarks options run.state.search pending =
      Node.styleMarksAll (root.withoutRepeated options start.state.search).1 := by
  induction hunderway with
  | start => simp [styleWrites, pendingMarks]
  | @step node phase rest history run after step _ hrun _ ih =>
      rw [← ih, styleWrites_cons, List.append_assoc]
      congr 1
      cases phase with
      | enter => exact pendingMarks_enter (visited hrun) rest
      | leave =>
          rw [(visited hrun).search_eq, pendingMarks]
          cases hstyle : isStyle node.kind with
          | true => simp [writes_leave_style hstyle, Pending.after]
          | false => simp [Pending.after]

/-- The last font that a visit of a style or a code span requests is the one it leaves in effect. -/
theorem getLast?_fontRequests_writes (hwrites : isStyle node.kind = true ∨ node.kind = .codeSpan)
    (state : State) :
    ((writes options node phase state).filter isFontRequest).getLast? = fontAfter node phase := by
  rcases hwrites with hstyle | hkind
  · cases phase with
    | enter =>
        rw [writes_of_plain (plainPieces_enter_style hstyle), fontAfter_enter hstyle]
        unfold styleRequest
        split <;> rfl
    | leave =>
        rw [writes_leave_style hstyle, fontAfter_leave hstyle]
        rfl
  · have hplain : plainPieces node phase =
        some [Troff.lineBreak, Troff.bold (some node.literal), Troff.roman] := by
      simp [plainPieces, hkind]
    have hafter : fontAfter node phase = some Troff.roman := by simp [fontAfter, hkind]
    rw [writes_of_plain hplain, hafter]
    rfl

/-- The last font that a style or a code span requested is the one in effect. -/
theorem getLast?_fontRequests (history : History RenderError Run) :
    (fontRequests options history).getLast? = fontOf (outputOf options history) := by
  induction history with
  | nil => rfl
  | cons v earlier ih =>
      rw [fontOf_outputOf_cons, ← ih, fontRequests, List.reverse_cons, List.filter_append,
        List.flatMap_append, List.getLast?_append, List.filter_cons]
      by_cases hwrites : isStyle v.node.kind = true ∨ v.node.kind = .codeSpan
      · have htrue : (isStyle v.node.kind || decide (v.node.kind = .codeSpan)) = true := by
          simpa using hwrites
        rw [if_pos htrue, List.filter_nil, List.flatMap_singleton,
          getLast?_fontRequests_writes hwrites]
        rfl
      · obtain ⟨hstyle, hcode⟩ : isStyle v.node.kind = false ∧ v.node.kind ≠ .codeSpan := by
          simpa using hwrites
        rw [fontAfter_other hstyle hcode]
        simp [hstyle, hcode, fontRequests]

end

/-- Rendering a tree writes the preamble, then what its visits write, and the request that ends the
document. What the visits of styles write forms brackets, with one switch for each style of the tree
without the headings that are passed over, outside of images and of leaves. Wherever no style is
open, and at the end, the last font that a style or a code span requested is roman, if there is
one. -/
theorem styles_closed_where_none_open (load : Loader) (renderer : Renderer) (root : Node)
    (hresult : (renderer.renderWith load root).result = .ok ()) :
    let history := renderer.historyWith load root
    let kept := Node.reachedAll (root.withoutRepeated renderer.options .idle).1
    (renderer.renderWith load root).written =
      (Renderer.start renderer.options).written.toList ++ outputOf renderer.options history ++
        [Troff.signature] ∧
    Nested (styleWrites renderer.options history) ∧
    (styleWrites renderer.options history).filter (· ≠ styleEnd) =
      (kept.filter (isStyle ·.kind)).map (fun style => [styleRequest style.kind]) ∧
    openStyles history = [] ∧
    ∀ earlier, earlier <:+ history → openStyles earlier = [] →
      (fontRequests renderer.options earlier).getLast? = none ∨
        (fontRequests renderer.options earlier).getLast? = some Troff.roman := by
  obtain ⟨final, hwalk, -⟩ := Renderer.walk_of_renderWith_ok hresult
  have hunderway := underway_historyOf hwalk
  have hmarks := styleWrites_of_underway hunderway
  rw [pendingMarks, List.append_nil, Renderer.start_state] at hmarks
  refine ⟨?_, ?_, ?_, ?_, ?_⟩
  · rw [Renderer.renderWith_ok hwalk, written_of_underway hunderway]
    rfl
  · rw [Renderer.historyWith, hmarks]
    exact nested_styleMarksAll fun child _ => nested_styleMarks child
  · rw [Renderer.historyWith, hmarks]
    exact switches_styleMarksAll fun child _ => switches_styleMarks child
  · rw [openStyles, Renderer.historyWith, hunderway.open_of_done]
    rfl
  · intro earlier hsuffix hopen
    obtain ⟨_, _, hmade⟩ := hunderway.of_suffix hsuffix
    rw [getLast?_fontRequests]
    exact (fontTold_of_underway hmade).outside hopen

/-- Emphasis that holds strong text and code, with styles in an image and in front matter that is
repeated. -/
def styledDocument : Node where
  kind := .document
  children := [
    { kind := .heading, isTitleBlock := true, children := [{ kind := .text }] },
    { kind := .heading, isTitleBlock := true
      children := [{ kind := .emphasis, children := [{ kind := .text, literal := "a" }] }] },
    { kind := .paragraph
      children := [
        { kind := .emphasis
          children := [
            { kind := .strong
              children := [{ kind := .image, children := [{ kind := .strong }] }] },
            { kind := .codeSpan, literal := "b" }] },
        { kind := .text, literal := "c" }] }]

/-- Of the styles in this document two are reached, and both are closed before the last text. -/
theorem styles_closed_in_document :
    (Renderer.renderWith (fun _ => .ok {}) {} styledDocument).result = .ok () ∧
    Nested (styleWrites {} (Renderer.historyWith (fun _ => .ok {}) {} styledDocument)) ∧
    (styleWrites {} (Renderer.historyWith (fun _ => .ok {}) {} styledDocument)).filter
      (· ≠ styleEnd) = [[Troff.italic], [Troff.bold]] ∧
    ∃ v earlier,
      v :: earlier <:+ Renderer.historyWith (fun _ => .ok {}) {} styledDocument ∧
      v.node.literal = "c" ∧ openStyles earlier = [] ∧
      (fontRequests {} earlier).getLast? = some Troff.roman := by
  have hresult : (Renderer.renderWith (fun _ => .ok {}) {} styledDocument).result = .ok () := by
    rw [Renderer.renderWith, Renderer.document, walk_eq_descend]
    rfl
  obtain ⟨-, hnested, hswitches, -, hclosed⟩ :=
    styles_closed_where_none_open (fun _ => .ok {}) {} styledDocument hresult
  obtain ⟨v, earlier, hvisit, htext, hopen, hsome⟩ : ∃ v earlier,
      v :: earlier <:+ Renderer.historyWith (fun _ => .ok {}) {} styledDocument ∧
      v.node.literal = "c" ∧ openStyles earlier = [] ∧
      (fontRequests {} earlier).getLast? ≠ none :=
    exists_visit_of_drop 2 ⟨_, _, rfl, by decide, rfl, by decide⟩
  refine ⟨hresult, hnested, ?_, v, earlier, hvisit, htext, hopen, ?_⟩
  · rw [hswitches]
    rfl
  · have hsuffix := (List.suffix_cons v earlier).trans hvisit
    exact (hclosed earlier hsuffix hopen).resolve_left hsome

/-- Emphasis that is stored below a text. -/
def emphasisInText : Node where
  kind := .document
  children := [{ kind := .text, children := [{ kind := .emphasis }] }]

/-- No switch is written for emphasis below a text. -/
theorem emphasis_in_text_unmarked :
    (emphasisInText.descendants.filter (isStyle ·.kind)).length = 1 ∧
    (∀ node ∈ emphasisInText :: emphasisInText.descendants,
      node.kind ≠ .image ∧ node.kind ≠ .heading) ∧
    (Renderer.renderWith FrontMatter.load {} emphasisInText).result = .ok () ∧
    Troff.textOf (Renderer.renderWith FrontMatter.load {} emphasisInText).written = ".SG\n" ∧
    styleWrites {} (Renderer.historyWith FrontMatter.load {} emphasisInText) = [] := by
  refine ⟨by decide, by decide, ?_, ?_, ?_⟩
  · rw [Renderer.renderWith, Renderer.document, walk_eq_descend]
    rfl
  · rw [Renderer.renderWith, Renderer.document, walk_eq_descend]
    decide +kernel
  · rw [Renderer.historyWith, historyOf_eq_descend]
    rfl

end Render

end Manuscript
