import Manuscript.Proofs.Document.Reach
import Manuscript.Proofs.Render.Visit

/-! # Headings that are passed over

Once a title block was loaded, further headings of front matter are passed over
together with all that is below them. How far the search for the title block
has come is told by the tree alone, and so is the tree without the headings that
are passed over (`Node.withoutRepeated`).
-/

namespace Manuscript

namespace Render

/-- How far the search for the title block has come: it is not being read, the next text is it, or
it was loaded. -/
inductive TitleSearch where
  | idle
  | reading
  | done
  deriving DecidableEq

namespace TitleSearch

/-- The search after a visit that does not fail. -/
def after (options : Options) (node : Node) (phase : Phase) : TitleSearch → TitleSearch
  | .done => .done
  | search =>
    match node.kind, phase with
    | .text, _ => if search = .reading then .done else search
    | .heading, .enter => if isFrontMatter options node then .reading else .idle
    | .heading, .leave => .idle
    | _, _ => search

/-- A heading is passed over: it carries front matter, and the title block was loaded. -/
def passesOver (options : Options) (node : Node) (search : TitleSearch) : Bool :=
  search = .done && node.kind = .heading && isFrontMatter options node

end TitleSearch

/-- How far the search has come in a state. -/
def State.search (state : State) : TitleSearch :=
  if state.titleBlock.isSome then .done
  else if state.consumingFrontMatter then .reading
  else .idle

end Render

open Render

namespace Node

mutual

/-- The tree without the headings that are passed over, which is no tree if it is one of them, and
how far the search has come after it. -/
def withoutRepeated (options : Options) (search : TitleSearch) : Node → List Node × TitleSearch
  | ⟨kind, literal, level, isTitleBlock, listStyle, destination, children⟩ =>
    let node : Node := ⟨kind, literal, level, isTitleBlock, listStyle, destination, children⟩
    if search.passesOver options node then ([], search)
    else if kind.isLeaf || kind == .image then ([node], search.after options node .enter)
    else
      let below := withoutRepeatedAll options (search.after options node .enter) children
      ([{ node with children := below.1 }], below.2.after options node .leave)

/-- The trees of a forest without the headings that are passed over. -/
def withoutRepeatedAll (options : Options) (search : TitleSearch) :
    List Node → List Node × TitleSearch
  | [] => ([], search)
  | child :: rest =>
    let first := child.withoutRepeated options search
    let others := withoutRepeatedAll options first.2 rest
    (first.1 ++ others.1, others.2)

end

section

variable {options : Options} {search : TitleSearch} {node : Node}

theorem withoutRepeated_eq (options : Options) (search : TitleSearch) (node : Node) :
    node.withoutRepeated options search =
      if search.passesOver options node then ([], search)
      else if node.kind.isLeaf || node.kind == .image then
        ([node], search.after options node .enter)
      else
        let below := withoutRepeatedAll options (search.after options node .enter) node.children
        ([{ node with children := below.1 }], below.2.after options node .leave) := by
  cases node
  rfl

theorem withoutRepeated_over (hover : search.passesOver options node = true) :
    node.withoutRepeated options search = ([], search) := by
  rw [withoutRepeated_eq, if_pos hover]

theorem withoutRepeated_end (hover : search.passesOver options node = false)
    (hend : node.kind.isLeaf = true ∨ node.kind = .image) :
    node.withoutRepeated options search = ([node], search.after options node .enter) := by
  rw [withoutRepeated_eq, hover, if_neg Bool.false_ne_true, if_pos (by simpa using hend)]

theorem withoutRepeated_container (hover : search.passesOver options node = false)
    (hleaf : node.kind.isLeaf = false) (himage : node.kind ≠ .image) :
    node.withoutRepeated options search =
      let below := withoutRepeatedAll options (search.after options node .enter) node.children
      ([{ node with children := below.1 }], below.2.after options node .leave) := by
  rw [withoutRepeated_eq, hover, if_neg Bool.false_ne_true, if_neg (by simp [hleaf, himage])]

theorem withoutRepeatedAll_singleton (options : Options) (search : TitleSearch) (node : Node) :
    withoutRepeatedAll options search [node] = node.withoutRepeated options search := by
  rw [withoutRepeatedAll, withoutRepeatedAll, List.append_nil]

end

end Node

namespace Render

section

variable {load : Loader} {options : Options} {node : Node} {phase : Phase} {run after : Run}
  {step : Step}

/-- Only texts and headings move the search. -/
theorem TitleSearch.after_other (htext : node.kind ≠ .text) (hheading : node.kind ≠ .heading)
    (search : TitleSearch) : search.after options node phase = search := by
  unfold TitleSearch.after
  split
  · rfl
  · split <;> simp_all

/-- Visits move the search as it says. -/
theorem Visited.search_eq (hrule : Visited load options run node phase (.ok step) after) :
    after.state.search = run.state.search.after options node phase := by
  cases hrule with
  | plain hplain =>
      obtain ⟨⟨-, htext, -⟩, -, -, hheading, -⟩ := kind_of_plainPieces hplain
      rw [TitleSearch.after_other htext hheading, Run.state_add]
  | mark hmark =>
      rcases kind_of_tableMark hmark with ⟨hkind, -⟩ | ⟨hkind, -⟩ <;>
        exact (TitleSearch.after_other (by simp [hkind]) (by simp [hkind]) _).symm
  | image hkind | enterTable hkind | leaveTable hkind | enterList hkind | leaveList hkind
  | enterItem hkind =>
      exact (TitleSearch.after_other (by simp [hkind]) (by simp [hkind]) _).symm
  | payload hkind hconsuming =>
      simp only [State.search, hconsuming, Run.state_become, Option.isSome_some, if_true]
      split <;> simp [TitleSearch.after, hkind]
  | emptyText hkind hconsuming | bufferedText hkind hconsuming | writtenText hkind hconsuming =>
      simp only [State.search, hconsuming, Run.state_become, Run.state_add]
      split <;> simp [TitleSearch.after, hkind]
  | repeatedFrontMatter hkind hfront hblock =>
      simp [State.search, hblock, TitleSearch.after]
  | enterFrontMatter hkind hfront hblock =>
      simp only [State.search, hblock, Run.state_become]
      cases run.state.consumingFrontMatter <;> simp [TitleSearch.after, hkind, hfront]
  | enterSection hkind hfront =>
      simp only [State.search, Run.state_become, Run.state_add]
      by_cases hblock : run.state.titleBlock.isSome = true <;>
        cases hconsuming : run.state.consumingFrontMatter <;>
        simp [TitleSearch.after, hkind, hfront, hblock]
  | leaveSection hkind | leaveFrontMatter hkind =>
      simp only [State.search, Run.state_become, Run.state_add]
      by_cases hblock : run.state.titleBlock.isSome = true <;>
        cases hconsuming : run.state.consumingFrontMatter <;>
        simp [TitleSearch.after, hkind, hblock]

theorem TitleSearch.heading_of_passesOver {search : TitleSearch}
    (hover : search.passesOver options node = true) : node.kind = .heading := by
  simp only [passesOver, Bool.and_eq_true, decide_eq_true_eq] at hover
  exact hover.1.2

/-- Images and headings that repeat front matter are passed over, and only they. -/
theorem Visited.next_or_skip (hrule : Visited load options run node .enter (.ok step) after) :
    (step = .next ∧ node.kind ≠ .image ∧ run.state.search.passesOver options node = false) ∨
      (step = .skipChildren ∧ after.state = run.state ∧ after.written = run.written ∧
        (node.kind = .image ∨ run.state.search.passesOver options node = true)) := by
  cases hrule with
  | image hkind => exact .inr ⟨rfl, rfl, rfl, .inl hkind⟩
  | repeatedFrontMatter hkind hfront hblock =>
      refine .inr ⟨rfl, rfl, rfl, .inr ?_⟩
      simp [TitleSearch.passesOver, State.search, hkind, hfront, hblock]
  | plain hplain =>
      obtain ⟨⟨-, -, himage⟩, -, -, hheading, -⟩ := kind_of_plainPieces hplain
      exact .inl ⟨rfl, himage, by simp [TitleSearch.passesOver, hheading]⟩
  | payload hkind | emptyText hkind | bufferedText hkind | writtenText hkind | enterTable hkind
  | enterList hkind | enterItem hkind =>
      exact .inl ⟨rfl, by simp [hkind], by simp [TitleSearch.passesOver, hkind]⟩
  | enterFrontMatter hkind hfront hblock =>
      refine .inl ⟨rfl, by simp [hkind], ?_⟩
      simp only [TitleSearch.passesOver, State.search, hblock]
      cases run.state.consumingFrontMatter <;> simp
  | enterSection hkind hfront =>
      exact .inl ⟨rfl, by simp [hkind], by simp [TitleSearch.passesOver, hfront]⟩

theorem passesOverImages (load : Loader) (options : Options) :
    PassesOverImages (visitWith load options) := by
  intro node run after hrun
  rcases (visited hrun).next_or_skip with ⟨-, himage, -⟩ | ⟨hskip, -⟩
  · exact himage
  · cases hskip

/-- What rendering a node comes to: the node is a heading that is passed over, or it is visited
once, or it is entered, its children are rendered and it is left. -/
inductive Renders (load : Loader) (options : Options) (node : Node) (run after : Run) : Prop
  | passed (hover : run.state.search.passesOver options node = true)
      (hstate : after.state = run.state) (hwritten : after.written = run.written)
  | once {step : Step} (hover : run.state.search.passesOver options node = false)
      (hend : node.kind.isLeaf = true ∨ node.kind = .image)
      (hrule : Visited load options run node .enter (.ok step) after)
  | container {entered left : Run} {first step last : Step}
      (hover : run.state.search.passesOver options node = false)
      (hleaf : node.kind.isLeaf = false) (himage : node.kind ≠ .image)
      (henter : Visited load options run node .enter (.ok first) entered)
      (hbelow : (Node.descendAll (visitWith load options) node.children).runFrom entered =
        (.ok step, left))
      (hstep : step ≠ .stop) (hleave : Visited load options left node .leave (.ok last) after)

/-- Rendering a node without failure comes to one of these. -/
theorem renders_of_ok (hstep : step ≠ .stop)
    (hrun : (node.descend (visitWith load options)).runFrom run = (.ok step, after)) :
    Renders load options node run after := by
  cases (Node.descends_of_ok hstep hrun).2 with
  | skip henter =>
      rcases (visited henter).next_or_skip with ⟨hnext, -⟩ | ⟨-, hstate, hwritten, himage | hover⟩
      · cases hnext
      · exact .once (by simp [TitleSearch.passesOver, himage]) (.inr himage) (visited henter)
      · exact .passed hover hstate hwritten
  | leaf hleaf henter =>
      rcases (visited henter).next_or_skip with ⟨-, -, hover⟩ | ⟨hskip, -⟩
      · exact .once hover (.inl hleaf) (visited henter)
      · cases hskip
  | container hleaf henter hbelow hgo hleave =>
      rcases (visited henter).next_or_skip with ⟨-, himage, hover⟩ | ⟨hskip, -⟩
      · exact .container hover hleaf himage (visited henter) hbelow hgo (visited hleave)
      · cases hskip

end

end Render

end Manuscript
