import Manuscript.Failure
import Manuscript.Proofs.Document.Nesting
import Manuscript.Proofs.FrontMatter.Answers
import Manuscript.Proofs.Render.Fit
import Manuscript.Proofs.Render.History

/-! # Payloads that rendering loads

A text that is visited while front matter is read is loaded as its payload, and the title
block that it gives is written at the end of its heading. Every other error of a visit is
reported as one of rendering, so that whether an error is reported is decided by the
payloads and the title blocks (`isReported_iff_answers`).
-/

namespace Manuscript

namespace FrontMatter

variable {read : Reader} {payload : String}

end FrontMatter

namespace Render

section

variable {load : Loader} {options : Options} {run after : Run} {node : Node} {phase : Phase}

theorem Visited.answer_of_load {answer : Except RenderError Step}
    (hrule : Visited load options run node phase answer after) (hkind : node.kind = .text)
    (hconsuming : run.state.consumingFrontMatter = true) {e : FrontMatter.LoadError}
    (herror : load node.literal = .error e) : answer = .error (.frontMatter e) := by
  cases hrule <;> simp_all [plainPieces, tableMark, hasRendering]

/-- A visit that ends front matter has its title block written. -/
structure Writes (options : Options) (state : State) (node : Node) (phase : Phase)
    (block : TitleBlock) : Prop where
  leaves : node.kind = .heading ∧ phase = .leave
  frontMatter : isFrontMatter options node = true
  remembered : state.titleBlock = some block

theorem Writes.answer_of_requests {block : TitleBlock} {answer : Except RenderError Step}
    (hwrites : Writes options run.state node phase block)
    (hrule : Visited load options run node phase answer after)
    {pieces : List Troff.Piece} {e : EncodingError}
    (hrequests : Troff.requests (Troff.titleBlock block) = (pieces, some e)) :
    answer = .error (.encoding e) := by
  obtain ⟨⟨hkind, rfl⟩, hfront, hblock⟩ := hwrites
  cases hrule <;> simp_all [plainPieces, tableMark, hasRendering]

end

variable {load : Loader} {renderer : Renderer} {root : Node}

/-- A payload is loaded when a tree is rendered. -/
def Loads (load : Loader) (renderer : Renderer) (root : Node) (payload : String) : Prop :=
  ∃ v ∈ renderer.historyWith load root, v.node.kind = .text ∧
    v.before.state.consumingFrontMatter = true ∧ v.node.literal = payload

/-- A title block comes to be written when a tree is rendered. -/
def ComesToWrite (load : Loader) (renderer : Renderer) (root : Node) (block : TitleBlock) : Prop :=
  ∃ v ∈ renderer.historyWith load root,
    Writes renderer.options v.before.state v.node v.phase block

/-- Rendering fails with the error of one of its visits. -/
theorem renderWith_error_iff (e : RenderError) :
    (renderer.renderWith load root).result = .error e ↔
      ∃ v ∈ renderer.historyWith load root, v.answer = .error e := by
  obtain ⟨result, final, hwalk⟩ :
      ∃ result final, (walk (visitWith load renderer.options) root).runFrom
        (Renderer.start renderer.options) = (result, final) := ⟨_, _, rfl⟩
  have haccounts := (runFrom_walk_recorded hwalk).2.error e
  rw [Renderer.historyWith, ← haccounts]
  cases result with
  | ok step => simp [Renderer.renderWith_ok hwalk]
  | error e' => simp [Renderer.renderWith_error hwalk]

theorem visited_of_mem {v : Visit RenderError Run} (hmem : v ∈ renderer.historyWith load root) :
    ∃ after, Visited load renderer.options v.before v.node v.phase v.answer after := by
  obtain ⟨earlier, hmakes⟩ := exists_makes_of_mem hmem
  exact ⟨_, visited (Prod.ext hmakes.answer rfl)⟩

/-- A payload that gives no title block ends rendering. -/
theorem Loads.error {payload : String} (hloads : Loads load renderer root payload)
    {e : FrontMatter.LoadError} (herror : load payload = .error e) :
    (renderer.renderWith load root).result = .error (.frontMatter e) := by
  obtain ⟨v, hmem, hkind, hconsuming, rfl⟩ := hloads
  refine (renderWith_error_iff _).mpr ⟨v, hmem, ?_⟩
  obtain ⟨after, hrule⟩ := visited_of_mem hmem
  exact hrule.answer_of_load hkind hconsuming herror

/-- A title block without an encoding ends rendering. -/
theorem ComesToWrite.error {block : TitleBlock} (hcomes : ComesToWrite load renderer root block)
    {e : EncodingError} (herror : (Troff.requests (Troff.titleBlock block)).2 = some e) :
    (renderer.renderWith load root).result = .error (.encoding e) := by
  obtain ⟨v, hmem, hwrites⟩ := hcomes
  refine (renderWith_error_iff _).mpr ⟨v, hmem, ?_⟩
  obtain ⟨after, hrule⟩ := visited_of_mem hmem
  exact hwrites.answer_of_requests hrule (Prod.ext rfl herror)

end Render

end Manuscript
