import Manuscript.Proofs.Document.Nesting
import Manuscript.Proofs.Render.Visit
import Manuscript.Render.Renderer

/-! # Histories of rendering

Rendering a document walks its tree from a fresh start with the preamble
written. Its history is that of the walk, and what comes of rendering is what
comes of the walk, followed by the request that ends the document.
-/

namespace Manuscript

open Render

namespace Renderer

/-- The run that a tree is walked from: nothing is remembered, and the preamble is written. -/
def start (options : Options) : Run := ((header options).runFrom {}).2

/-- The visits that rendering a document makes, the latest first. -/
def historyWith (load : Loader) (renderer : Renderer) (root : Node) : History RenderError Run :=
  historyOf (visitWith load renderer.options) root (start renderer.options)

section

variable {load : Loader} {options : Options} {renderer : Renderer} {root : Node}

theorem runFrom_header : (header options).runFrom {} = (.ok (), start options) := by
  unfold start header
  split <;> rfl

@[simp] theorem start_state : (start options).state = {} := by
  unfold start header
  split <;> rfl

/-- A document starts with its preamble, if it has one. -/
theorem start_written : (start options).written.toList =
    if options.preamble.isEmpty then [] else [.text options.preamble] := by
  unfold start header
  split <;> rfl

/-- What an operation did can be read off its run. -/
theorem perform_eq {α : Type} {state : State} {action : Writer α} {result : Except RenderError α}
    {run : Run} (hrun : action.runFrom { state } = (result, run)) :
    renderer.perform state action =
      { result, written := run.written.toList, log := run.log.toList,
        renderer := { renderer with state := run.state } } := by
  have hrun' : action.run.run { state } = (result, run) := hrun
  simp only [perform, hrun']

/-- If a visit fails, rendering fails with its error and writes nothing more. -/
theorem renderWith_error {e : RenderError} {final : Run}
    (hwalk : (walk (visitWith load renderer.options) root).runFrom (start renderer.options) =
      (.error e, final)) :
    renderer.renderWith load root =
      { result := .error e, written := final.written.toList, log := final.log.toList,
        renderer := { renderer with state := final.state } } := by
  refine perform_eq ?_
  simp [document, runFrom_header, hwalk]

/-- The report on a document that was rendered. -/
def renderedMessage (written : List Troff.Piece) : String :=
  s!"Rendered {(Troff.textOf written).utf8ByteSize} bytes of ms macros"

theorem runFrom_footer (run : Run) : footer.runFrom run = (.ok (), run.add [Troff.signature]) :=
  rfl

/-- If no visit fails, rendering ends the document. -/
theorem renderWith_ok {step : Step} {final : Run}
    (hwalk : (walk (visitWith load renderer.options) root).runFrom (start renderer.options) =
      (.ok step, final)) :
    renderer.renderWith load root =
      { result := .ok (), written := final.written.toList ++ [Troff.signature],
        log := final.log.toList ++
          [⟨Log.debug, renderedMessage (final.written.toList ++ [Troff.signature])⟩],
        renderer := { renderer with state := final.state } } := by
  have hdocument : (document load renderer.options root).runFrom {} =
      (.ok (), (final.add [Troff.signature]).note Log.debug
        (renderedMessage (final.written.toList ++ [Troff.signature]))) := by
    simp [document, ending, runFrom_header, runFrom_footer, hwalk]
    rfl
  rw [renderWith, perform_eq hdocument]
  simp [Run.note, Run.add]

/-- Rendering succeeds only if the walk comes to its end. -/
theorem walk_of_renderWith_ok (hresult : (renderer.renderWith load root).result = .ok ()) :
    ∃ final,
      (walk (visitWith load renderer.options) root).runFrom (start renderer.options) =
        (.ok .next, final) ∧
      (renderer.renderWith load root).renderer.state = final.state := by
  obtain ⟨result, final, hwalk⟩ :
      ∃ result final, (walk (visitWith load renderer.options) root).runFrom
        (start renderer.options) = (result, final) := ⟨_, _, rfl⟩
  cases result with
  | error e =>
      rw [renderWith_error hwalk] at hresult
      cases hresult
  | ok step =>
      have haccounts := (runFrom_walk_recorded hwalk).2
      have hstep : step = .next := by
        refine haccounts.eq_next fun v hmem => ?_
        obtain ⟨earlier, hmakes⟩ := exists_makes_of_mem hmem
        rw [← hmakes.answer]
        exact (visited rfl).ne_stop
      subst hstep
      refine ⟨final, hwalk, ?_⟩
      rw [renderWith_ok hwalk]

end

end Renderer

end Manuscript
