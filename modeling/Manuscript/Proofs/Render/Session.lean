import Manuscript.Document.Build
import Manuscript.Proofs.Render.History
import Manuscript.Proofs.Render.Loose
import Manuscript.Proofs.Yaml.Entry
import Mathlib

/-! # Sessions of a renderer

A renderer may be asked for documents and for single visits in any order, also for
visits that no walk would make, after failures, and with texts that have no encoding.
A visit that fails leaves behind what `Render.LeftBehind` allows, and a document is
rendered as by a new renderer, whatever was done before (`session_of_operations`).
-/

namespace Manuscript.Renderer

open Render

/-- What a renderer is asked to do. -/
inductive Operation where
  | document (root : Node)
  | visit (node : Node) (phase : Phase)
  | header
  | footer

/-- The renderer after an operation, whether it succeeds or not. -/
def Operation.next (faults : Faults) (load : Loader) (renderer : Renderer) : Operation → Renderer
  | document root => (renderer.renderLoose faults load root).renderer
  | visit node phase => (renderer.renderVisitLoose faults load node phase).renderer
  | header => (renderer.renderHeaderLoose faults).renderer
  | footer => renderer.renderFooter.renderer

/-- The renderer after some operations in order. -/
def afterAll (faults : Faults) (load : Loader) (renderer : Renderer)
    (operations : List Operation) : Renderer :=
  operations.foldl (Operation.next faults load) renderer

section

variable (faults : Faults) (load : Loader) (renderer : Renderer)

/-- No operation changes the options. -/
theorem options_next (operation : Operation) :
    (operation.next faults load renderer).options = renderer.options := by
  cases operation <;> rfl

/-- Neither does a sequence of operations. -/
theorem options_afterAll (operations : List Operation) :
    (renderer.afterAll faults load operations).options = renderer.options := by
  induction operations generalizing renderer with
  | nil => rfl
  | cons operation rest ih => exact (ih _).trans (options_next faults load renderer operation)

/-- A document is rendered from a fresh start. -/
theorem renderLoose_eq (root : Node) :
    renderer.renderLoose faults load root =
      renderLoose faults load { options := renderer.options } root :=
  rfl

/-- Where every text has an encoding, single visits are those of `renderVisitWith`. -/
theorem renderVisitLoose_absent (node : Node) (phase : Phase) :
    renderer.renderVisitLoose Faults.absent load node phase =
      renderer.renderVisitWith load node phase := by
  rw [renderVisitLoose, visitLoose_absent, renderVisitWith]

/-- Where every text has an encoding, documents are those of `renderWith`. -/
theorem renderLoose_absent (root : Node) :
    renderer.renderLoose Faults.absent load root = renderer.renderWith load root := by
  have hheader : headerLoose Faults.absent renderer.options = header renderer.options := by
    unfold headerLoose
    split <;> rfl
  rw [renderLoose, visitLoose_absent, hheader, renderWith, document]

variable {faults load renderer}

/-- A visit that fails leaves behind what `LeftBehind` allows. -/
theorem renderVisitLoose_error {node : Node} {phase : Phase} {e : RenderError}
    (herror : (renderer.renderVisitLoose faults load node phase).result = .error e) :
    LeftBehind faults renderer.options renderer.state node phase e
      (renderer.renderVisitLoose faults load node phase).written
      (renderer.renderVisitLoose faults load node phase).renderer.state := by
  obtain ⟨result, after, hrun⟩ : ∃ result after,
      (visitLoose faults load renderer.options node phase).runFrom { state := renderer.state } =
        (result, after) := ⟨_, _, rfl⟩
  have hperform : renderer.renderVisitLoose faults load node phase = _ := perform_eq hrun
  rw [hperform] at herror ⊢
  cases herror
  obtain ⟨pieces, hwritten, hleft⟩ := leftBehind_of_visitLoose hrun
  have hpieces : after.written.toList = pieces := hwritten
  rw [hpieces]
  exact hleft

end

/-- A payload that is loaded is remembered. -/
theorem renderVisitWith_payload {load : Loader} {renderer : Renderer} {node : Node} {phase : Phase}
    {block : TitleBlock} (hkind : node.kind = .text)
    (hconsuming : renderer.state.consumingFrontMatter = true)
    (hload : load node.literal = .ok block) :
    (renderer.renderVisitWith load node phase).renderer =
      { renderer with state :=
          { renderer.state with titleBlock := some block, consumingFrontMatter := false } } := by
  have hrun : (visitWith load renderer.options node phase).runFrom { state := renderer.state } =
      (.ok .next, (({ state := renderer.state } : Run).note Log.debug (loadedMessage block)).become
        { renderer.state with titleBlock := some block, consumingFrontMatter := false }) := by
    rw [visitWith_text hkind, text]
    simp [hconsuming, loadTitleBlock_eq, hload]
  rw [renderVisitWith, perform_eq hrun]
  rfl

/-- Whatever was asked of a renderer before and whichever texts have no encoding, a visit that fails
has written what `LeftBehind` allows and leaves what is remembered as that says, and a document is
rendered with the result, the output, the reports and the final state that a new renderer comes
to. -/
theorem session_of_operations (faults : Faults) (load : Loader) (options : Options)
    (operations : List Operation) :
    let renderer := afterAll faults load { options } operations
    (∀ node phase e, (renderer.renderVisitLoose faults load node phase).result = .error e →
      LeftBehind faults options renderer.state node phase e
        (renderer.renderVisitLoose faults load node phase).written
        (renderer.renderVisitLoose faults load node phase).renderer.state) ∧
    ∀ root, renderer.renderLoose faults load root = renderLoose faults load { options } root := by
  intro renderer
  have hoptions : renderer.options = options := options_afterAll faults load { options } operations
  constructor
  · intro node phase e herror
    rw [← hoptions]
    exact renderVisitLoose_error herror
  · intro root
    rw [renderLoose_eq, hoptions]

/-- Texts in which U+FFFD stands for half of a surrogate pair. -/
def halfShown : Faults := fun s =>
  LooseText.fault? ⟨s.toList.map fun c => if c = '\ufffd' then .half 0 else .char c⟩

/-- After a document that failed, a table and a heading of front matter are opened. -/
def halfOpen : List Operation := [
  .visit { kind := .list } .leave,
  .document (.document [.list [.listItem [.text "a"]], .listItem []]),
  .visit { kind := .table } .enter,
  .visit { kind := .heading, isTitleBlock := true } .enter]

/-- Neither the table nor the heading can be left, and both are closed by the attempt. A code span
without an encoding breaks the line and fails. -/
theorem session_half_open :
    let renderer := afterAll halfShown FrontMatter.load {} halfOpen
    let visit := renderer.renderVisitLoose halfShown FrontMatter.load
    (visit { kind := .table } .leave).result = .error (.layout .empty) ∧
    (visit { kind := .table } .leave).written = [] ∧
    (visit { kind := .table } .leave).renderer.state = { consumingFrontMatter := true } ∧
    (visit { kind := .heading, isTitleBlock := true } .leave).result = .error .noPayload ∧
    (visit { kind := .heading, isTitleBlock := true } .leave).renderer.state =
      { tableBuffer := some "" } ∧
    (visit (.codeSpan "\ufffd") .enter).result = .error (.encoding ⟨3, 0xd800, 1⟩) ∧
    (visit (.codeSpan "\ufffd") .enter).written = [Troff.lineBreak] ∧
    renderer.renderLoose halfShown FrontMatter.load (.document [.text "b"]) =
      renderLoose halfShown FrontMatter.load {} (.document [.text "b"]) := by
  intro renderer visit
  have hstate : renderer =
      { state := { consumingFrontMatter := true, tableBuffer := some "" } } := by
    simp only [renderer, afterAll, halfOpen, List.foldl, Operation.next, renderLoose,
      walk_eq_descend]
    rfl
  have htable : (visit { kind := .table } .leave).result = .error (.layout .empty) := by
    simp only [visit, hstate]
    rfl
  have hheading : (visit { kind := .heading, isTitleBlock := true } .leave).result =
      .error .noPayload := by
    simp only [visit, hstate]
    rfl
  have hspan : (visit (.codeSpan "\ufffd") .enter).result = .error (.encoding ⟨3, 0xd800, 1⟩) := by
    simp only [visit, hstate]
    rfl
  obtain ⟨hfails, hrenders⟩ := session_of_operations halfShown FrontMatter.load {} halfOpen
  obtain ⟨hwritten, hclosed⟩ := (hfails _ _ _ htable).of_not_encoding (by simp)
  obtain ⟨-, hended⟩ := (hfails _ _ _ hheading).of_not_encoding (by simp)
  refine ⟨htable, hwritten, ?_, hheading, ?_, hspan, ?_, hrenders _⟩
  · refine hclosed.trans ?_
    exact congrArg (fun other : Renderer =>
      other.state.afterFailure { kind := .table } .leave) hstate
  · refine hended.trans ?_
    exact congrArg (fun other : Renderer =>
      other.state.afterFailure { kind := .heading, isTitleBlock := true } .leave) hstate
  · exact ((hfails _ _ _ hspan).of_enclosed rfl).1

/-- The metadata of an author whose name is half of a surrogate pair. -/
def halfNamed : String := "authors: [\"\\ud800\"]"

/-- The tokens of `halfNamed`. -/
def halfNamedTokens : Yaml.Tokens where
  tokens := [.blockMappingStart, .key, .scalar "authors" true, .value, .flowSequenceStart,
    .scalar ⟨[.half 0]⟩ false, .flowSequenceEnd, .blockEnd, .streamEnd]

/-- The half is kept in the name. -/
theorem load_halfNamed :
    FrontMatter.load halfNamed = .ok { authors := [{ name := ⟨[.half 0]⟩ }] } := by
  have htokens : Yaml.Tokens.ofText halfNamed.toList = halfNamedTokens := by
    cbv
  have htree : Yaml.Node.ofTokens halfNamedTokens =
      .ok (some (.entry "authors" (.sequence .seq [.scalar .str ⟨[.half 0]⟩]))) := rfl
  rw [FrontMatter.load, FrontMatter.loadWith, Yaml.load_entry htokens htree]
  rfl

/-- Leaving the front matter of an author without an encoding fails after the title is written. -/
theorem session_half_named :
    let heading : Node := { kind := .heading, level := 1, isTitleBlock := true }
    let renderer := afterAll Faults.absent FrontMatter.load {}
      [.visit heading .enter, .visit { kind := .text, literal := halfNamed } .enter]
    (renderer.renderVisit heading .leave).result = .error (.encoding ⟨3, 0xd800, 1⟩) ∧
    Troff.textOf (renderer.renderVisit heading .leave).written = ".HTML \n.TL \n \n.AU\n" := by
  intro heading renderer
  have hstate : renderer =
      { state := { titleBlock := some { authors := [{ name := ⟨[.half 0]⟩ }] } } } := by
    have hentered : Operation.next Faults.absent FrontMatter.load {} (.visit heading .enter) =
        { state := { consumingFrontMatter := true } } := rfl
    have hrenderer : renderer = Operation.next Faults.absent FrontMatter.load
        (Operation.next Faults.absent FrontMatter.load {} (.visit heading .enter))
        (.visit { kind := .text, literal := halfNamed } .enter) := rfl
    rw [hrenderer, hentered, Operation.next, renderVisitLoose_absent]
    exact renderVisitWith_payload rfl rfl load_halfNamed
  rw [hstate]
  exact ⟨rfl, rfl⟩

end Manuscript.Renderer
