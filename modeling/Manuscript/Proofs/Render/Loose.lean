import Manuscript.Proofs.Render.Visit
import Manuscript.Render.Loose

/-! # Visits that fail

A visit that fails leaves what is remembered as it was, but that leaving a table closes
its buffer and leaving a heading ends the search for front matter even then. It has
written nothing, unless a text has no encoding: then what comes before that text is
written, and an item is counted before its label fails. `LeftBehind` lists the cases.
-/

namespace Manuscript.Render

open Troff (Piece)

/-- What is remembered after a visit that failed for another reason than a text without an
encoding. -/
def State.afterFailure (state : State) (node : Node) (phase : Phase) : State :=
  match node.kind, phase with
  | .table, .leave => { state with tableBuffer := none }
  | .heading, .leave => { state with consumingFrontMatter := false }
  | _, _ => state

/-- Entering a node in vain forgets nothing. -/
theorem State.afterFailure_enter (state : State) (node : Node) :
    state.afterFailure node .enter = state := by
  unfold afterFailure
  split <;> simp_all

/-- Only tables and headings forget something. -/
theorem State.afterFailure_other (state : State) {node : Node} (htable : node.kind ≠ .table)
    (hheading : node.kind ≠ .heading) (phase : Phase) : state.afterFailure node phase = state := by
  unfold afterFailure
  split
  next hkind => exact absurd hkind htable
  next hkind => exact absurd hkind hheading
  next => rfl

/-- What a visit that failed from a state had written by then, and what is remembered after it. -/
inductive LeftBehind (faults : Faults) (options : Options) (state : State) (node : Node)
    (phase : Phase) : RenderError → List Piece → State → Prop
  | refused {e} (hother : ∀ cause, e ≠ .encoding cause) :
      LeftBehind faults options state node phase e [] (state.afterFailure node phase)
  | text {cause} (hkind : node.kind = .text) (hconsuming : state.consumingFrontMatter = false)
      (hfault : faults (Text.dropSpaces node.literal) = some cause) :
      LeftBehind faults options state node phase (.encoding cause) [] state
  | literal {enclosed cause} (hliteral : enclosedLiteral? node phase = some enclosed)
      (hfault : faults enclosed.literal.toText = some cause) :
      LeftBehind faults options state node phase (.encoding cause) enclosed.before state
  | item {count outer cause} (hkind : node.kind = .listItem ∧ phase = .enter)
      (hcounters : state.counters = count :: outer)
      (hfault : faults (itemStart node ((count + 1) :: outer)).toText = some cause) :
      LeftBehind faults options state node phase (.encoding cause) []
        { state with counters := (count + 1) :: outer }
  | titleBlock {block pieces cause} (hkind : node.kind = .heading ∧ phase = .leave)
      (hfront : isFrontMatter options node = true) (hblock : state.titleBlock = some block)
      (hrequests : Troff.requests (Troff.titleBlock block) = (pieces, some cause)) :
      LeftBehind faults options state node phase (.encoding cause) pieces
        { state with consumingFrontMatter := false }

section

variable {faults : Faults} {load : Loader} {options : Options} {run after : Run} {node : Node}
  {phase : Phase} {e : RenderError}

/-- A visit that fails for another reason than a text without an encoding has written nothing. -/
theorem LeftBehind.of_not_encoding {state left : State} {pieces : List Piece}
    (hleft : LeftBehind faults options state node phase e pieces left)
    (hother : ∀ cause, e ≠ .encoding cause) :
    pieces = [] ∧ left = state.afterFailure node phase := by
  cases hleft with
  | refused => exact ⟨rfl, rfl⟩
  | text | literal | item | titleBlock => exact absurd rfl (hother _)

/-- Of a literal without an encoding, what comes before it is written. -/
theorem LeftBehind.of_enclosed {state left : State} {enclosed : Enclosed} {cause : EncodingError}
    {pieces : List Piece}
    (hleft : LeftBehind faults options state node phase (.encoding cause) pieces left)
    (hliteral : enclosedLiteral? node phase = some enclosed) :
    pieces = enclosed.before ∧ left = state := by
  cases hleft with
  | refused hother => exact absurd rfl (hother _)
  | literal hother =>
      cases hother.symm.trans hliteral
      exact ⟨rfl, rfl⟩
  | text hkind => simp [enclosedLiteral?, hkind] at hliteral
  | item hkind => simp [enclosedLiteral?, hkind] at hliteral
  | titleBlock hkind => simp [enclosedLiteral?, hkind] at hliteral

/-- What a failing visit of texts that all have an encoding leaves behind. -/
theorem Visited.leftBehind (faults : Faults)
    (hrule : Visited load options run node phase (.error e) after) :
    ∃ pieces, after.written.toList = run.written.toList ++ pieces ∧
      LeftBehind faults options run.state node phase e pieces after.state := by
  -- All rules but one leave the output as it was.
  have hrefused (hother : ∀ cause, e ≠ .encoding cause) (hwritten : after.written = run.written)
      (hstate : after.state = run.state.afterFailure node phase) :
      ∃ pieces, after.written.toList = run.written.toList ++ pieces ∧
        LeftBehind faults options run.state node phase e pieces after.state := by
    refine ⟨[], by rw [hwritten, List.append_nil], ?_⟩
    rw [hstate]
    exact .refused hother
  cases hrule with
  | unknown hkind =>
      refine hrefused (by simp) rfl (State.afterFailure_other _ ?_ ?_ _).symm <;>
        · intro hother
          simp [hother, hasRendering] at hkind
  | badPayload hkind =>
      exact hrefused (by simp) rfl
        (State.afterFailure_other _ (by simp [hkind]) (by simp [hkind]) _).symm
  | nestedTable | outsideList => exact hrefused (by simp) rfl (State.afterFailure_enter _ _).symm
  | badTable hkind =>
      refine hrefused (by simp) rfl ?_
      simp [State.afterFailure, hkind]
  | outsideTable hkind hbuffer =>
      refine hrefused (by simp) rfl ?_
      rcases hkind with hkind | hmark
      · -- Without a table there is no buffer to close.
        simp [State.afterFailure, hkind, ← hbuffer]
      · obtain ⟨mark, hmark⟩ := Option.isSome_iff_exists.mp hmark
        rcases kind_of_tableMark hmark with ⟨hkind, -⟩ | ⟨hkind, -⟩ <;>
          simp [State.afterFailure, hkind]
  | badTitleBlock hkind hfront hblock hrequests =>
      exact ⟨_, Run.written_add _ _, .titleBlock ⟨hkind, rfl⟩ hfront hblock hrequests⟩
  | noPayload hkind =>
      refine hrefused (by simp) rfl ?_
      simp [State.afterFailure, hkind]

/-! ## Visits that encode -/

/-- All that is written of a literal that has an encoding. -/
def Enclosed.pieces (enclosed : Enclosed) : List Piece :=
  enclosed.before ++ enclosed.literal :: enclosed.after

/-- Encoding a text does nothing, or fails with the reason. -/
theorem runFrom_encode (s : String) (run : Run) :
    (encode faults s).runFrom run =
      match faults s with
      | none => (.ok (), run)
      | some cause => (.error (.encoding cause), run) := by
  unfold encode
  cases faults s <;> rfl

/-- A literal is written with what surrounds it, or only what comes before it is written. -/
theorem runFrom_writeEnclosed (enclosed : Enclosed) (run : Run) :
    (writeEnclosed faults enclosed).runFrom run =
      match faults enclosed.literal.toText with
      | none => (.ok (), run.add enclosed.pieces)
      | some cause => (.error (.encoding cause), run.add enclosed.before) := by
  cases hfault : faults enclosed.literal.toText <;>
    simp [writeEnclosed, runFrom_encode, hfault, Run.add_add, Enclosed.pieces]

/-- An item is counted, and then its start is written if it has an encoding. -/
theorem runFrom_enterItemLoose {count : Nat} {outer : List Nat}
    (hcounters : run.state.counters = count :: outer) :
    (enterItemLoose faults node).runFrom run =
      let counted := run.become { run.state with counters := (count + 1) :: outer }
      match faults (itemStart node ((count + 1) :: outer)).toText with
      | none => (.ok (), counted.add [itemStart node ((count + 1) :: outer)])
      | some cause => (.error (.encoding cause), counted) := by
  cases hfault : faults (itemStart node ((count + 1) :: outer)).toText <;>
    simp [enterItemLoose, countItem, hcounters, runFrom_encode, hfault]

section Kinds

/-- Visits that write a literal of their own. -/
theorem visitLoose_enclosed {enclosed : Enclosed}
    (hliteral : enclosedLiteral? node phase = some enclosed) :
    visitLoose faults load options node phase = (do
      writeEnclosed faults enclosed
      return .next) := by
  simp only [visitLoose, hliteral]

theorem visitLoose_text (hkind : node.kind = .text) :
    visitLoose faults load options node phase = (do
      textLoose faults load node
      return .next) := by
  cases node
  cases hkind
  rfl

theorem visitLoose_enterItem (hkind : node.kind = .listItem) :
    visitLoose faults load options node .enter = (do
      enterItemLoose faults node
      return .next) := by
  cases node
  cases hkind
  rfl

/-- Visits that encode no text of their node. -/
theorem visitLoose_other (hliteral : enclosedLiteral? node phase = none) (htext : node.kind ≠ .text)
    (hitem : ¬(node.kind = .listItem ∧ phase = .enter)) :
    visitLoose faults load options node phase = visitWith load options node phase := by
  unfold visitLoose
  rw [hliteral]
  split
  next hsome => cases hsome
  next hkind => exact absurd hkind htext
  next hkind => exact absurd ⟨hkind, rfl⟩ hitem
  next => simp

/-- The literal in what a visit writes. -/
theorem plainPieces_enclosed {enclosed : Enclosed}
    (hliteral : enclosedLiteral? node phase = some enclosed) :
    plainPieces node phase = some enclosed.pieces := by
  unfold enclosedLiteral? at hliteral
  split at hliteral <;> cases hliteral <;> simp_all [plainPieces, Enclosed.pieces, Troff.codeBlock]

end Kinds

/-! ## Every visit encodes its texts or fails -/

/-- A visit does what it does to texts that all have an encoding, or it fails at one that has none
and leaves behind what came before that text. -/
def EncodesOrFails (faults : Faults) (load : Loader) (options : Options) (run : Run) (node : Node)
    (phase : Phase) : Prop :=
  (visitLoose faults load options node phase).runFrom run =
      (visitWith load options node phase).runFrom run ∨
    ∃ s cause pieces left, faults s = some cause ∧
      (visitLoose faults load options node phase).runFrom run =
        (.error (.encoding cause), (run.become left).add pieces) ∧
      LeftBehind faults options run.state node phase (.encoding cause) pieces left

/-- A literal fails after what comes before it is written. -/
theorem encodesOrFails_enclosed {enclosed : Enclosed}
    (hliteral : enclosedLiteral? node phase = some enclosed) :
    EncodesOrFails faults load options run node phase := by
  rw [EncodesOrFails, visitLoose_enclosed hliteral,
    runFrom_visit_plain (plainPieces_enclosed hliteral)]
  cases hfault : faults enclosed.literal.toText with
  | none => exact .inl (by simp [runFrom_writeEnclosed, hfault])
  | some cause =>
      refine .inr ⟨_, cause, enclosed.before, run.state, hfault, ?_, .literal hliteral hfault⟩
      simp [runFrom_writeEnclosed, hfault, Run.become]

/-- A text fails before it is written or goes into the open table. -/
theorem encodesOrFails_text (hkind : node.kind = .text) :
    EncodesOrFails faults load options run node phase := by
  rw [EncodesOrFails, visitLoose_text hkind, visitWith_text hkind]
  by_cases hwrites : run.state.consumingFrontMatter = false ∧ node.literal ≠ ""
  · obtain ⟨hconsuming, hliteral⟩ := hwrites
    cases hfault : faults (Text.dropSpaces node.literal) with
    | none => exact .inl (by simp [textLoose, runFrom_encode, hconsuming, hliteral, hfault])
    | some cause =>
        refine .inr ⟨_, cause, [], run.state, hfault, ?_, .text hkind hconsuming hfault⟩
        simp [textLoose, runFrom_encode, hconsuming, hliteral, hfault, Run.become]
  · -- The payload of front matter and the empty text are not encoded.
    refine .inl ?_
    simp only [ne_eq] at hwrites
    simp [textLoose, hwrites]

/-- An item fails after it is counted. -/
theorem encodesOrFails_enterItem (hkind : node.kind = .listItem) :
    EncodesOrFails faults load options run node .enter := by
  rw [EncodesOrFails, visitLoose_enterItem hkind, visitWith_enterItem hkind]
  cases hcounters : run.state.counters with
  | nil => exact .inl (by simp [enterItemLoose, enterItem, countItem, hcounters])
  | cons count outer =>
      cases hfault : faults (itemStart node ((count + 1) :: outer)).toText with
      | none =>
          refine .inl ?_
          simp [runFrom_enterItemLoose hcounters, enterItem, countItem, hcounters, hfault]
      | some cause =>
          refine .inr ⟨_, cause, [], _, hfault, ?_, .item ⟨hkind, rfl⟩ hcounters hfault⟩
          simp [runFrom_enterItemLoose hcounters, hfault]

/-- Every visit encodes its texts or fails at one of them. -/
theorem encodesOrFails (faults : Faults) (load : Loader) (options : Options) (run : Run)
    (node : Node) (phase : Phase) : EncodesOrFails faults load options run node phase := by
  cases hliteral : enclosedLiteral? node phase with
  | some enclosed => exact encodesOrFails_enclosed hliteral
  | none =>
      by_cases htext : node.kind = .text
      · exact encodesOrFails_text htext
      · by_cases hitem : node.kind = .listItem ∧ phase = .enter
        · obtain ⟨hkind, rfl⟩ := hitem
          exact encodesOrFails_enterItem hkind
        · exact .inl (by rw [visitLoose_other hliteral htext hitem])

/-- Where every text has an encoding, visits are those of `visitWith`. -/
theorem visitLoose_absent (load : Loader) (options : Options) :
    visitLoose Faults.absent load options = visitWith load options := by
  funext node phase run
  rcases encodesOrFails Faults.absent load options run node phase with
    hsame | ⟨_, _, _, _, hfault, -⟩
  · exact hsame
  · cases hfault

/-- A visit that fails leaves behind what `LeftBehind` allows. -/
theorem leftBehind_of_visitLoose
    (hrun : (visitLoose faults load options node phase).runFrom run = (.error e, after)) :
    ∃ pieces, after.written.toList = run.written.toList ++ pieces ∧
      LeftBehind faults options run.state node phase e pieces after.state := by
  rcases encodesOrFails faults load options run node phase with
    hsame | ⟨s, cause, pieces, left, -, hfails, hleft⟩
  · exact (visited (hsame.symm.trans hrun)).leftBehind faults
  · rw [hfails] at hrun
    cases hrun
    exact ⟨pieces, Run.written_add _ _, hleft⟩

end

end Manuscript.Render
