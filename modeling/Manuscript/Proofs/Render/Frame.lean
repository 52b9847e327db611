import Manuscript.Proofs.Document.Reach
import Manuscript.Proofs.Render.Visit

/-! # What a visit does not depend on

A visit reads what is remembered, but neither what was written before it nor
what was reported. Whatever it does after some output it also does without, and
adds it to that output (`Framed`); so does the recursion on a tree.
-/

namespace Manuscript.Render

open Troff (Piece)

/-- The run after something was done that started without output. -/
def Run.followedBy (run done : Run) : Run where
  state := done.state
  written := run.written ++ done.written
  log := run.log ++ done.log

/-- An action does the same after whatever output. -/
def Framed {α : Type} (action : Writer α) : Prop :=
  ∀ run : Run, action.runFrom run =
    ((action.runFrom { state := run.state }).1,
      run.followedBy (action.runFrom { state := run.state }).2)

namespace Framed

variable {α β : Type}

theorem pure (value : α) : Framed (pure value) := by
  intro run
  simp [Run.followedBy]

theorem throw (error : RenderError) : Framed (throw error : Writer α) := by
  intro run
  simp [Run.followedBy]

theorem write (pieces : List Piece) : Framed (write pieces) := by
  intro run
  simp [Run.followedBy, Run.add, ← Array.toList_inj]

theorem report (level : Log.Level) (message : String) : Framed (report level message) := by
  intro run
  simp [Run.followedBy, Run.note]

theorem update (change : State → State) : Framed (update change) := by
  intro run
  simp [Run.followedBy, Run.become]

theorem current : Framed current := by
  intro run
  simp [Run.followedBy]

/-- Two parts that are framed, one after the other, are framed. -/
theorem bind {action : Writer α} {next : α → Writer β} (haction : Framed action)
    (hnext : ∀ value, Framed (next value)) : Framed (action >>= next) := by
  intro run
  rw [Action.runFrom_bind, Action.runFrom_bind, haction run]
  rcases action.runFrom { state := run.state } with ⟨error | value, done⟩
  · rfl
  · dsimp only
    rw [hnext value, hnext value done]
    simp [Run.followedBy]

theorem goOn {part next : Writer Step} (hpart : Framed part) (hnext : Framed next) :
    Framed (part.goOn next) := by
  rw [Action.goOn_eq_bind]
  refine hpart.bind fun step => ?_
  split
  · exact pure _
  · exact hnext

end Framed

/-! ## Visits -/

section

variable (load : Loader) (options : Options) (node : Node)

theorem framed_writeText (s : String) : Framed (writeText s) := by
  refine Framed.current.bind fun state => ?_
  cases state.tableBuffer with
  | none => exact Framed.write _
  | some buffer => exact Framed.update _

theorem framed_text : Framed (text load node) := by
  refine Framed.current.bind fun state => ?_
  split
  · rw [loadTitleBlock_eq]
    split
    · exact Framed.throw _
    · exact (Framed.report _ _).bind fun _ => Framed.update _
  · split
    · exact framed_writeText _
    · exact Framed.pure _

theorem framed_enterTable : Framed enterTable := by
  refine Framed.current.bind fun state => ?_
  split
  · exact (Framed.throw _).bind fun _ => Framed.update _
  · exact Framed.update _

theorem framed_leaveTable (kind : Kind) : Framed (leaveTable kind) := by
  refine Framed.current.bind fun state => ?_
  cases state.tableBuffer with
  | none => exact Framed.throw _
  | some buffer =>
      refine (Framed.update _).bind fun _ => ?_
      cases Troff.table buffer with
      | ok pieces => exact Framed.write _
      | error e => exact Framed.throw _

theorem framed_markTable (kind : Kind) (mark : String) : Framed (markTable kind mark) := by
  refine Framed.current.bind fun state => ?_
  cases state.tableBuffer with
  | none => exact Framed.throw _
  | some buffer => exact Framed.update _

theorem framed_enterList : Framed enterList := by
  refine Framed.current.bind fun state => ?_
  split
  · exact (Framed.write _).bind fun _ => Framed.update _
  · exact Framed.update _

theorem framed_leaveList : Framed leaveList := (Framed.update _).bind fun _ => Framed.write _

/-- Counting an item neither depends on what was written nor changes it. -/
theorem framed_countItem : Framed countItem := by
  refine Framed.current.bind fun state => ?_
  cases state.counters with
  | nil => exact Framed.throw _
  | cons count outer => exact (Framed.update _).bind fun _ => Framed.pure _

theorem framed_enterItem : Framed (enterItem node) :=
  framed_countItem.bind fun _ => Framed.write _

theorem framed_enterHeading : Framed (enterHeading options node) := by
  refine Framed.current.bind fun state => ?_
  split
  · exact (Framed.report _ _).bind fun _ => Framed.pure _
  · refine (Framed.update _).bind fun _ => ?_
    dsimp only
    split
    · exact (Framed.write _).bind fun _ => Framed.pure _
    · exact Framed.pure _

theorem framed_writeDrafts (drafts : List Troff.Draft) : Framed (writeDrafts drafts) := by
  refine (Framed.write _).bind fun _ => ?_
  cases (Troff.requests drafts).2 with
  | none => exact Framed.pure _
  | some e => exact Framed.throw _

theorem framed_leaveHeading : Framed (leaveHeading options node) := by
  refine (Framed.update _).bind fun _ => ?_
  split
  · exact Framed.write _
  · refine Framed.current.bind fun state => ?_
    cases state.titleBlock with
    | none => exact Framed.throw _
    | some block => exact framed_writeDrafts _

/-- A visit does not look at what was written before. -/
theorem framed_visitWith (phase : Phase) : Framed (visitWith load options node phase) := by
  have hdone : ∀ {action : Writer Unit}, Framed action →
      Framed (action >>= fun _ => pure Step.next : Writer Step) :=
    fun haction => haction.bind fun _ => Framed.pure _
  cases hkind : node.kind with
  | document | htmlSpan | tableHead | tableBody | link =>
      simp only [visitWith, hkind]
      exact Framed.pure _
  | thematicBreak | lineBreak | other =>
      simp only [visitWith, hkind]
      exact hdone (Framed.throw _)
  | text =>
      simp only [visitWith, hkind]
      exact hdone (framed_text load node)
  | htmlBlock | codeSpan | codeBlock =>
      simp only [visitWith, hkind]
      exact hdone (Framed.write _)
  | paragraph =>
      cases phase <;> simp only [visitWith, hkind]
      · exact Framed.current.bind fun _ => hdone (Framed.write _)
      · exact hdone (Framed.write _)
  | blockQuote | emphasis | strong =>
      cases phase <;> simp only [visitWith, hkind] <;> exact hdone (Framed.write _)
  | table =>
      cases phase <;> simp only [visitWith, hkind]
      · exact hdone framed_enterTable
      · exact hdone (framed_leaveTable _)
  | tableRow | tableCell =>
      cases phase <;> simp only [visitWith, hkind]
      · exact Framed.pure _
      · exact hdone (framed_markTable _ _)
  | list =>
      cases phase <;> simp only [visitWith, hkind]
      · exact hdone framed_enterList
      · exact hdone framed_leaveList
  | listItem =>
      cases phase <;> simp only [visitWith, hkind]
      · exact hdone (framed_enterItem node)
      · exact Framed.pure _
  | image =>
      simp only [visitWith, hkind]
      exact (Framed.report _ _).bind fun _ => Framed.pure _
  | heading =>
      cases phase <;> simp only [visitWith, hkind]
      · exact framed_enterHeading options node
      · exact hdone (framed_leaveHeading options node)

theorem framed_descendAll {nodes : List Node}
    (hnodes : ∀ child ∈ nodes, Framed (child.descend (visitWith load options))) :
    Framed (Node.descendAll (visitWith load options) nodes) := by
  induction nodes with
  | nil => exact Framed.pure _
  | cons first rest ih =>
      rw [Node.descendAll_cons]
      have hrest := ih fun child hmem => hnodes child (List.mem_cons_of_mem _ hmem)
      exact (hnodes first List.mem_cons_self).goOn hrest

/-- Descending into a node does not look at what was written before. -/
theorem framed_descend : Framed (node.descend (visitWith load options)) := by
  induction node using Node.induction with
  | step node ih =>
      rw [Node.descend_eq]
      refine (framed_visitWith load options node .enter).bind fun step => ?_
      cases step with
      | stop => exact Framed.pure _
      | skipChildren => exact Framed.pure _
      | next =>
          dsimp only
          split
          · exact Framed.pure _
          · have hleave := (framed_visitWith load options node .leave).goOn (Framed.pure .next)
            exact (framed_descendAll load options ih).goOn hleave

end

/-! ## Runs that differ in what was reported -/

/-- Two runs remember the same and have written the same. -/
structure Alike (run other : Run) : Prop where
  state : run.state = other.state
  written : run.written = other.written

theorem Alike.refl (run : Run) : Alike run run := ⟨rfl, rfl⟩

/-- What was reported makes no difference to what is done. -/
theorem Framed.alike {α : Type} {action : Writer α} (hframed : Framed action)
    {run other after : Run} {result : Except RenderError α} (halike : Alike run other)
    (hrun : action.runFrom run = (result, after)) :
    ∃ after', action.runFrom other = (result, after') ∧ Alike after after' := by
  rw [hframed run, Prod.mk.injEq] at hrun
  obtain ⟨hresult, rfl⟩ := hrun
  rw [hframed other, ← halike.state, hresult]
  exact ⟨_, rfl, rfl, congrArg (· ++ _) halike.written⟩

end Manuscript.Render
