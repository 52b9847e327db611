import Manuscript.Proofs.Troff.Draft

/-! # Lines of written output

A request acts only at the start of a line. Where output stands is told by the
last piece of it that is not empty: a request ends its line, and a text leaves
a line open unless it ends with a line feed.
-/

namespace Manuscript.Troff

/-- Where output stands after something was written: nothing was, or the line was ended, or it was
left open. -/
inductive Line where
  | untouched
  | ended
  | opened
  deriving DecidableEq, Repr

namespace Line

/-- Where output stands after two things were written, the later of them given first. -/
def after : Line → Line → Line
  | untouched, earlier => earlier
  | later, _ => later

@[simp] theorem untouched_after (earlier : Line) : untouched.after earlier = earlier := rfl

@[simp] theorem ended_after (earlier : Line) : ended.after earlier = ended := rfl

@[simp] theorem opened_after (earlier : Line) : opened.after earlier = opened := rfl

@[simp] theorem after_untouched (later : Line) : later.after untouched = later := by
  cases later <;> rfl

theorem after_ne_opened {later earlier : Line} (hlater : later ≠ opened)
    (hearlier : earlier ≠ opened) : later.after earlier ≠ opened := by
  cases later with
  | untouched => exact hearlier
  | ended => exact hlater
  | opened => exact absurd rfl hlater

/-- Where a text leaves output. -/
def ofText (text : String) : Line :=
  match text.toList.getLast? with
  | none => untouched
  | some c => if c = '\n' then ended else opened

@[simp] theorem ofText_empty : ofText "" = untouched := rfl

theorem ofText_append (first second : String) :
    ofText (first ++ second) = (ofText second).after (ofText first) := by
  simp only [ofText, String.toList_append, List.getLast?_append]
  cases second.toList.getLast? with
  | none => rfl
  | some c =>
      simp only [Option.some_or]
      split <;> rfl

theorem ofText_ne_opened_iff (text : String) :
    ofText text ≠ opened ↔ text = "" ∨ text.toList.getLast? = some '\n' := by
  unfold ofText
  cases hlast : text.toList.getLast? with
  | none =>
      have hempty : text = "" := by simpa using hlast
      simp [hempty]
  | some c =>
      have hfull : text ≠ "" := by
        rintro rfl
        simp at hlast
      simp only [hfull, false_or, Option.some.injEq]
      split <;> simp_all

theorem ofText_dropSpaces {text : String} (htext : ofText text ≠ opened) :
    ofText (Text.dropSpaces text) ≠ opened := by
  obtain ⟨spaces, hsplit⟩ := List.dropWhile_suffix (· == ' ') (l := text.toList)
  have hwhole : text = String.ofList spaces ++ Text.dropSpaces text := by
    rw [Text.dropSpaces, ← String.ofList_append, hsplit, String.ofList_toList]
  intro hopened
  rw [hwhole, ofText_append, hopened] at htext
  exact htext rfl

end Line

/-- Where output stands. -/
def lineOf (pieces : List Piece) : Line := Line.ofText (textOf pieces)

/-- Output is empty or ends with a line feed. -/
def AtLineStart (pieces : List Piece) : Prop :=
  textOf pieces = "" ∨ (textOf pieces).toList.getLast? = some '\n'

theorem atLineStart_iff (pieces : List Piece) : AtLineStart pieces ↔ lineOf pieces ≠ .opened :=
  (Line.ofText_ne_opened_iff _).symm

theorem lineOf_append (first second : List Piece) :
    lineOf (first ++ second) = (lineOf second).after (lineOf first) := by
  rw [lineOf, textOf, List.map_append, String.join_append, Line.ofText_append]
  rfl

@[simp] theorem lineOf_nil : lineOf [] = .untouched := rfl

@[simp] theorem lineOf_text (s : String) : lineOf [.text s] = Line.ofText s := by
  simp [lineOf, textOf, Piece.toText]

/-- A request ends its line. -/
@[simp] theorem lineOf_request (request : Request) : lineOf [.request request] = .ended := by
  have hline : lineOf [.request request] = Line.ofText request.line := by
    simp [lineOf, textOf, Piece.toText]
  rw [hline, Request.line, Line.ofText_append]
  rfl

@[simp] theorem lineOf_cons_cons (first second : Piece) (rest : List Piece) :
    lineOf (first :: second :: rest) = (lineOf (second :: rest)).after (lineOf [first]) :=
  lineOf_append [first] (second :: rest)

/-! ## Requests that start a line -/

/-- Each request among pieces starts a line, if output stands here before them. -/
def StartLines : Line → List Piece → Prop
  | _, [] => True
  | line, .request _ :: rest => line ≠ .opened ∧ StartLines .ended rest
  | line, .text s :: rest => StartLines ((Line.ofText s).after line) rest

theorem StartLines.before {line : Line} {first second : List Piece} {request : Request}
    (hstart : StartLines line (first ++ .request request :: second)) :
    (lineOf first).after line ≠ .opened := by
  induction first generalizing line with
  | nil => exact hstart.1
  | cons piece rest ih =>
      have hrest : lineOf (piece :: rest) = (lineOf rest).after (lineOf [piece]) :=
        lineOf_append [piece] rest
      rw [hrest]
      cases piece with
      | request r =>
          rw [lineOf_request]
          have hended := ih hstart.2
          cases hline : lineOf rest <;> simp_all [Line.after]
      | text s =>
          rw [lineOf_text]
          have hopened := ih hstart
          cases hline : lineOf rest <;> simp_all [Line.after]

/-- Requests alone all start a line if the first one does. -/
theorem startLines_requests {line : Line} {pieces : List Piece} (hline : line ≠ .opened)
    (hrequests : ∀ piece ∈ pieces, ∃ request, piece = .request request) :
    StartLines line pieces := by
  induction pieces generalizing line with
  | nil => trivial
  | cons piece rest ih =>
      obtain ⟨⟨request, rfl⟩, hrest⟩ := List.forall_mem_cons.mp hrequests
      exact ⟨hline, ih (by decide) hrest⟩

/-! ## Blocks -/

@[simp] theorem lineOf_bare (name : String) : lineOf [bare name] = .ended := lineOf_request _

@[simp] theorem lineOf_withText (name : String) (args : List String) :
    lineOf [withText name args] = .ended := lineOf_request _

@[simp] theorem lineOf_lineBreak : lineOf [lineBreak] = .ended := rfl

theorem lineOf_codeBlock (code : String) : lineOf (codeBlock code) = .ended := by
  simp [codeBlock]

theorem lineOf_tableDisplay (layout : Table.Layout) : lineOf (tableDisplay layout) = .ended := by
  rw [tableDisplay, display, lineOf_append]
  simp

theorem startLines_tableDisplay {line : Line} (hline : line ≠ .opened) {layout : Table.Layout}
    (hbody : Line.ofText layout.body ≠ .opened) : StartLines line (tableDisplay layout) := by
  have hended : (Line.ofText layout.body).after .ended ≠ .opened :=
    Line.after_ne_opened hbody (by decide)
  have hheading :
      (Line.ofText "\n").after ((Line.ofText layout.header).after .ended) ≠ .opened := by
    simp [Line.ofText]
  refine ⟨hline, by decide, hheading, hended, by decide, trivial⟩

theorem startLines_drafts {line : Line} (hline : line ≠ .opened) (drafts : List Draft) :
    StartLines line (requests drafts).1 := by
  apply startLines_requests hline
  intro piece hmem
  obtain ⟨request, rfl, -⟩ := exists_of_mem_requests hmem
  exact ⟨request, rfl⟩

theorem lineOf_map_request {written : List Request} (hwritten : written ≠ []) :
    lineOf (written.map Piece.request) = .ended := by
  rw [← List.dropLast_concat_getLast hwritten, List.map_append, lineOf_append]
  simp

theorem lineOf_titleBlock {block : TitleBlock} {pieces : List Piece}
    (hrequests : requests (titleBlock block) = (pieces, none)) : lineOf pieces = .ended := by
  have hne := requests_titleBlock_ne_nil hrequests
  obtain ⟨written, -, rfl⟩ := (requests_ok_iff ..).mp hrequests
  exact lineOf_map_request fun hnil => hne (List.map_eq_nil_iff.mpr hnil)

end Manuscript.Troff
