import Manuscript.Proofs.Troff.Draft

/-! # Requests of one name

The requests of one name are picked out of written output. Each block of
requests is known to hold none but those of a few names.
-/

namespace Manuscript.Troff

/-- A piece is a request of this name. -/
def Piece.isNamed (name : String) : Piece → Bool
  | .request r => r.name == name
  | .text _ => false

/-- The requests of a name. -/
def named (name : String) (pieces : List Piece) : List Piece := pieces.filter (·.isNamed name)

section

variable {name : String}

@[simp] theorem named_nil : named name [] = [] := rfl

theorem named_append (first second : List Piece) :
    named name (first ++ second) = named name first ++ named name second :=
  List.filter_append ..

@[simp] theorem named_text (s : String) (rest : List Piece) :
    named name (.text s :: rest) = named name rest := rfl

@[simp] theorem named_lineBreak (rest : List Piece) :
    named name (lineBreak :: rest) = named name rest := rfl

theorem named_withText (other : String) (args : List String) (rest : List Piece) :
    named name (withText other args :: rest) =
      if other = name then withText other args :: named name rest else named name rest := by
  simp [named, List.filter_cons, Piece.isNamed, withText]

theorem named_bare (other : String) (rest : List Piece) :
    named name (bare other :: rest) =
      if other = name then bare other :: named name rest else named name rest :=
  named_withText other [] rest

/-- The names of the requests of a table. -/
def tableNames : List String := [
  Request.displayStart, Request.tableStart, Request.tableHeading, Request.tableEnd,
  Request.displayEnd]

theorem named_tableDisplay (hname : name ∉ tableNames) (layout : Table.Layout) :
    named name (tableDisplay layout) = [] := by
  simp only [tableNames, List.mem_cons, List.not_mem_nil, or_false, not_or] at hname
  obtain ⟨hds, hts, hth, hte, hde⟩ := hname
  simp [tableDisplay, display, tableHeading, named_bare, named_withText, Ne.symm hds, Ne.symm hts,
    Ne.symm hth, Ne.symm hte, Ne.symm hde]

theorem named_map_request (written : List Request) :
    named name (written.map .request) = (written.filter (·.name == name)).map .request := by
  rw [named, List.filter_map]
  rfl

theorem named_requests_eq_nil {drafts : List Draft} (hname : ∀ draft ∈ drafts, draft.name ≠ name) :
    named name (requests drafts).1 = [] := by
  rw [named, List.filter_eq_nil_iff]
  intro piece hmem
  obtain ⟨request, rfl, hdraft⟩ := exists_of_mem_requests hmem
  simpa [Piece.isNamed, Draft.ofRequest] using hname _ hdraft

theorem named_titleBlock_eq_nil (hname : name ∉ spokenNames ++ bareNames) (block : TitleBlock) :
    named name (requests (titleBlock block)).1 = [] := by
  apply named_requests_eq_nil
  rintro draft hmem rfl
  rcases mem_titleBlock hmem with ⟨-, hspoken⟩ | ⟨-, hbare⟩
  · exact hname (List.mem_append_left _ hspoken)
  · exact hname (List.mem_append_right _ hbare)

theorem filter_title_titleBlock (block : TitleBlock) :
    (titleBlock block).filter (·.name == Request.title) = [title block.title] := by
  have hauthors : (block.authors.flatMap authorEntry).filter (·.name == Request.title) = [] := by
    rw [List.filter_flatMap, List.flatMap_eq_nil_iff]
    intro author _
    rw [authorEntry, List.filter_append]
    split <;> rfl
  have hdate : [dateEntry (block.date.map Calendar.Moment.date)].filter
      (·.name == Request.title) = [] := by
    unfold dateEntry
    split <;> rfl
  have habstract : (if block.abstract.isEmpty then [] else abstract block.abstract).filter
      (·.name == Request.title) = [] := by
    split <;> rfl
  simp only [titleBlock, List.filter_append, hauthors, hdate, habstract]
  rfl

/-- A title block that is written holds one title, which has an encoding. -/
theorem named_title_titleBlock {block : TitleBlock} {pieces : List Piece}
    (hrequests : requests (titleBlock block) = (pieces, none)) :
    ∃ text : String, block.title = text ∧
      named Request.title pieces = [withText Request.title ["\n", text]] := by
  obtain ⟨written, hdrafts, rfl⟩ := (requests_ok_iff ..).mp hrequests
  have htitle := filter_title_titleBlock block
  rw [hdrafts, List.filter_map] at htitle
  obtain ⟨request, hwritten, hrequest⟩ := List.map_eq_singleton_iff.mp htitle
  rw [named_map_request]
  obtain ⟨name, args⟩ := request
  simp only [Draft.ofRequest, title, Draft.mk.injEq] at hrequest
  obtain ⟨rfl, hargs⟩ := hrequest
  obtain ⟨first, text, rfl⟩ : ∃ first text, args = [first, text] := by
    rcases args with _ | ⟨first, _ | ⟨text, _ | _⟩⟩ <;> simp at hargs
    exact ⟨first, text, rfl⟩
  simp only [List.map_cons, List.map_nil, List.cons.injEq, and_true] at hargs
  obtain ⟨hfirst, htext⟩ := hargs
  cases LooseText.ofString_injective hfirst
  refine ⟨text, htext.symm, ?_⟩
  exact congrArg (List.map Piece.request) hwritten

end

end Manuscript.Troff
