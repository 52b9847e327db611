import Manuscript.Proofs.Text.Loose
import Manuscript.Troff.Blocks

/-! # What is written of drafts

The drafts that have an encoding are those of requests. Of drafts in order, all are
written if they all have one (`requests_ok_iff`), and otherwise those before the first
that has none (`requests_error_iff`).
-/

namespace Manuscript.Troff

/-- The draft of a request. -/
def Draft.ofRequest (request : Request) : Draft :=
  { name := request.name, args := request.args.map fun (arg : String) => (arg : LooseText) }

theorem Draft.fault?_line_eq_none_iff (draft : Draft) :
    draft.line.fault? = none ↔ ∀ arg ∈ draft.args, arg = arg.shown := by
  rw [LooseText.fault?_eq_none_iff, LooseText.eq_ofString_iff]
  simp only [LooseText.eq_ofString_iff, Draft.line, List.mem_append, List.mem_map, List.mem_flatMap,
    List.mem_cons, List.not_mem_nil, or_false]
  constructor
  · intro hline arg harg point hpoint
    exact hline point (.inl (.inr ⟨arg, harg, .inr hpoint⟩))
  · rintro hargs point ((⟨c, -, rfl⟩ | ⟨arg, harg, rfl | hpoint⟩) | rfl)
    · rfl
    · rfl
    · exact hargs arg harg point hpoint
    · rfl

theorem Draft.request_ok_iff (draft : Draft) (request : Request) :
    draft.request = .ok request ↔ draft = .ofRequest request := by
  have hfault := draft.fault?_line_eq_none_iff
  obtain ⟨name, args⟩ := draft
  obtain ⟨name', args'⟩ := request
  simp only [Draft.request, Draft.ofRequest, Draft.mk.injEq] at hfault ⊢
  constructor
  · intro hrequest
    split at hrequest
    next => cases hrequest
    next hnone =>
      cases hrequest
      refine ⟨rfl, ?_⟩
      rw [List.map_map]
      exact (List.map_id args).symm.trans (List.map_congr_left (hfault.mp hnone))
  · rintro ⟨rfl, rfl⟩
    have hargs : ∀ arg ∈ args'.map LooseText.ofString, arg = LooseText.ofString arg.shown := by
      intro arg harg
      obtain ⟨s, -, rfl⟩ := List.mem_map.mp harg
      rw [LooseText.shown_ofString]
    rw [hfault.mpr hargs]
    simp [Function.comp_def]

/-! ## Drafts in order -/

theorem requests_append (written : List Request) (rest : List Draft) :
    requests (written.map Draft.ofRequest ++ rest) =
      (written.map Piece.request ++ (requests rest).1, (requests rest).2) := by
  induction written with
  | nil => rfl
  | cons request more ih =>
      have hrequest := (Draft.request_ok_iff (.ofRequest request) request).mpr rfl
      rw [List.map_cons, List.cons_append, requests, hrequest]
      simp only [ih, List.map_cons, List.cons_append]

theorem requests_ofRequest (written : List Request) :
    requests (written.map Draft.ofRequest) = (written.map Piece.request, none) := by
  have hwhole := requests_append written []
  rw [List.append_nil] at hwhole
  simpa [requests] using hwhole

/-- Drafts are the drafts of requests, up to one that is none if there is one. -/
theorem exists_requests (drafts : List Draft) :
    (∃ written : List Request, drafts = written.map Draft.ofRequest) ∨
      ∃ (written : List Request) (draft : Draft) (rest : List Draft) (e : EncodingError),
        drafts = written.map Draft.ofRequest ++ draft :: rest ∧ draft.request = .error e := by
  induction drafts with
  | nil => exact .inl ⟨[], rfl⟩
  | cons first rest ih =>
      cases hrequest : first.request with
      | error e => exact .inr ⟨[], first, rest, e, rfl, hrequest⟩
      | ok request =>
          rw [Draft.request_ok_iff] at hrequest
          subst hrequest
          rcases ih with ⟨written, rfl⟩ | ⟨written, draft, others, e, rfl, herror⟩
          · exact .inl ⟨request :: written, rfl⟩
          · exact .inr ⟨request :: written, draft, others, e, rfl, herror⟩

/-- All of drafts is written exactly if they are the drafts of requests. -/
theorem requests_ok_iff (drafts : List Draft) (pieces : List Piece) :
    requests drafts = (pieces, none) ↔
      ∃ written : List Request,
        drafts = written.map Draft.ofRequest ∧ pieces = written.map Piece.request := by
  constructor
  · intro hrequests
    rcases exists_requests drafts with ⟨written, rfl⟩ | ⟨written, draft, rest, e, rfl, herror⟩
    · rw [requests_ofRequest] at hrequests
      cases hrequests
      exact ⟨written, rfl, rfl⟩
    · rw [requests_append, requests, herror] at hrequests
      cases hrequests
  · rintro ⟨written, rfl, rfl⟩
    exact requests_ofRequest written

/-- What is written of drafts with one that has no encoding comes before the first such one. -/
theorem requests_error_iff (drafts : List Draft) (pieces : List Piece) (e : EncodingError) :
    requests drafts = (pieces, some e) ↔
      ∃ (written : List Request) (draft : Draft) (rest : List Draft),
        drafts = written.map Draft.ofRequest ++ draft :: rest ∧ draft.request = .error e ∧
        pieces = written.map Piece.request := by
  constructor
  · intro hrequests
    rcases exists_requests drafts with ⟨written, rfl⟩ | ⟨written, draft, rest, e', rfl, herror⟩
    · rw [requests_ofRequest] at hrequests
      cases hrequests
    · rw [requests_append, requests, herror] at hrequests
      cases hrequests
      exact ⟨written, draft, rest, rfl, herror, by simp⟩
  · rintro ⟨written, draft, rest, rfl, herror, rfl⟩
    rw [requests_append, requests, herror]
    simp

/-- Whatever is written of drafts is a request whose draft is one of them. -/
theorem exists_of_mem_requests {drafts : List Draft} {piece : Piece}
    (hmem : piece ∈ (requests drafts).1) :
    ∃ request, piece = .request request ∧ Draft.ofRequest request ∈ drafts := by
  rcases exists_requests drafts with ⟨written, rfl⟩ | ⟨written, draft, rest, e, rfl, herror⟩
  · rw [requests_ofRequest] at hmem
    obtain ⟨request, hrequest, rfl⟩ := List.mem_map.mp hmem
    exact ⟨request, rfl, List.mem_map_of_mem hrequest⟩
  · rw [requests_append, requests, herror, List.append_nil] at hmem
    obtain ⟨request, hrequest, rfl⟩ := List.mem_map.mp hmem
    exact ⟨request, rfl, List.mem_append_left _ (List.mem_map_of_mem hrequest)⟩

/-! ## The drafts of a title block -/

/-- The names of the drafts of a title block that have arguments. -/
def spokenNames : List String := [
  Request.html, Request.title, Request.italic, Request.institution, Request.date,
  Request.abstractStart]

/-- The names of the drafts of a title block that have none. -/
def bareNames : List String :=
  [Request.author, Request.date, Request.abstractEnd, Request.paragraph]

theorem mem_authorEntry {author : Author} {draft : Draft} (hmem : draft ∈ authorEntry author) :
    draft.args ≠ [] ∧ draft.name ∈ spokenNames ∨ draft.args = [] ∧ draft.name ∈ bareNames := by
  unfold authorEntry at hmem
  split at hmem <;> simp at hmem
  · rcases hmem with rfl | rfl | rfl | rfl <;> simp [spokenNames, bareNames]
  · rcases hmem with rfl | rfl | rfl <;> simp [spokenNames, bareNames]

theorem mem_dateEntry (date : Option Calendar.Date) :
    (dateEntry date).args ≠ [] ∧ (dateEntry date).name ∈ spokenNames ∨
      (dateEntry date).args = [] ∧ (dateEntry date).name ∈ bareNames := by
  unfold dateEntry
  split <;> simp [spokenNames, bareNames]

/-- A title block is made of drafts with arguments, and of a few without. -/
theorem mem_titleBlock {block : TitleBlock} {draft : Draft} (hmem : draft ∈ titleBlock block) :
    draft.args ≠ [] ∧ draft.name ∈ spokenNames ∨ draft.args = [] ∧ draft.name ∈ bareNames := by
  simp only [titleBlock, List.mem_append, List.mem_cons, List.not_mem_nil, or_false,
    List.mem_flatMap] at hmem
  rcases hmem with ((((rfl | rfl) | ⟨author, -, hmem⟩) | rfl) | hmem) | rfl
  · exact .inl (by simp [htmlTitle, spokenNames])
  · exact .inl (by simp [title, spokenNames])
  · exact mem_authorEntry hmem
  · exact mem_dateEntry _
  · split at hmem
    · cases hmem
    · rw [abstract, List.mem_cons, List.mem_singleton] at hmem
      rcases hmem with rfl | rfl
      · exact .inl (by simp [spokenNames])
      · exact .inr (by simp [bareNames])
  · exact .inr (by simp [bareNames])

theorem requests_titleBlock_ne_nil {block : TitleBlock} {pieces : List Piece}
    (hrequests : requests (titleBlock block) = (pieces, none)) : pieces ≠ [] := by
  obtain ⟨written, hdrafts, rfl⟩ := (requests_ok_iff ..).mp hrequests
  intro hnil
  rw [List.map_eq_nil_iff.mp hnil] at hdrafts
  simp [titleBlock] at hdrafts

end Manuscript.Troff
