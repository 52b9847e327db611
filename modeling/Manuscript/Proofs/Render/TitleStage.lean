import Manuscript.Proofs.Document.Above
import Manuscript.Proofs.Document.Span
import Manuscript.Proofs.Render.History
import Manuscript.Proofs.Render.Repeated

/-! # Stages of the title block

If no heading is below another one, rendering goes through at most four stages:
no front matter was seen, its first heading was entered, the first text in that
heading was loaded, and the title block was written when the heading was left.
After that all headings of front matter are passed over. Each visit leads from a
stage to itself or to the next one (`TitleStage.step`).
-/

namespace Manuscript

/-- A span stays one when the history goes on. -/
theorem Spans.mono {ε σ : Type} {history whole inside earlier : History ε σ}
    {entered left : Visit ε σ} (hspans : Spans history entered inside left earlier)
    (hsuffix : history <:+ whole) : Spans whole entered inside left earlier :=
  ⟨hspans.suffix.trans hsuffix, hspans.leave, hspans.closes⟩

namespace Render

/-- A node is a heading that carries front matter. -/
def carriesFrontMatter (options : Options) (node : Node) : Bool :=
  node.kind = .heading && isFrontMatter options node

/-- No heading is reached through another one. -/
def HeadingsApart (above : List Node) (node : Node) : Prop :=
  ∀ outer heading, Reaches above node outer heading → heading.kind = .heading →
    ∀ other ∈ outer, other.kind ≠ .heading

theorem HeadingsApart.below {above outer : List Node} {node target : Node}
    (hapart : HeadingsApart above node) (hreaches : Reaches above node outer target) :
    HeadingsApart outer target :=
  fun _ heading hbelow => hapart _ heading (hreaches.trans hbelow)

/-- There is no heading below a heading. -/
theorem HeadingsApart.not_heading {above : List Node} {node target : Node}
    (hapart : HeadingsApart above node) (hkind : node.kind = .heading)
    (hmem : target ∈ Node.reachedAll node.children) : target.kind ≠ .heading := by
  intro hheading
  obtain ⟨child, hchild, htarget⟩ := Node.mem_reachedAll.mp hmem
  obtain ⟨outer, hreaches⟩ := (mem_reached_iff (node :: above)).mp htarget
  have hothers := hapart outer target
    (.child (by rw [hkind]; rfl) (by simp [hkind]) hchild hreaches) hheading
  exact hothers node (hreaches.subset List.mem_cons_self) hkind

/-- It suffices that in the whole tree no heading is below another one. -/
theorem headingsApart_of_descendants {root : Node}
    (hnone : ∀ heading ∈ root :: root.descendants, heading.kind = .heading →
      ∀ other ∈ heading.descendants, other.kind ≠ .heading) : HeadingsApart [] root := by
  intro outer target hreaches hkind other hmem hheading
  rcases hreaches.mem_descendants hmem with habove | ⟨hother, htarget⟩
  · cases habove
  · exact hnone other hother hheading target htarget hkind

/-- A visit enters the first heading that carries front matter. -/
structure EntersFirst (options : Options) (entered : Visit RenderError Run)
    (earlier : History RenderError Run) : Prop where
  carries : carriesFrontMatter options entered.node = true
  first : ∀ v ∈ earlier, carriesFrontMatter options v.node = false

/-- The first of the texts that were visited is taken for front matter, and this is loaded. -/
def LoadsFirstText (load : Loader) (inside : History RenderError Run) (block : TitleBlock) : Prop :=
  ∃ later text quiet, inside = later ++ text :: quiet ∧ text.node.kind = .text ∧
    (∀ v ∈ quiet, v.node.kind ≠ .text) ∧ text.before.state.consumingFrontMatter = true ∧
    load text.node.literal = .ok block

/-- No open heading carries front matter, and no text is taken for it. -/
structure OutsideTitle (options : Options) (history : History RenderError Run) (state : State) :
    Prop where
  headings : ∀ heading ∈ openOf .heading history, isFrontMatter options heading.node = false
  consuming : state.consumingFrontMatter = false

/-- How far the visits made so far have come with the title block. -/
inductive TitleStage (load : Loader) (options : Options) :
    History RenderError Run → State → Prop
  | unseen {history state} (hquiet : ∀ v ∈ history, carriesFrontMatter options v.node = false)
      (houtside : OutsideTitle options history state) (hblock : state.titleBlock = none) :
      TitleStage load options history state
  | reading {inside entered earlier state} (hfirst : EntersFirst options entered earlier)
      (hopen : openOf .heading (inside ++ entered :: earlier) = [⟨earlier.length, entered.node⟩])
      (hinside : ∀ v ∈ inside, v.node.kind ≠ .text ∧ v.node.kind ≠ .heading)
      (hconsuming : state.consumingFrontMatter = true) (hblock : state.titleBlock = none) :
      TitleStage load options (inside ++ entered :: earlier) state
  | loaded {inside entered earlier state block} (hfirst : EntersFirst options entered earlier)
      (hopen : openOf .heading (inside ++ entered :: earlier) = [⟨earlier.length, entered.node⟩])
      (hinside : ∀ v ∈ inside, v.node.kind ≠ .heading) (hloads : LoadsFirstText load inside block)
      (hconsuming : state.consumingFrontMatter = false) (hblock : state.titleBlock = some block) :
      TitleStage load options (inside ++ entered :: earlier) state
  | written {afterwards left inside entered earlier state block}
      (hfirst : EntersFirst options entered earlier)
      (hspans : Spans (afterwards ++ left :: (inside ++ entered :: earlier)) entered inside left
        earlier)
      (hinside : ∀ v ∈ inside, v.node.kind ≠ .heading) (hloads : LoadsFirstText load inside block)
      (hleft : left.before.state.titleBlock = some block)
      (hafterwards : ∀ v ∈ afterwards, carriesFrontMatter options v.node = true →
        v.phase = .enter ∧ v.answer = .ok .skipChildren)
      (houtside : OutsideTitle options (afterwards ++ left :: (inside ++ entered :: earlier)) state)
      (hblock : state.titleBlock = some block) :
      TitleStage load options (afterwards ++ left :: (inside ++ entered :: earlier)) state

section

variable {load : Loader} {options : Options} {root node : Node} {start run after : Run}
  {rest : Pending} {history : History RenderError Run} {phase : Phase} {step : Step}

/-- Headings that carry front matter. -/
theorem carriesFrontMatter_iff :
    carriesFrontMatter options node = true ↔
      node.kind = .heading ∧ isFrontMatter options node = true := by
  simp [carriesFrontMatter]

theorem carriesFrontMatter_of_kind (hkind : node.kind ≠ .heading) :
    carriesFrontMatter options node = false := by
  simp [carriesFrontMatter, hkind]

/-- A heading is entered only while no other one is open. -/
theorem openOf_heading_eq_nil (hapart : HeadingsApart [] root)
    (hunderway : Underway (visitWith load options) root start ((node, .enter) :: rest) history run)
    (hkind : node.kind = .heading) : openOf .heading history = [] := by
  have hreaches := hunderway.reaches (passesOverImages load options)
  refine List.filter_eq_nil_iff.mpr fun outer hmem => ?_
  have hother := hapart _ node hreaches hkind outer.node (List.mem_map_of_mem hmem)
  simpa using hother

/-- Visits of other nodes than texts and headings change neither the title block nor whether the
next text is taken for front matter. -/
theorem Visited.keeps_title (hrule : Visited load options run node phase (.ok step) after)
    (htext : node.kind ≠ .text) (hheading : node.kind ≠ .heading) :
    after.state.titleBlock = run.state.titleBlock ∧
      after.state.consumingFrontMatter = run.state.consumingFrontMatter := by
  cases hrule with
  | payload hkind | emptyText hkind | bufferedText hkind | writtenText hkind =>
      exact absurd hkind htext
  | repeatedFrontMatter hkind | enterFrontMatter hkind | enterSection hkind | leaveSection hkind
  | leaveFrontMatter hkind => exact absurd hkind hheading
  | _ => exact ⟨rfl, rfl⟩

/-- A visit that has nothing to do with front matter leaves the stage as it is. -/
theorem TitleStage.extend {state state' : State} (hstage : TitleStage load options history state)
    {v : Visit RenderError Run} (hheading : v.node.kind ≠ .heading)
    (htext : v.node.kind = .text → state.consumingFrontMatter = false)
    (hopen : openOf .heading (v :: history) = openOf .heading history)
    (hblock : state'.titleBlock = state.titleBlock)
    (hconsuming : state'.consumingFrontMatter = state.consumingFrontMatter) :
    TitleStage load options (v :: history) state' := by
  have hcarries : carriesFrontMatter options v.node = false := carriesFrontMatter_of_kind hheading
  cases hstage with
  | unseen hquiet houtside hnone =>
      refine .unseen ?_ ⟨?_, hconsuming.trans houtside.consuming⟩ (hblock.trans hnone)
      · exact List.forall_mem_cons.mpr ⟨hcarries, hquiet⟩
      · rw [hopen]
        exact houtside.headings
  | reading hfirst hone hinside hreads hnone =>
      rw [← List.cons_append] at hopen ⊢
      refine .reading hfirst (hopen.trans hone) ?_ (hconsuming.trans hreads) (hblock.trans hnone)
      refine List.forall_mem_cons.mpr ⟨⟨fun hkind => ?_, hheading⟩, hinside⟩
      rw [htext hkind] at hreads
      cases hreads
  | loaded hfirst hone hinside hloads hidle hsome =>
      rw [← List.cons_append] at hopen ⊢
      obtain ⟨later, text, quiet, rfl, htext⟩ := hloads
      refine .loaded hfirst (hopen.trans hone) (List.forall_mem_cons.mpr ⟨hheading, hinside⟩)
        ⟨v :: later, text, quiet, rfl, htext⟩ (hconsuming.trans hidle) (hblock.trans hsome)
  | written hfirst hspans hinside hloads hleft hafterwards houtside hsome =>
      rw [← List.cons_append] at hopen ⊢
      refine .written hfirst (hspans.mono (List.suffix_cons _ _)) hinside hloads hleft ?_
        ⟨?_, hconsuming.trans houtside.consuming⟩ (hblock.trans hsome)
      · refine List.forall_mem_cons.mpr ⟨fun htrue => ?_, hafterwards⟩
        rw [hcarries] at htrue
        cases htrue
      · rw [hopen]
        exact houtside.headings

/-- A text is loaded if it is taken for front matter, and otherwise leaves the stage as it is. -/
theorem TitleStage.text (hstage : TitleStage load options history run.state)
    (hunderway : Underway (visitWith load options) root start ((node, phase) :: rest) history run)
    (hkind : node.kind = .text) (hrule : Visited load options run node phase (.ok step) after) :
    TitleStage load options (⟨node, phase, run, .ok step⟩ :: history) after.state := by
  have hopen := hunderway.openOf_other .heading (by simp [hkind]) (.ok step)
  cases hconsuming : run.state.consumingFrontMatter with
  | false =>
      refine hstage.extend (by simp [hkind]) (fun _ => hconsuming) hopen ?_ ?_ <;>
        cases hrule <;> simp_all [plainPieces]
  | true =>
      cases hrule with
      | payload _ _ hload =>
          cases hstage with
          | unseen _ houtside => simp [houtside.consuming] at hconsuming
          | loaded _ _ _ _ hidle => simp [hidle] at hconsuming
          | written _ _ _ _ _ _ houtside => simp [houtside.consuming] at hconsuming
          | @reading inside entered earlier _ hfirst hone hinside =>
              rw [← List.cons_append] at hopen ⊢
              refine .loaded hfirst (hopen.trans hone) ?_ ?_ rfl rfl
              · refine List.forall_mem_cons.mpr ⟨by simp [hkind], fun v hmem => ?_⟩
                exact (hinside v hmem).2
              · exact ⟨[], _, inside, rfl, hkind, fun v hmem => (hinside v hmem).1, hconsuming,
                  hload⟩
      | plain hplain => simp [plainPieces, hkind] at hplain
      | mark hmark => simp [tableMark, hkind] at hmark
      | emptyText _ hidle | bufferedText _ hidle | writtenText _ hidle =>
          rw [hidle] at hconsuming
          cases hconsuming
      | image hother | enterTable hother | leaveTable hother | enterList hother | leaveList hother
      | enterItem hother | repeatedFrontMatter hother | enterFrontMatter hother
      | enterSection hother | leaveSection hother | leaveFrontMatter hother =>
          rw [hkind] at hother
          cases hother

/-! ## Headings -/

/-- A heading that is entered is passed over, starts front matter or starts a section. -/
theorem Visited.enter_heading (hrule : Visited load options run node .enter (.ok step) after)
    (hkind : node.kind = .heading) :
    (isFrontMatter options node = true ∧ run.state.titleBlock.isSome ∧ step = .skipChildren ∧
        after.state = run.state) ∨
      (isFrontMatter options node = true ∧ run.state.titleBlock = none ∧ step = .next ∧
        after.state = { run.state with consumingFrontMatter := true }) ∨
      (isFrontMatter options node = false ∧ step = .next ∧
        after.state = { run.state with consumingFrontMatter := false }) := by
  cases hrule with
  | repeatedFrontMatter _ hfront hblock => exact .inl ⟨hfront, hblock, rfl, rfl⟩
  | enterFrontMatter _ hfront hblock => exact .inr (.inl ⟨hfront, hblock, rfl, rfl⟩)
  | enterSection _ hfront => exact .inr (.inr ⟨hfront, rfl, rfl⟩)
  | plain hplain => simp [plainPieces, hkind] at hplain
  | image hother | payload hother | emptyText hother | bufferedText hother | writtenText hother
  | enterTable hother | enterList hother | enterItem hother =>
      rw [hkind] at hother
      cases hother

/-- A heading that is left ends a section, or front matter with its title block. -/
theorem Visited.leave_heading (hrule : Visited load options run node .leave (.ok step) after)
    (hkind : node.kind = .heading) :
    after.state = { run.state with consumingFrontMatter := false } ∧ step = .next ∧
      (isFrontMatter options node = false ∨
        ∃ block pieces, run.state.titleBlock = some block ∧
          Troff.requests (Troff.titleBlock block) = (pieces, none) ∧
          after.written.toList = run.written.toList ++ pieces) := by
  cases hrule with
  | leaveSection _ hfront => exact ⟨rfl, rfl, .inl hfront⟩
  | leaveFrontMatter _ _ hblock hrequests =>
      exact ⟨rfl, rfl, .inr ⟨_, _, hblock, hrequests, by simp⟩⟩
  | plain hplain => simp [plainPieces, hkind] at hplain
  | mark hmark => simp [tableMark, hkind] at hmark
  | image hother | payload hother | emptyText hother | bufferedText hother | writtenText hother
  | leaveTable hother | leaveList hother =>
      rw [hkind] at hother
      cases hother

theorem OutsideTitle.enterSection {state : State}
    (hnone : openOf .heading history = []) (hkind : node.kind = .heading)
    (hfront : isFrontMatter options node = false)
    (hconsuming : state.consumingFrontMatter = false) :
    OutsideTitle options (⟨node, .enter, run, .ok .next⟩ :: history) state := by
  refine ⟨?_, hconsuming⟩
  rw [openOf_enter .heading hkind rfl, hnone]
  simpa using hfront

/-- Entering a heading keeps to the stages of a title block. -/
theorem TitleStage.enterHeading (hstage : TitleStage load options history run.state)
    (hnone : openOf .heading history = []) (hkind : node.kind = .heading)
    (hrule : Visited load options run node .enter (.ok step) after) :
    TitleStage load options (⟨node, .enter, run, .ok step⟩ :: history) after.state := by
  have hcarries : carriesFrontMatter options node = isFrontMatter options node := by
    simp [carriesFrontMatter, hkind]
  cases hstage with
  | reading _ hone => simp [hone] at hnone
  | loaded _ hone => simp [hone] at hnone
  | unseen hquiet houtside hblock =>
      rcases hrule.enter_heading hkind with ⟨-, hsome, -⟩ | ⟨hfront, -, rfl, hstate⟩ |
        ⟨hfront, rfl, hstate⟩
      · simp [hblock] at hsome
      · -- This is the first heading of front matter, and nothing was visited in it yet.
        rw [hstate, ← List.nil_append (_ :: history)]
        refine .reading ⟨hcarries.trans hfront, hquiet⟩ ?_ (by simp) rfl hblock
        rw [List.nil_append, openOf_enter .heading hkind rfl, hnone]
      · rw [hstate]
        refine .unseen ?_ (.enterSection hnone hkind hfront rfl) hblock
        exact List.forall_mem_cons.mpr ⟨hcarries.trans hfront, hquiet⟩
  | written hfirst hspans hinside hloads hleft hafterwards houtside hblock =>
      rw [← List.cons_append]
      have hspans' := hspans.mono (List.suffix_cons ⟨node, .enter, run, .ok step⟩ _)
      rcases hrule.enter_heading hkind with ⟨-, -, rfl, hstate⟩ | ⟨-, hother, -⟩ |
        ⟨hfront, rfl, hstate⟩
      · rw [hstate]
        refine .written hfirst hspans' hinside hloads hleft ?_
          ⟨houtside.headings, houtside.consuming⟩ hblock
        exact List.forall_mem_cons.mpr ⟨fun _ => ⟨rfl, rfl⟩, hafterwards⟩
      · rw [hblock] at hother
        cases hother
      · rw [hstate]
        refine .written hfirst hspans' hinside hloads hleft ?_
          (.enterSection hnone hkind hfront rfl) hblock
        refine List.forall_mem_cons.mpr ⟨fun htrue => ?_, hafterwards⟩
        rw [hcarries.trans hfront] at htrue
        cases htrue

/-- The title block is written when the heading that it was loaded in is left. -/
theorem TitleStage.leaveHeading (hstage : TitleStage load options history run.state)
    (hunderway : Underway (visitWith load options) root start ((node, .leave) :: rest) history run)
    (hkind : node.kind = .heading)
    (hrun : (visitWith load options node .leave).runFrom run = (.ok step, after)) :
    TitleStage load options (⟨node, .leave, run, .ok step⟩ :: history) after.state := by
  have hcarries : carriesFrontMatter options node = isFrontMatter options node := by
    simp [carriesFrontMatter, hkind]
  obtain ⟨hstate, rfl, hwritten⟩ := (visited hrun).leave_heading hkind
  obtain ⟨since, hopen⟩ := hunderway.openOf_leave .heading hkind (.ok .next)
  rw [hstate]
  -- Outside of the first heading of front matter a heading that is left carries none.
  have houtside' : OutsideTitle options history run.state →
      isFrontMatter options node = false ∧
        OutsideTitle options (⟨node, .leave, run, .ok .next⟩ :: history)
          { run.state with consumingFrontMatter := false } := by
    intro houtside
    have hall := houtside.headings
    rw [hopen] at hall
    exact ⟨hall _ List.mem_cons_self,
      fun heading hmem => hall heading (List.mem_cons_of_mem _ hmem),
      rfl⟩
  cases hstage with
  | unseen hquiet houtside hblock =>
      obtain ⟨hfront, houtside⟩ := houtside' houtside
      refine .unseen ?_ houtside hblock
      exact List.forall_mem_cons.mpr ⟨hcarries.trans hfront, hquiet⟩
  | @reading inside entered earlier _ hfirst hone hinside hconsuming hblock =>
      -- No text was loaded, so that leaving the heading would have failed.
      rw [hone] at hopen
      have hnode : entered.node = node := congrArg OpenNode.node (List.cons.inj hopen).1
      have hfront : isFrontMatter options node = true := by
        rw [← hcarries, ← hnode]
        exact hfirst.carries
      rcases hwritten with hsection | ⟨block, pieces, hsome, -⟩
      · rw [hsection] at hfront
        cases hfront
      · rw [hblock] at hsome
        cases hsome
  | @loaded inside entered earlier _ block hfirst hone hinside hloads hconsuming hblock =>
      obtain ⟨innermost, houter⟩ := hunderway.open_of_leave
      have hhead : ⟨innermost, node⟩ ∈ openOf .heading (inside ++ entered :: earlier) :=
        List.mem_filter.mpr ⟨houter ▸ List.mem_cons_self, by simp [hkind]⟩
      rw [hone, List.mem_singleton] at hhead
      rw [hhead] at houter
      have hnone : openOf .heading (⟨node, .leave, run, .ok .next⟩ ::
          (inside ++ entered :: earlier)) = [] := by
        rw [hone] at hopen
        exact (List.cons.inj hopen).2.symm
      rw [← List.nil_append (_ :: (inside ++ entered :: earlier))]
      refine .written hfirst ⟨List.suffix_rfl, rfl, (closes_of_innermost houter).2⟩ hinside hloads
        hblock (by simp) ⟨?_, rfl⟩ hblock
      rw [List.nil_append, hnone]
      simp
  | written hfirst hspans hinside hloads hleft hafterwards houtside hblock =>
      obtain ⟨hfront, houtside⟩ := houtside' houtside
      rw [← List.cons_append]
      refine .written hfirst (hspans.mono (List.suffix_cons _ _)) hinside hloads hleft ?_ houtside
        hblock
      refine List.forall_mem_cons.mpr ⟨fun htrue => ?_, hafterwards⟩
      rw [hcarries.trans hfront] at htrue
      cases htrue

end

/-! ## Along a walk -/

section

variable {load : Loader} {options : Options} {root node : Node} {start run after : Run}
  {rest pending : Pending} {history : History RenderError Run} {phase : Phase}

/-- Every visit keeps to the stages of a title block. -/
theorem TitleStage.step {step : Step} (hstage : TitleStage load options history run.state)
    (hapart : HeadingsApart [] root)
    (hunderway : Underway (visitWith load options) root start ((node, phase) :: rest) history run)
    (hrun : (visitWith load options node phase).runFrom run = (.ok step, after)) :
    TitleStage load options (⟨node, phase, run, .ok step⟩ :: history) after.state := by
  -- Only texts and headings can move the stage.
  by_cases htext : node.kind = .text
  · exact hstage.text hunderway htext (visited hrun)
  · by_cases hheading : node.kind = .heading
    · cases phase with
      | enter =>
          have hnone := openOf_heading_eq_nil hapart hunderway hheading
          exact hstage.enterHeading hnone hheading (visited hrun)
      | leave => exact hstage.leaveHeading hunderway hheading hrun
    · obtain ⟨hblock, hconsuming⟩ := (visited hrun).keeps_title htext hheading
      have hopen := hunderway.openOf_other .heading hheading (.ok step)
      exact hstage.extend hheading (fun hkind => absurd hkind htext) hopen hblock hconsuming

/-- A walk is in one of the stages of a title block at every point. -/
theorem titleStage_of_underway (hapart : HeadingsApart [] root)
    (hunderway : Underway (visitWith load options) root (Renderer.start options) pending history
      run) : TitleStage load options history run.state := by
  induction hunderway with
  | start =>
      rw [Renderer.start_state]
      exact .unseen (by simp) ⟨by simp [openOf, openNodes], rfl⟩ rfl
  | step hbefore hrun _ ih => exact ih.step hapart hbefore hrun

end

end Render

end Manuscript
