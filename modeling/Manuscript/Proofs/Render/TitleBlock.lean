import Manuscript.Proofs.Render.KeepFirst
import Manuscript.Proofs.Render.Output

/-! # The title block of a document

If no heading is below another one, a document with front matter is rendered
with one title block, which is written when the first heading of front matter is
left and holds what the first text in that heading loads to. All further
headings of front matter are passed over with a warning each
(`title_block_written_once`).
-/

namespace Manuscript.Render

open Troff (Piece named Request)

/-- The report on a heading that is passed over. -/
def repeatedMessage : String :=
  "Ignoring additional front matter heading; the title block is already set"

/-- The warnings of a run. -/
def Run.warnings (run : Run) : List String := Log.messagesAt Log.warning run.log.toList

/-- A visit passes over a heading of front matter. -/
def passesOver (options : Options) (v : Visit RenderError Run) : Bool :=
  match v.answer with
  | .ok .skipChildren => carriesFrontMatter options v.node
  | _ => false

/-- The visits that enter headings of front matter, in the order in which they were made. -/
def entersFrontMatter (options : Options) (history : History RenderError Run) :
    History RenderError Run :=
  history.reverse.filter fun v => v.phase = .enter && carriesFrontMatter options v.node

/-- The first of the texts that were visited is loaded, and nothing is written of it, neither to the
output nor into a table. -/
def LoadsUnwritten (load : Loader) (options : Options) (inside : History RenderError Run)
    (block : TitleBlock) : Prop :=
  ∃ afterwards text before loaded, inside = afterwards ++ text :: before ∧
    text.node.kind = .text ∧ (∀ v ∈ before, v.node.kind ≠ .text) ∧
    load text.node.literal = .ok block ∧
    (visitWith load options text.node text.phase).runFrom text.before = (.ok .next, loaded) ∧
    loaded.written = text.before.written ∧
    loaded.state.tableBuffer = text.before.state.tableBuffer

/-- From entering a heading to leaving it a title block is made: the first text in the heading is
loaded instead of written, and what it loads to is written when the heading is left. -/
structure MakesTitleBlock (load : Loader) (options : Options) (history : History RenderError Run)
    (entered : Visit RenderError Run) (inside : History RenderError Run)
    (left : Visit RenderError Run) (earlier : History RenderError Run) (block : TitleBlock) :
    Prop where
  spans : Spans history entered inside left earlier
  loads : LoadsUnwritten load options inside block
  /-- All requests of the title block have an encoding, and all of them are written. -/
  writes : ∃ pieces after, Troff.requests (Troff.titleBlock block) = (pieces, none) ∧
    (visitWith load options left.node .leave).runFrom left.before = (.ok .next, after) ∧
    after.written.toList = left.before.written.toList ++ pieces

/-- The first heading of front matter of a history was entered and left with no other heading in it,
and all later ones were passed over. -/
structure ReadsOnce (options : Options) (history : History RenderError Run)
    (entered : Visit RenderError Run) (inside : History RenderError Run)
    (left : Visit RenderError Run) (earlier afterwards : History RenderError Run) : Prop where
  split : history = afterwards ++ left :: (inside ++ entered :: earlier)
  first : EntersFirst options entered earlier
  spans : Spans history entered inside left earlier
  inside : ∀ v ∈ inside, v.node.kind ≠ .heading
  later : ∀ v ∈ afterwards, carriesFrontMatter options v.node = true →
    v.phase = .enter ∧ v.answer = .ok .skipChildren

section

variable {load : Loader} {options : Options} {root node : Node} {start run after : Run}
  {pending : Pending} {history : History RenderError Run} {phase : Phase} {step : Step}

/-! ## What visits write and report -/

/-- Only the end of front matter writes a title. -/
theorem named_title_writes (hnot : carriesFrontMatter options node = false ∨ phase = .enter)
    (state : State) : named Request.title (writes options node phase state) = [] := by
  by_cases hheading : node.kind = .heading
  · cases phase with
    | enter =>
        simp only [writes, hheading]
        split <;> rfl
    | leave =>
        have hfront : isFrontMatter options node = false := by
          simpa [carriesFrontMatter, hheading] using hnot
        simp [writes, hheading, hfront]
  · by_cases hitem : node.kind = .listItem
    · cases phase with
      | enter =>
          simp only [writes, hitem]
          split <;> rfl
      | leave => simp [writes, hitem, plainPieces]
    · exact named_writes_other (by decide) (by decide) hitem hheading state

/-- Without an end of front matter no title is written. -/
theorem named_title_outputOf
    (hnone : ∀ v ∈ history, carriesFrontMatter options v.node = false ∨ v.phase = .enter) :
    named Request.title (outputOf options history) = [] := by
  induction history with
  | nil => rfl
  | cons v earlier ih =>
      obtain ⟨hhere, hearlier⟩ := List.forall_mem_cons.mp hnone
      rw [outputOf_cons, Troff.named_append, ih hearlier, named_title_writes hhere, List.nil_append]

/-- Only headings of front matter that are passed over lead to warnings. -/
theorem Visited.warnings_eq (hrule : Visited load options run node phase (.ok step) after) :
    after.warnings = run.warnings ++
      if passesOver options ⟨node, phase, run, .ok step⟩ then [repeatedMessage] else [] := by
  cases hrule with
  | repeatedFrontMatter hkind hfront hblock =>
      simp [Run.warnings, Run.note, Log.messagesAt, passesOver, carriesFrontMatter, hkind, hfront,
        repeatedMessage]
  | image hkind =>
      simp [Run.warnings, Run.note, Log.messagesAt, passesOver, carriesFrontMatter, hkind,
        Log.debug, Log.warning]
  | payload hkind =>
      simp [Run.warnings, Run.note, Run.become, Log.messagesAt, passesOver, Log.debug, Log.warning]
  | _ => simp [Run.warnings, Run.become, Run.add, passesOver]

/-- There is one warning for each heading that is passed over, and no other. -/
theorem warnings_of_underway
    (hunderway : Underway (visitWith load options) root start pending history run) :
    run.warnings = start.warnings ++
      (history.reverse.filter (passesOver options)).map fun _ => repeatedMessage := by
  induction hunderway with
  | start => simp
  | step _ hrun _ ih =>
      rw [(visited hrun).warnings_eq, ih, List.reverse_cons, List.filter_append, List.map_append,
        List.append_assoc]
      congr 2
      rw [List.filter_cons, List.filter_nil]
      split <;> rfl

/-! ## Headings of front matter -/

/-- The headings of front matter that are entered are those that are reached. -/
theorem enteredNodes_carries (hapart : HeadingsApart [] root)
    (hunderway : Underway (visitWith load options) root start [] history run) :
    (enteredNodes history).filter (carriesFrontMatter options) =
      root.reached.filter (carriesFrontMatter options) := by
  have hskip : ∀ node rest history run after,
      Underway (visitWith load options) root start ((node, .enter) :: rest) history run →
      (visitWith load options node .enter).runFrom run = (.ok .skipChildren, after) →
      node.reached.filter (carriesFrontMatter options) =
        [node].filter (carriesFrontMatter options) := by
    intro node rest history run after hbefore hrun
    rcases (visited hrun).next_or_skip with ⟨hnext, -⟩ | ⟨-, -, -, himage | hover⟩
    · cases hnext
    · rw [Node.reached_end (.inr himage)]
    · have hkind := TitleSearch.heading_of_passesOver hover
      have hbelow := hapart.below (hbefore.reaches (passesOverImages load options))
      have hnone : (Node.reachedAll node.children).filter (carriesFrontMatter options) = [] := by
        refine List.filter_eq_nil_iff.mpr fun target hmem => ?_
        rw [carriesFrontMatter_of_kind (hbelow.not_heading hkind hmem)]
        exact Bool.false_ne_true
      rw [Node.reached_container (by rw [hkind]; rfl) (by simp [hkind]), ← List.singleton_append,
        List.filter_append, hnone, List.append_nil]
  have hall := hunderway.filter_reached (passesOverImages load options) hskip
  rw [Pending.toReach, List.append_nil] at hall
  exact hall

theorem enteredNodes_filter (p : Node → Bool) :
    (enteredNodes history).filter p =
      (history.reverse.filter fun v => v.phase = .enter && p v.node).map Visit.node := by
  rw [enteredNodes, List.filter_map, List.filter_filter]
  congr 2
  funext v
  exact Bool.and_comm _ _

/-- When nothing is open, no front matter was seen or its title block was written. -/
theorem TitleStage.of_open_nil {state : State} (hstage : TitleStage load options history state)
    (hopen : openNodes history = []) :
    (∀ v ∈ history, carriesFrontMatter options v.node = false) ∨
      ∃ entered inside left earlier afterwards block,
        ReadsOnce options history entered inside left earlier afterwards ∧
        LoadsFirstText load inside block ∧ left.before.state.titleBlock = some block := by
  cases hstage with
  | unseen hquiet => exact .inl hquiet
  | reading _ hone => simp [openOf, hopen] at hone
  | loaded _ hone => simp [openOf, hopen] at hone
  | written hfirst hspans hinside hloads hleft hafterwards =>
      exact .inr ⟨_, _, _, _, _, _, ⟨rfl, hfirst, hspans, hinside, hafterwards⟩, hloads, hleft⟩

end

/-- Only headings with front matter are passed over. -/
theorem carries_of_passesOver {options : Options} {v : Visit RenderError Run}
    (hover : passesOver options v = true) : carriesFrontMatter options v.node = true := by
  unfold passesOver at hover
  split at hover
  · exact hover
  · cases hover

/-- Without front matter no heading of it is entered and none is passed over. -/
theorem filter_quiet {options : Options} {history : History RenderError Run}
    (hquiet : ∀ v ∈ history, carriesFrontMatter options v.node = false) :
    entersFrontMatter options history = [] ∧
      history.reverse.filter (passesOver options) = [] := by
  constructor
  · apply List.filter_eq_nil_iff.mpr
    intro v hmem
    simp [hquiet v (List.mem_reverse.mp hmem)]
  · apply List.filter_eq_nil_iff.mpr
    intro v hmem hover
    have hfalse := hquiet v (List.mem_reverse.mp hmem)
    rw [carries_of_passesOver hover] at hfalse
    cases hfalse

namespace ReadsOnce

variable {options : Options} {entered left : Visit RenderError Run}
  {history inside earlier afterwards : History RenderError Run}

/-- Up to the end of the title block, only the first heading carries front matter. -/
theorem filter_reverse (hreads : ReadsOnce options history entered inside left earlier afterwards)
    {p : Visit RenderError Run → Bool}
    (hcarries : ∀ v, p v = true → carriesFrontMatter options v.node = true)
    (hleft : p left = false) :
    history.reverse.filter p = [entered].filter p ++ afterwards.reverse.filter p := by
  have hearlier : earlier.filter p = [] := by
    apply List.filter_eq_nil_iff.mpr
    intro v hmem hp
    have hfalse := hreads.first.first v hmem
    rw [hcarries v hp] at hfalse
    cases hfalse
  have hinside : inside.filter p = [] := by
    apply List.filter_eq_nil_iff.mpr
    intro v hmem hp
    exact hreads.inside v hmem (carriesFrontMatter_iff.mp (hcarries v hp)).1
  rw [hreads.split, List.filter_reverse, List.filter_append, List.filter_cons, hleft,
    List.filter_append, List.filter_cons, hearlier, hinside, List.filter_reverse]
  cases hentered : p entered <;> simp [hentered]

theorem entersFrontMatter_eq
    (hreads : ReadsOnce options history entered inside left earlier afterwards) :
    entersFrontMatter options history =
      entered :: afterwards.reverse.filter (carriesFrontMatter options ·.node) := by
  have hlater : ∀ v ∈ afterwards.reverse,
      (decide (v.phase = .enter) && carriesFrontMatter options v.node) =
        carriesFrontMatter options v.node := by
    intro v hmem
    cases hcarries : carriesFrontMatter options v.node with
    | false => simp
    | true => simp [(hreads.later v (List.mem_reverse.mp hmem) hcarries).1]
  rw [entersFrontMatter, hreads.filter_reverse (by simp) (by simp [hreads.spans.leave]),
    List.filter_congr hlater]
  simp [Visit.enter_of_opens hreads.spans.opens, hreads.first.carries]

/-- The headings that are passed over come after the one that is read. -/
theorem filter_passesOver
    (hreads : ReadsOnce options history entered inside left earlier afterwards)
    (hleft : left.answer = .ok .next) :
    history.reverse.filter (passesOver options) =
      afterwards.reverse.filter (carriesFrontMatter options ·.node) := by
  have hentered : passesOver options entered = false := by
    have hopens := hreads.spans.opens
    unfold Visit.opens at hopens
    split at hopens <;> simp_all [passesOver]
  have hlater : ∀ v ∈ afterwards.reverse,
      passesOver options v = carriesFrontMatter options v.node := by
    intro v hmem
    cases htrue : carriesFrontMatter options v.node with
    | false =>
        rw [← Bool.not_eq_true]
        intro hover
        rw [carries_of_passesOver hover] at htrue
        cases htrue
    | true => simp [passesOver, (hreads.later v (List.mem_reverse.mp hmem) htrue).2, htrue]
  rw [hreads.filter_reverse (fun _ => carries_of_passesOver) (by simp [passesOver, hleft]),
    List.filter_congr hlater]
  simp [hentered]

/-- The title of the title block is the only one that is written. -/
theorem named_title (hreads : ReadsOnce options history entered inside left earlier afterwards)
    (hnode : left.node = entered.node) {block : TitleBlock} {pieces : List Piece}
    (hblock : left.before.state.titleBlock = some block)
    (hrequests : Troff.requests (Troff.titleBlock block) = (pieces, none)) :
    ∃ title : String, block.title = title ∧ named Request.title (outputOf options history) =
      [Troff.withText Request.title ["\n", title]] := by
  have hbefore : named Request.title (outputOf options (inside ++ entered :: earlier)) = [] := by
    apply named_title_outputOf
    intro v hmem
    rcases List.mem_append.mp hmem with hmem | hmem
    · exact .inl (carriesFrontMatter_of_kind (hreads.inside v hmem))
    · rcases List.mem_cons.mp hmem with rfl | hmem
      · exact .inr (Visit.enter_of_opens hreads.spans.opens)
      · exact .inl (hreads.first.first v hmem)
  have hlater : named Request.title (outputOf options afterwards) = [] := by
    apply named_title_outputOf
    intro v hmem
    cases hcarries : carriesFrontMatter options v.node with
    | false => exact .inl rfl
    | true => exact .inr (hreads.later v hmem hcarries).1
  have hhere : writes options left.node left.phase left.before.state = pieces := by
    obtain ⟨hkind, hfront⟩ := carriesFrontMatter_iff.mp (hnode ▸ hreads.first.carries)
    simp [writes, hkind, hfront, hreads.spans.leave, hblock, hrequests]
  obtain ⟨title, htitle, hnamed⟩ := Troff.named_title_titleBlock hrequests
  refine ⟨title, htitle, ?_⟩
  rw [hreads.split, outputOf_append, outputOf_cons, Troff.named_append, Troff.named_append, hbefore,
    hlater, hhere, hnamed]
  rfl

end ReadsOnce

section Made

variable {load : Loader} {options : Options} {root : Node} {start run : Run} {pending : Pending}
  {history inside : History RenderError Run}

theorem Visited.quiet_text {node : Node} {phase : Phase} {step : Step} {after : Run}
    (hrule : Visited load options run node phase (.ok step) after) (hkind : node.kind = .text)
    (hconsuming : run.state.consumingFrontMatter = true) :
    step = .next ∧ after.written = run.written ∧
      after.state.tableBuffer = run.state.tableBuffer := by
  cases hrule <;> simp_all [plainPieces, tableMark]

/-- The text that is loaded writes nothing, to the output or to a table. -/
theorem LoadsFirstText.unwritten {block : TitleBlock} (hloads : LoadsFirstText load inside block)
    (hunderway : Underway (visitWith load options) root start pending history run)
    (hmem : ∀ v ∈ inside, v ∈ history) : LoadsUnwritten load options inside block := by
  obtain ⟨afterwards, text, before, rfl, hkind, hbefore, hconsuming, hload⟩ := hloads
  obtain ⟨step, loaded, -, hrun⟩ :=
    hunderway.ran (hmem text (List.mem_append_right _ List.mem_cons_self))
  obtain ⟨rfl, hquiet⟩ := (visited hrun).quiet_text hkind hconsuming
  exact ⟨afterwards, text, before, loaded, rfl, hkind, hbefore, hload, hrun, hquiet⟩

/-- The heading is left without stopping the walk, and that writes the block. -/
theorem makesTitleBlock {entered left : Visit RenderError Run} {block : TitleBlock}
    (hunderway : Underway (visitWith load options) root start pending history run)
    (hcarries : carriesFrontMatter options entered.node = true) (hnode : left.node = entered.node)
    (hspans : Spans history entered inside left earlier) (hloads : LoadsFirstText load inside block)
    (hblock : left.before.state.titleBlock = some block) :
    left.answer = .ok .next ∧
      MakesTitleBlock load options history entered inside left earlier block := by
  have hmem : ∀ v ∈ left :: (inside ++ entered :: earlier), v ∈ history :=
    fun v hmem => hspans.suffix.subset hmem
  obtain ⟨step, after, hanswer, hrun⟩ := hunderway.ran (hmem left List.mem_cons_self)
  rw [hspans.leave] at hrun
  obtain ⟨hkind, hfront⟩ := carriesFrontMatter_iff.mp (hnode ▸ hcarries)
  obtain ⟨-, rfl, hsection | ⟨block', pieces, hsome, hrequests, hwritten⟩⟩ :=
    (visited hrun).leave_heading hkind
  · rw [hsection] at hfront
    cases hfront
  · rw [hblock] at hsome
    cases hsome
    refine ⟨hanswer, hspans, ?_, pieces, after, hrequests, hrun, hwritten⟩
    exact hloads.unwritten hunderway fun v hin =>
      hmem v (List.mem_cons_of_mem _ (List.mem_append_left _ hin))

/-- A heading that is passed over leads to a warning and, with all that is below it, to nothing
else. -/
theorem runFrom_descend_passed
    (hunderway : Underway (visitWith load options) root start pending history run)
    {v : Visit RenderError Run} (hmem : v ∈ history)
    (hcarries : carriesFrontMatter options v.node = true) (henter : v.phase = .enter)
    (hskip : v.answer = .ok .skipChildren) :
    (v.node.descend (visitWith load options)).runFrom v.before =
      (.ok .next, v.before.note Log.warning repeatedMessage) := by
  obtain ⟨step, after, hanswer, hrun⟩ := hunderway.ran hmem
  rw [hskip, Except.ok.injEq] at hanswer
  subst hanswer
  rw [henter] at hrun
  rw [Node.runFrom_descend_skip hrun]
  cases visited hrun with
  | repeatedFrontMatter => rfl
  | image hkind => simp [carriesFrontMatter, hkind] at hcarries

variable {entered left : Visit RenderError Run} {earlier afterwards : History RenderError Run}

/-- What is made in the first heading of front matter: a title block, with the only title. -/
theorem ReadsOnce.made (hreads : ReadsOnce options history entered inside left earlier afterwards)
    (hunderway : Underway (visitWith load options) root start pending history run)
    (hnode : left.node = entered.node) {block : TitleBlock}
    (hloads : LoadsFirstText load inside block)
    (hblock : left.before.state.titleBlock = some block) :
    left.answer = .ok .next ∧
      MakesTitleBlock load options history entered inside left earlier block ∧
      ∃ title : String, block.title = title ∧ named Request.title (outputOf options history) =
        [Troff.withText Request.title ["\n", title]] := by
  obtain ⟨hanswer, hmakes⟩ :=
    makesTitleBlock hunderway hreads.first.carries hnode hreads.spans hloads hblock
  obtain ⟨pieces, -, hrequests, -⟩ := hmakes.writes
  exact ⟨hanswer, hmakes, hreads.named_title hnode hblock hrequests⟩

/-- All headings of front matter after the first one are passed over. -/
theorem ReadsOnce.passed (hreads : ReadsOnce options history entered inside left earlier afterwards)
    (hunderway : Underway (visitWith load options) root start pending history run)
    {v : Visit RenderError Run}
    (hmem : v ∈ afterwards.reverse.filter (carriesFrontMatter options ·.node)) :
    v.answer = .ok .skipChildren ∧
      (v.node.descend (visitWith load options)).runFrom v.before =
        (.ok .next, v.before.note Log.warning repeatedMessage) := by
  obtain ⟨hafter, hcarries⟩ := List.mem_filter.mp hmem
  have hwhere := List.mem_reverse.mp hafter
  obtain ⟨henter, hskip⟩ := hreads.later v hwhere hcarries
  have hmade : v ∈ history := by
    rw [hreads.split]
    exact List.mem_append_left _ hwhere
  exact ⟨hskip, runFrom_descend_passed hunderway hmade hcarries henter hskip⟩

end Made

section Rendered

variable {load : Loader} {renderer : Renderer} {root : Node} {final : Run}

/-- The titles of a rendered document are those that its visits write. -/
theorem named_title_rendered
    (hwalk : (walk (visitWith load renderer.options) root).runFrom
      (Renderer.start renderer.options) = (.ok .next, final)) :
    named Request.title (renderer.renderWith load root).written =
      named Request.title (outputOf renderer.options (renderer.historyWith load root)) := by
  have hpreamble :
      named Request.title (Renderer.start renderer.options).written.toList = [] := by
    rw [Renderer.start_written]
    split <;> rfl
  have hend : named Request.title [Troff.signature] = [] := rfl
  rw [Renderer.renderWith_ok hwalk, Troff.named_append, hend,
    written_of_underway (underway_historyOf hwalk), Troff.named_append, hpreamble, List.append_nil,
    List.nil_append]
  rfl

/-- The warnings of a rendered document are those on headings that are passed over. -/
theorem warnings_rendered
    (hwalk : (walk (visitWith load renderer.options) root).runFrom
      (Renderer.start renderer.options) = (.ok .next, final)) :
    Log.messagesAt Log.warning (renderer.renderWith load root).log =
      ((renderer.historyWith load root).reverse.filter (passesOver renderer.options)).map
        fun _ => repeatedMessage := by
  have hstart : (Renderer.start renderer.options).warnings = [] := by
    unfold Renderer.start Renderer.header
    split <;> rfl
  have hwarnings := warnings_of_underway (underway_historyOf hwalk)
  rw [hstart, List.nil_append] at hwarnings
  rw [Renderer.renderWith_ok hwalk]
  refine Eq.trans ?_ hwarnings
  simp [Run.warnings, Log.messagesAt, Log.debug, Log.warning]

end Rendered

/-- Rendering a document whose headings are not below each other succeeds only with at most one
title block. If no heading of front matter is reached, no title is written. Otherwise the title
block is made in the first of these headings. All later ones are passed over, each with one warning,
and the output is the same without them. -/
theorem title_block_written_once (load : Loader) (renderer : Renderer) (root : Node)
    (hapart : HeadingsApart [] root)
    (hresult : (renderer.renderWith load root).result = .ok ()) :
    let options := renderer.options
    let rendering := renderer.renderWith load root
    let history := renderer.historyWith load root
    let headings := root.reached.filter (carriesFrontMatter options)
    (headings = [] → named Request.title rendering.written = []) ∧
    (∀ first later, headings = first :: later →
      ∃ entered inside left earlier block repeated,
        MakesTitleBlock load options history entered inside left earlier block ∧
        entered.node = first ∧
        (∃ title : String, block.title = title ∧
          named Request.title rendering.written = [Troff.withText Request.title ["\n", title]]) ∧
        entersFrontMatter options history = entered :: repeated ∧
        repeated.map Visit.node = later ∧
        ∀ v ∈ repeated, v.answer = .ok .skipChildren ∧
          (v.node.descend (visitWith load options)).runFrom v.before =
            (.ok .next, v.before.note Log.warning repeatedMessage)) ∧
    Log.messagesAt Log.warning rendering.log = headings.tail.map (fun _ => repeatedMessage) ∧
    ∃ kept, (root.keepFirst options false).1 = [kept] ∧
      (renderer.renderWith load kept).result = .ok () ∧
      (renderer.renderWith load kept).written = rendering.written := by
  intro options rendering history headings
  obtain ⟨final, hwalk, -⟩ := Renderer.walk_of_renderWith_ok hresult
  have hdone : Underway (visitWith load options) root (Renderer.start options) [] history final :=
    underway_historyOf hwalk
  have htitles : named Request.title rendering.written =
      named Request.title (outputOf options history) := named_title_rendered hwalk
  have hwarnings : Log.messagesAt Log.warning rendering.log =
      (history.reverse.filter (passesOver options)).map fun _ => repeatedMessage :=
    warnings_rendered hwalk
  have hheadings : headings = (entersFrontMatter options history).map Visit.node :=
    (enteredNodes_carries hapart hdone).symm.trans (enteredNodes_filter _)
  have hkept := renderWith_keepFirst hapart hresult
  rcases (titleStage_of_underway hapart hdone).of_open_nil hdone.open_of_done with hquiet |
    ⟨entered, inside, left, earlier, afterwards, block, hreads, hloads, hblock⟩
  · obtain ⟨hnone, hover⟩ := filter_quiet hquiet
    rw [hnone, List.map_nil] at hheadings
    rw [hover] at hwarnings
    refine ⟨fun _ => ?_, fun first later hcons => ?_, ?_, hkept⟩
    · rw [htitles]
      exact named_title_outputOf fun v hmem => .inl (hquiet v hmem)
    · rw [hheadings] at hcons
      cases hcons
    · rw [hwarnings, hheadings]
      rfl
  · obtain ⟨hanswer, hmakes, htitle⟩ := hreads.made hdone hreads.spans.node_eq hloads hblock
    rw [← htitles] at htitle
    rw [hreads.filter_passesOver hanswer] at hwarnings
    rw [hreads.entersFrontMatter_eq, List.map_cons] at hheadings
    refine ⟨fun hnone => ?_, fun first later hcons => ?_, ?_, hkept⟩
    · rw [hheadings] at hnone
      cases hnone
    · rw [hheadings] at hcons
      obtain ⟨hentered, hlater⟩ := List.cons.inj hcons
      exact ⟨entered, inside, left, earlier, block, _, hmakes, hentered, htitle,
        hreads.entersFrontMatter_eq, hlater, fun v => hreads.passed hdone⟩
    · rw [hwarnings, hheadings, List.tail_cons, List.map_map]
      rfl

/-- Front matter that is marked, a heading of a section, and front matter twice more: once in an
image and once after it. -/
def repeatedFrontMatter : Node where
  kind := .document
  children := [
    { kind := .heading, isTitleBlock := true
      children := [
        { kind := .emphasis, children := [{ kind := .text, literal := "first" }] },
        { kind := .text, literal := "note" }] },
    { kind := .heading, children := [{ kind := .text, literal := "section" }] },
    { kind := .image
      children := [{ kind := .heading, isTitleBlock := true }] },
    { kind := .blockQuote
      children := [
        { kind := .heading, isTitleBlock := true
          children := [{ kind := .text, literal := "second" }] }] }]

/-- The first heading of front matter gives the title, one in an image counts for nothing, and a
second one is only reported. -/
theorem repeated_front_matter_ignored :
    let load : Loader := fun payload => .ok { title := payload }
    let rendering := Renderer.renderWith load {} repeatedFrontMatter
    HeadingsApart [] repeatedFrontMatter ∧ rendering.result = .ok () ∧
    (∃ entered inside left earlier block,
      MakesTitleBlock load {} (Renderer.historyWith load {} repeatedFrontMatter) entered inside left
        earlier block ∧
      repeatedFrontMatter.children.head? = some entered.node ∧
      named Request.title rendering.written = [Troff.withText Request.title ["\n", "first"]]) ∧
    Log.messagesAt Log.warning rendering.log = [repeatedMessage] := by
  intro load rendering
  have hapart : HeadingsApart [] repeatedFrontMatter := headingsApart_of_descendants (by decide)
  have hresult : (Renderer.renderWith load {} repeatedFrontMatter).result = .ok () := by
    rw [Renderer.renderWith, Renderer.document, walk_eq_descend]
    rfl
  have hnamed : named Request.title (Renderer.renderWith load {} repeatedFrontMatter).written =
      [Troff.withText Request.title ["\n", "first"]] := by
    rw [Renderer.renderWith, Renderer.document, walk_eq_descend]
    decide
  obtain ⟨-, hmade, hwarnings, -⟩ :=
    title_block_written_once load {} repeatedFrontMatter hapart hresult
  obtain ⟨entered, inside, left, earlier, block, -, hmakes, hentered, ⟨title, -, htitle⟩, -⟩ :=
    hmade _ _ rfl
  refine ⟨hapart, hresult, ⟨entered, inside, left, earlier, block, hmakes, ?_, ?_⟩, hwarnings⟩
  · rw [hentered]
    rfl
  · exact hnamed

/-- Front matter that is stored below a text. -/
def frontMatterInText : Node where
  kind := .document
  children := [
    { kind := .text
      children := [
        { kind := .heading, level := 1, isTitleBlock := true
          children := [{ kind := .text, literal := "title: T" }] }] }]

/-- No title block is written for front matter below a text. -/
theorem front_matter_in_text_ignored :
    (∀ heading ∈ frontMatterInText :: frontMatterInText.descendants, heading.kind = .heading →
      ∀ other ∈ heading.descendants, other.kind ≠ .heading) ∧
    (frontMatterInText.descendants.filter (carriesFrontMatter {})).length = 1 ∧
    (∀ node ∈ frontMatterInText :: frontMatterInText.descendants, node.kind ≠ .image) ∧
    (Renderer.renderWith FrontMatter.load {} frontMatterInText).result = .ok () ∧
    Troff.textOf (Renderer.renderWith FrontMatter.load {} frontMatterInText).written = ".SG\n" ∧
    named Request.title
      (Renderer.renderWith FrontMatter.load {} frontMatterInText).written = [] := by
  refine ⟨by decide, by decide, by decide, ?_, ?_, ?_⟩ <;>
    rw [Renderer.renderWith, Renderer.document, walk_eq_descend]
  · rfl
  · decide +kernel
  · rfl

end Manuscript.Render
