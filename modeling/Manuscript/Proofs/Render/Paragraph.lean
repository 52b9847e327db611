import Manuscript.Proofs.Document.Span
import Manuscript.Proofs.Render.Memory
import Manuscript.Proofs.Text.Words

/-! # Words of a paragraph

A paragraph of texts, links and spans of markup is written as its texts between
two line breaks, each text without the spaces that it starts with. Its words are
those of its texts exactly if no text loses a gap by that
(`paragraph_words_iff`).
-/

namespace Manuscript

open Troff (Piece)

/-- The literals of the texts among nodes. -/
def textsOf (nodes : List Node) : List String :=
  (nodes.filter (·.kind = .text)).map Node.literal

/-- The texts that are reached from a node, in document order. -/
def Node.texts (node : Node) : List String := textsOf node.reached

theorem textsOf_append (first second : List Node) :
    textsOf (first ++ second) = textsOf first ++ textsOf second := by
  simp [textsOf]

namespace Render

/-- The kinds of nodes that write nothing but text. -/
def isRunning : Kind → Bool
  | .text | .link | .htmlSpan => true
  | _ => false

/-- What texts are written as. -/
def textPieces (texts : List String) : List Piece :=
  (texts.filter (!·.isEmpty)).map fun text => .text (Text.dropSpaces text)

/-- What a paragraph of texts is written as. -/
def paragraphPieces (texts : List String) : List Piece :=
  Troff.lineBreak :: .text "" :: (textPieces texts ++ [Troff.lineBreak])

theorem kind_of_isRunning {kind : Kind} (hrunning : isRunning kind = true) :
    kind = .text ∨ kind = .link ∨ kind = .htmlSpan := by
  unfold isRunning at hrunning
  split at hrunning <;> simp_all

section

variable {load : Loader} {options : Options} {node : Node} {run : Run}

theorem runFrom_visit_text {phase : Phase} (hkind : node.kind = .text)
    (hconsuming : run.state.consumingFrontMatter = false)
    (hbuffer : run.state.tableBuffer = none) :
    (visitWith load options node phase).runFrom run =
      (.ok .next, run.add (textPieces [node.literal])) := by
  by_cases hliteral : node.literal = ""
  · simp [visitWith_text hkind, text, hconsuming, hliteral, textPieces]
  · simp [visitWith_text hkind, text, writeText, hconsuming, hbuffer, hliteral, textPieces]

theorem runFrom_descendAll_running {nodes : List Node}
    (hnodes : ∀ child ∈ nodes, ∀ run : Run, run.state.consumingFrontMatter = false →
      run.state.tableBuffer = none →
      (child.descend (visitWith load options)).runFrom run =
        (.ok .next, run.add (textPieces child.texts)))
    (hconsuming : run.state.consumingFrontMatter = false)
    (hbuffer : run.state.tableBuffer = none) :
    (Node.descendAll (visitWith load options) nodes).runFrom run =
      (.ok .next, run.add (textPieces (textsOf (Node.reachedAll nodes)))) := by
  induction nodes generalizing run with
  | nil => simp [Node.descendAll, Node.reachedAll, textsOf, textPieces]
  | cons first rest ih =>
      have hfirst := hnodes first List.mem_cons_self run hconsuming hbuffer
      have hothers := fun child hmem => hnodes child (List.mem_cons_of_mem _ hmem)
      have hrest := @ih (run.add (textPieces first.texts)) hothers hconsuming hbuffer
      rw [Node.descendAll_cons, Action.runFrom_goOn_next hfirst, hrest, Run.add_add,
        Node.reachedAll, textsOf_append]
      simp [textPieces, Node.texts]

/-- Outside tables and front matter, texts, links and spans write their texts and change nothing
that is remembered. -/
theorem runFrom_descend_running
    (hrunning : ∀ target ∈ node.reached, isRunning target.kind = true)
    (hconsuming : run.state.consumingFrontMatter = false)
    (hbuffer : run.state.tableBuffer = none) :
    (node.descend (visitWith load options)).runFrom run =
      (.ok .next, run.add (textPieces node.texts)) := by
  induction node using Node.induction generalizing run with
  | step node ih =>
      have hhere := hrunning node (by rw [Node.reached_eq]; exact List.mem_cons_self)
      rcases kind_of_isRunning hhere with hkind | hkind | hkind
      · have hleaf : node.kind.isLeaf = true := by rw [hkind]; rfl
        rw [Node.runFrom_descend_leaf hleaf (runFrom_visit_text hkind hconsuming hbuffer)]
        simp [Node.texts, Node.reached_end (.inl hleaf), textsOf, hkind]
      · have hleaf : node.kind.isLeaf = false := by rw [hkind]; rfl
        have hreached := Node.reached_container hleaf (by simp [hkind])
        have hplain : ∀ phase, plainPieces node phase = some [] := by
          intro phase
          simp [plainPieces, hkind]
        have hchildren : (Node.descendAll (visitWith load options) node.children).runFrom run =
            (.ok .next, run.add (textPieces (textsOf (Node.reachedAll node.children)))) := by
          refine runFrom_descendAll_running (fun child hmem run => ?_) hconsuming hbuffer
          refine ih child hmem fun target htarget => hrunning target ?_
          rw [hreached]
          exact List.mem_cons_of_mem _ (Node.mem_reachedAll.mpr ⟨child, hmem, htarget⟩)
        rw [Node.runFrom_descend_container hleaf (runFrom_visit_plain (hplain .enter)), Run.add_nil,
          Action.runFrom_goOn_next hchildren,
          Action.runFrom_goOn_next (runFrom_visit_plain (hplain .leave)), Run.add_nil,
          Action.runFrom_pure]
        simp [Node.texts, hreached, textsOf, hkind]
      · have hleaf : node.kind.isLeaf = true := by rw [hkind]; rfl
        have hplain : plainPieces node .enter = some [] := by simp [plainPieces, hkind]
        rw [Node.runFrom_descend_leaf hleaf (runFrom_visit_plain hplain)]
        simp [Node.texts, Node.reached_end (.inl hleaf), textsOf, hkind, textPieces]

theorem runFrom_descend_paragraph (hkind : node.kind = .paragraph) (hliteral : node.literal = "")
    (hrunning : ∀ target ∈ node.descendants, isRunning target.kind = true)
    (hconsuming : run.state.consumingFrontMatter = false)
    (hbuffer : run.state.tableBuffer = none) :
    (node.descend (visitWith load options)).runFrom run =
      (.ok .next, run.add (paragraphPieces node.texts)) := by
  have hleaf : node.kind.isLeaf = false := by rw [hkind]; rfl
  have henter : plainPieces node .enter = some [Troff.lineBreak, .text ""] := by
    simp [plainPieces, hkind, hliteral]
  have hleave : plainPieces node .leave = some [Troff.lineBreak] := by simp [plainPieces, hkind]
  have hchildren : (Node.descendAll (visitWith load options) node.children).runFrom
      (run.add [Troff.lineBreak, .text ""]) =
        (.ok .next, (run.add [Troff.lineBreak, .text ""]).add
          (textPieces (textsOf (Node.reachedAll node.children)))) := by
    refine runFrom_descendAll_running (fun child hmem run => ?_) hconsuming hbuffer
    refine runFrom_descend_running fun target htarget => ?_
    obtain ⟨outer, hreaches⟩ := (mem_reached_iff []).mp htarget
    exact hrunning target (Node.descendants_subset hmem hreaches.mem)
  have htexts : node.texts = textsOf (Node.reachedAll node.children) := by
    simp [Node.texts, Node.reached_container hleaf (by simp [hkind]), textsOf, hkind]
  rw [Node.runFrom_descend_container hleaf (runFrom_visit_plain henter),
    Action.runFrom_goOn_next hchildren,
    Action.runFrom_goOn_next (runFrom_visit_plain hleave), Action.runFrom_pure, Run.add_add,
    Run.add_add, htexts]
  rfl

end

/-! ## Words -/

theorem toList_textOf_textPieces (texts : List String) :
    (Troff.textOf (textPieces texts)).toList =
      (texts.map String.toList).flatMap (·.dropWhile (· == ' ')) := by
  induction texts with
  | nil => rfl
  | cons first rest ih =>
      rw [List.map_cons, List.flatMap_cons, ← ih]
      by_cases hempty : first = ""
      · simp [textPieces, hempty]
      · simp [textPieces, Troff.textOf, Troff.Piece.toText, hempty, Text.dropSpaces]

theorem wordsBy_paragraphPieces {blank : Char → Bool} (hline : blank '\n' = true)
    (texts : List String) :
    Text.wordsBy blank (Troff.textOf (paragraphPieces texts)).toList =
      Text.wordsBy blank ((texts.map String.toList).flatMap (·.dropWhile (· == ' '))) := by
  have hpieces : (Troff.textOf (paragraphPieces texts)).toList =
      '\n' :: ((Troff.textOf (textPieces texts)).toList ++ (['\n'] ++ [])) := by
    simp [Troff.textOf, paragraphPieces, Troff.lineBreak, Troff.Piece.toText]
  rw [hpieces, Text.wordsBy_cons_of_blank hline,
    Text.wordsBy_append_blanks (by simpa using hline) (by simp), Text.wordsBy_nil, List.append_nil,
    toList_textOf_textPieces]

section

variable {load : Loader} {renderer : Renderer} {root : Node} {entered : Visit RenderError Run}
  {earlier : History RenderError Run}

/-- Outside tables and front matter, what is written from entering a paragraph of texts to leaving
it are its texts. -/
theorem exists_spans_paragraph
    (hsuffix : entered :: earlier <:+ renderer.historyWith load root)
    (henter : entered.phase = .enter) (hkind : entered.node.kind = .paragraph)
    (hliteral : entered.node.literal = "")
    (hrunning : ∀ target ∈ entered.node.descendants, isRunning target.kind = true)
    (htable : openOf .table earlier = [])
    (hfront : ∀ heading ∈ openOf .heading earlier,
      isFrontMatter renderer.options heading.node = false) :
    ∃ inside left after, Spans (renderer.historyWith load root) entered inside left earlier ∧
      (visitWith load renderer.options left.node .leave).runFrom left.before = (.ok .next, after) ∧
      after.written.toList =
        entered.before.written.toList ++ paragraphPieces entered.node.texts := by
  obtain ⟨⟨_, hunderway⟩, hanswered⟩ := makes_of_suffix hsuffix
  have hremembers := remembers_of_underway hunderway
  have hconsuming := hremembers.consuming_eq_false hfront
  have hbuffer := hremembers.tableBuffer_eq_none htable
  have hopens : entered.opens = true := by
    have hplain : plainPieces entered.node .enter = some [Troff.lineBreak, .text ""] := by
      simp [plainPieces, hkind, hliteral]
    rw [henter, runFrom_visit_plain hplain] at hanswered
    have hanswer : entered.answer = .ok .next := hanswered.symm
    simp [Visit.opens, henter, hanswer, hkind, Kind.isLeaf]
  obtain ⟨inside, left, answer, hspans, hleave⟩ := exists_spans_of_enter hsuffix hopens
    (runFrom_descend_paragraph hkind hliteral hrunning hconsuming hbuffer) (by decide)
  have hplain : plainPieces left.node .leave = some [Troff.lineBreak] := by
    simp [plainPieces, hspans.node_eq, hkind]
  rw [runFrom_visit_plain hplain] at hleave
  refine ⟨inside, left, _, hspans, runFrom_visit_plain hplain, ?_⟩
  rw [(Prod.mk.inj hleave).2, Run.written_add]

end

/-- Outside tables and front matter, in every rendering, a paragraph of texts, links and spans of
markup is written from the visit that enters it to the one that leaves it. For every class of blank
characters that has the space and the line feed, the words that are written are those of the texts
joined after each has lost the spaces that it starts with. These are the words of the joined texts
of the paragraph, some of which may be glued to their neighbours. None are exactly if no text loses
a gap: it starts with a space, what was written of the texts before it ends inside of a word, and
the texts from it on, without the spaces that it starts with, start with a word. -/
theorem paragraph_words_iff (load : Loader) (renderer : Renderer) (root : Node)
    (entered : Visit RenderError Run) (earlier : History RenderError Run)
    (hsuffix : entered :: earlier <:+ renderer.historyWith load root)
    (henter : entered.phase = .enter) (hkind : entered.node.kind = .paragraph)
    (hliteral : entered.node.literal = "")
    (hrunning : ∀ target ∈ entered.node.descendants, isRunning target.kind = true)
    (htable : openOf .table earlier = [])
    (hfront : ∀ heading ∈ openOf .heading earlier,
      isFrontMatter renderer.options heading.node = false) :
    ∃ inside left after pieces,
      Spans (renderer.historyWith load root) entered inside left earlier ∧
      (visitWith load renderer.options left.node .leave).runFrom left.before = (.ok .next, after) ∧
      after.written.toList = entered.before.written.toList ++ pieces ∧
      ∀ blank : Char → Bool, blank ' ' = true → blank '\n' = true →
        let texts := entered.node.texts.map String.toList
        let words := Text.wordsBy blank texts.flatten
        let written := Text.wordsBy blank (Troff.textOf pieces).toList
        written = Text.wordsBy blank (texts.flatMap (·.dropWhile (· == ' '))) ∧
        (∃ count, Text.Glues count words written) ∧
        (written = words ↔ ∀ before text later, texts = before ++ text :: later →
          ¬ Text.LosesGap blank (· == ' ') (before.flatMap (·.dropWhile (· == ' '))) text
            later.flatten) := by
  obtain ⟨inside, left, after, hspans, hleave, hwritten⟩ :=
    exists_spans_paragraph hsuffix henter hkind hliteral hrunning htable hfront
  refine ⟨inside, left, after, _, hspans, hleave, hwritten, fun blank hspace hline => ?_⟩
  have hdrop : ∀ c, (c == ' ') = true → blank c = true := by
    intro c hc
    rw [beq_iff_eq.mp hc]
    exact hspace
  obtain ⟨count, hglues, hkept⟩ :=
    Text.glues_flatMap_dropWhile hdrop (entered.node.texts.map String.toList) []
  simp only [List.nil_append] at hglues hkept
  rw [← wordsBy_paragraphPieces hline] at hglues
  exact ⟨wordsBy_paragraphPieces hline _, ⟨count, hglues⟩, hglues.eq_iff.trans hkept⟩

/-- A link in the middle of a text, and markup in the middle of a word. -/
def linkedSentence : Node where
  kind := .document
  children := [
    { kind := .paragraph
      children := [
        { kind := .text, literal := "see " },
        { kind := .link, children := [{ kind := .text, literal := "he" }] },
        { kind := .htmlSpan, literal := "<b>" },
        { kind := .text, literal := "re \n" }] }]

/-- What is written of a sentence that links and markup cut into texts are its words. -/
theorem linked_sentence_words :
    ∃ entered inside left earlier after pieces,
      Spans (Renderer.historyWith FrontMatter.load {} linkedSentence) entered inside left earlier ∧
      (visitWith FrontMatter.load {} left.node .leave).runFrom left.before = (.ok .next, after) ∧
      after.written.toList = entered.before.written.toList ++ pieces ∧
      (Text.words (Troff.textOf pieces)) = ["see", "here"] := by
  cases hmade : (Renderer.historyWith FrontMatter.load {} linkedSentence).drop 8 with
  | nil =>
      rw [Renderer.historyWith, historyOf_eq_descend] at hmade
      cases hmade
  | cons entered earlier =>
      have hsuffix : entered :: earlier <:+
          Renderer.historyWith FrontMatter.load {} linkedSentence := by
        rw [← hmade]
        exact List.drop_suffix _ _
      have hfacts : entered.phase = .enter ∧ entered.node.kind = .paragraph ∧
          entered.node.literal = "" ∧
          (∀ target ∈ entered.node.descendants, isRunning target.kind = true) ∧
          entered.node.texts = ["see ", "he", "re \n"] ∧ openOf .table earlier = [] ∧
          openOf .heading earlier = [] := by
        clear hsuffix
        rw [Renderer.historyWith, historyOf_eq_descend] at hmade
        cases hmade
        exact ⟨rfl, rfl, rfl, by decide, rfl, rfl, rfl⟩
      obtain ⟨henter, hkind, hliteral, hrunning, htexts, htable, hheading⟩ := hfacts
      obtain ⟨inside, left, after, pieces, hspans, hleave, hwritten, hwords⟩ :=
        paragraph_words_iff FrontMatter.load {} linkedSentence entered earlier hsuffix henter hkind
          hliteral hrunning htable (by simp [hheading])
      refine ⟨entered, inside, left, earlier, after, pieces, hspans, hleave, hwritten, ?_⟩
      rw [Text.words_eq, (hwords Text.isBlank rfl rfl).1, htexts]
      decide

/-- Two texts with a space between them. -/
def spacedTexts : Node where
  kind := .document
  children := [
    { kind := .paragraph
      children := [{ kind := .text, literal := "a" }, { kind := .text, literal := " b" }] }]

/-- A text stored below a text. -/
def textInText : Node where
  kind := .document
  children := [
    { kind := .paragraph
      children := [
        { kind := .text, literal := "a", children := [{ kind := .text, literal := "b" }] }] }]

/-- A space between two texts is lost, and so is a text below a text. -/
theorem spaced_texts_glued :
    (∃ entered inside left earlier after pieces,
      Spans (Renderer.historyWith FrontMatter.load {} spacedTexts) entered inside left earlier ∧
      entered.node.kind = .paragraph ∧ entered.node.literal = "" ∧
      (∀ target ∈ entered.node.descendants, isRunning target.kind = true) ∧
      openOf .table earlier = [] ∧ openOf .heading earlier = [] ∧
      (visitWith FrontMatter.load {} left.node .leave).runFrom left.before = (.ok .next, after) ∧
      after.written.toList = entered.before.written.toList ++ pieces ∧
      Text.words (Troff.textOf pieces) = ["ab"] ∧
      Text.words (String.join (textsOf entered.node.descendants)) = ["a", "b"]) ∧
    (Renderer.renderWith FrontMatter.load {} textInText).result = .ok () ∧
    Troff.textOf (Renderer.renderWith FrontMatter.load {} textInText).written = "\na\n.SG\n" ∧
    Text.words (String.join (textsOf textInText.descendants)) = ["ab"] := by
  refine ⟨?_, ?_, ?_, by decide⟩
  · cases hmade : (Renderer.historyWith FrontMatter.load {} spacedTexts).drop 4 with
    | nil =>
        rw [Renderer.historyWith, historyOf_eq_descend] at hmade
        cases hmade
    | cons entered earlier =>
        have hsuffix : entered :: earlier <:+
            Renderer.historyWith FrontMatter.load {} spacedTexts := by
          rw [← hmade]
          exact List.drop_suffix _ _
        have hfacts : entered.phase = .enter ∧ entered.node.kind = .paragraph ∧
            entered.node.literal = "" ∧
            (∀ target ∈ entered.node.descendants, isRunning target.kind = true) ∧
            entered.node.texts = ["a", " b"] ∧
            textsOf entered.node.descendants = ["a", " b"] ∧ openOf .table earlier = [] ∧
            openOf .heading earlier = [] := by
          clear hsuffix
          rw [Renderer.historyWith, historyOf_eq_descend] at hmade
          cases hmade
          exact ⟨rfl, rfl, rfl, by decide, rfl, rfl, rfl, rfl⟩
        obtain ⟨henter, hkind, hliteral, hrunning, htexts, hbelow, htable, hheading⟩ := hfacts
        obtain ⟨inside, left, after, hspans, hleave, hwritten⟩ :=
          exists_spans_paragraph hsuffix henter hkind hliteral hrunning htable
            (by simp [hheading])
        refine ⟨entered, inside, left, earlier, after, _, hspans, hkind, hliteral, hrunning, htable,
          hheading, hleave, hwritten, ?_, ?_⟩
        · rw [htexts]
          decide
        · rw [hbelow]
          decide
  · rw [Renderer.renderWith, Renderer.document, walk_eq_descend]
    rfl
  · rw [Renderer.renderWith, Renderer.document, walk_eq_descend]
    decide +kernel

end Render

end Manuscript
