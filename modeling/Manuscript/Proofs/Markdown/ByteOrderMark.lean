import Manuscript.Markdown.Tokens
import Manuscript.Proofs.Markdown.WellFormed

/-! # Texts that start with a byte order mark

Bytes that start with the mark of UTF-8 are read as a text that starts with the
character of the mark. It is handed on with the text, and no title block is found
after it. Which tokenizers and texts give the same tree with and without the mark
is told by the nodes of their tokens and by the title block (`tree_of_marked_iff`).
-/

namespace Manuscript.Markdown

open Node

/-- The bytes that mark a text as encoded in UTF-8. -/
def byteOrderMark : ByteArray := ⟨#[0xef, 0xbb, 0xbf]⟩

/-- The character that these bytes encode, as a text. -/
def markText : String := "\ufeff"

/-! ## What the bytes are read as -/

theorem byteOrderMark_append (s : String) :
    byteOrderMark ++ s.toUTF8 = (markText ++ s).toUTF8 := by
  have hmark : byteOrderMark = markText.toUTF8 := by decide
  rw [hmark]
  exact (String.toByteArray_append).symm

/-- The encoding of a text is decoded to that text, without a report. -/
theorem Source.decode_toUTF8 (s : String) : (Source.bytes s.toUTF8).decode = (s, []) := by
  rw [decode, Text.decode_toUTF8]
  rfl

/-- The bytes of a text are read as the text itself. -/
theorem readSourceWith_toUTF8 (tokenize : Tokenizer) (options : Options) (s : String) :
    readSourceWith tokenize options (.bytes s.toUTF8) = readWith tokenize options s := by
  rw [readSourceWith, Source.decode_toUTF8]
  rfl

/-- A text after a byte order mark does not start with the mark of a title. -/
theorem head?_markText_append (s : String) :
    (markText ++ s).toList.head? ≠ some titleMark := by
  have hfirst : (markText ++ s).toList.head? = some '\ufeff' := by
    rw [String.toList_append]
    rfl
  rw [hfirst]
  decide

/-- No title block is looked for after the mark of the encoding. -/
theorem readWith_marked (tokenize : Tokenizer) (options : Options) (s : String) :
    readWith tokenize options (markText ++ s) =
      readWith tokenize { options with titleBlock := false } (markText ++ s) := by
  have hsplit := splitTitleBlock_of_unmarked (head?_markText_append s)
  simp only [readWith, hsplit, ite_self, Bool.false_eq_true]
  rfl

/-! ## Trees with and without the mark -/

/-- Nodes of tokens are no title block. -/
theorem nodesOf_ne_titleBlock {tokens : List Token} {nodes : List Node} {payload : String}
    (hnodes : nodesOf tokens = .ok nodes) (rest : List Node) :
    nodes ≠ titleBlockHeading payload :: rest := by
  rintro rfl
  have hgrown := grown_nodesOf _ hnodes
  have hplain := (hgrown.sound (titleBlockHeading payload) List.mem_cons_self).2
  cases hplain

/-- Documents without a title block are the same exactly if their nodes are, and none of them is a
document with a title block. -/
theorem map_document_eq_iff {plain marked : List Token} {front : List Node}
    (hfront : front = [] ∨ ∃ payload, front = [titleBlockHeading payload]) :
    (nodesOf marked).map document = (nodesOf plain).map (document <| front ++ ·) ↔
      nodesOf marked = nodesOf plain ∧
        (front ≠ [] → ∃ error, (nodesOf plain).map (document <| front ++ ·) = .error error) := by
  cases hmarked : nodesOf marked with
  | error e => cases hplain : nodesOf plain <;> simp [Except.map]
  | ok nodes =>
      cases hplain : nodesOf plain with
      | error e => simp [Except.map]
      | ok others =>
          obtain rfl | ⟨payload, rfl⟩ := hfront
          · simp [Except.map, document]
          · have hne : nodes ≠ titleBlockHeading payload :: others :=
              nodesOf_ne_titleBlock hmarked others
            simp [Except.map, document, hne]

/-- The mark of the encoding is part of the text that is cut into tokens, and no title block is
found after it. The tree is the tree without the mark exactly if the tokens have the same nodes and
no title block is lost with the mark. -/
theorem tree_of_marked_iff (tokenize : Tokenizer) (options : Options) (s : String) :
    let plain := readSourceWith tokenize options (.bytes s.toUTF8)
    let marked := readSourceWith tokenize options (.bytes (byteOrderMark ++ s.toUTF8))
    marked = readWith tokenize { options with titleBlock := false } (markText ++ s) ∧
      (marked.tree = plain.tree ↔
        nodesOf (tokenize options.extensions (markText ++ s)) =
            nodesOf (tokenize options.extensions plain.content) ∧
          (options.FindsTitleBlock (.bytes s.toUTF8) → ∃ error, plain.tree = .error error)) := by
  intro plain marked
  have hmarked : marked =
      readWith tokenize { options with titleBlock := false } (markText ++ s) := by
    rw [← readWith_marked, ← readSourceWith_toUTF8, ← byteOrderMark_append]
  have htree : marked.tree =
      (nodesOf (tokenize options.extensions (markText ++ s))).map document := by
    rw [hmarked]
    rfl
  obtain ⟨front, hplain, hfound, hnot⟩ :=
    tree_of_read tokenize options (.bytes s.toUTF8)
  refine ⟨hmarked, ?_⟩
  rw [htree, hplain]
  by_cases hfinds : options.FindsTitleBlock (.bytes s.toUTF8)
  · obtain ⟨payload, rfl⟩ := hfound hfinds
    rw [map_document_eq_iff (.inr ⟨payload, rfl⟩)]
    exact and_congr_right fun _ =>
      ⟨fun hfails _ => hfails (List.cons_ne_nil _ _), fun hfails _ => hfails hfinds⟩
  · cases hnot hfinds
    rw [map_document_eq_iff (.inl rfl)]
    exact and_congr_right fun _ =>
      ⟨fun _ hfound => (hfinds hfound).elim, fun _ hfront => (hfront rfl).elim⟩

/-- A title line after a byte order mark is read as a paragraph. -/
theorem read_marked_title :
    (read {} (.bytes (byteOrderMark ++ "% T\n".toUTF8))).tree =
      .ok (document [paragraph [text "\ufeff% T"]]) := by
  have happend : markText ++ "% T\n" = "\ufeff% T\n" := rfl
  rw [byteOrderMark_append, read, readSourceWith_toUTF8, happend]
  rfl

/-- The title block of a text is lost, and becomes a paragraph, when the encoding is marked. -/
theorem marked_title_lost :
    (read {} (.bytes "% T\n".toUTF8)).tree =
        .ok (document [titleBlockHeading "T"]) ∧
      (read {} (.bytes (byteOrderMark ++ "% T\n".toUTF8))).tree =
        .ok (document [paragraph [text "\ufeff% T"]]) ∧
      (read {} (.bytes (byteOrderMark ++ "% T\n".toUTF8))).tree ≠
        (read {} (.bytes "% T\n".toUTF8)).tree := by
  have hplain : (read {} (.bytes "% T\n".toUTF8)).tree =
      .ok (document [titleBlockHeading "T"]) := rfl
  refine ⟨hplain, read_marked_title, ?_⟩
  rw [hplain, read_marked_title]
  intro heq
  cases heq

end Manuscript.Markdown
