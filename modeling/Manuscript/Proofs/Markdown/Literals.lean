import Manuscript.Proofs.Markdown.Acceptance

/-! # Texts are kept

Building the tree of tokens keeps their texts: read in document order, the literals
of the nodes are those of the tokens that are looked at in a text, whatever they are
wrapped in (`literals_of_read`).
-/

namespace Manuscript

namespace Node

/-- The kind and the literal of a node that holds a literal. -/
def literal? (node : Node) : Option (Kind × String) :=
  match node.kind with
  | .text | .codeSpan | .codeBlock | .htmlBlock | .htmlSpan => some (node.kind, node.literal)
  | _ => none

/-- The literals of a forest, in document order. -/
def literals (nodes : List Node) : List (Kind × String) :=
  (descendantsAll nodes).filterMap literal?

theorem literals_append (first second : List Node) :
    literals (first ++ second) = literals first ++ literals second := by
  rw [literals, descendantsAll_append, List.filterMap_append, literals, literals]

/-- A node without a literal has those of its children. -/
theorem literals_cons {node : Node} (hliteral : node.literal? = none) (rest : List Node) :
    literals (node :: rest) = literals node.children ++ literals rest := by
  rw [literals, descendantsAll, descendants_eq, List.filterMap_cons, List.filterMap_append,
    hliteral, literals, literals]

theorem literals_container {node : Node} (hliteral : node.literal? = none) :
    literals [node] = literals node.children :=
  (literals_cons hliteral []).trans (List.append_nil _)

end Node

namespace Markdown

open Node

/-- The kind and the literal that a token in a text stands for: its raw text, a line feed for a
break, and for a program its text with a line feed at its end. -/
def Token.literal? (token : Token) : Option (Kind × String) :=
  match token.kind with
  | .text => some (.text, token.raw)
  | .softBreak | .hardBreak => some (.text, "\n")
  | .codeSpan => some (.codeSpan, token.raw)
  | .codeBlock =>
    some (.codeBlock,
      if token.raw.toList.getLast? = some '\n' then token.raw else token.raw ++ "\n")
  | .htmlBlock => some (.htmlBlock, token.raw)
  | .htmlSpan => some (.htmlSpan, token.raw)
  | _ => none

/-- The literal that a token stands for at a place. What is taken for a row or a cell, or stands
directly in a list or a table, has none. -/
def Place.literal? : Place → Token → Option (Kind × String)
  | flow, token => token.literal?
  | list, _ | table, _ | row, _ | cell, _ => none

/-- The literals of tokens at their places. -/
def literalsOf (seen : List (Place × Token)) : List (Kind × String) :=
  seen.filterMap fun seen => seen.1.literal? seen.2

/-- The literals of tokens side by side. -/
theorem literalsOf_append (first second : List (Place × Token)) :
    literalsOf (first ++ second) = literalsOf first ++ literalsOf second :=
  List.filterMap_append

theorem literalsOf_cons (place : Place) (token : Token) (seen : List (Place × Token)) :
    literalsOf ((place, token) :: seen) =
      (place.literal? token).toList ++ literalsOf seen := by
  rw [literalsOf, List.filterMap_cons]
  cases hliteral : place.literal? token <;> rfl

/-- A program ends with a line feed, which is added if there is none. -/
theorem program_eq (raw : String) :
    Token.program raw = if raw.toList.getLast? = some '\n' then raw else raw ++ "\n" := by
  simp [Token.program]

mutual

/-- The nodes of a token have the literals of the tokens that are reached from it. -/
theorem literals_nodes : ∀ (token : Token) {nodes : List Node}, token.nodes = .ok nodes →
    literals nodes = literalsOf (token.reached .flow)
  | ⟨kind, raw, level, target, style, children⟩, nodes, hnodes => by
      rw [Token.reached, literalsOf_cons]
      cases kind <;> simp only [Token.nodes] at hnodes
      case blankLine | htmlBlock | thematicBreak | text | softBreak | hardBreak | codeSpan
          | htmlSpan =>
        cases hnodes
        rfl
      case codeBlock =>
        cases hnodes
        rw [program_eq]
        rfl
      case heading | paragraph | itemText | blockQuote | emphasis | strong | link | image =>
        obtain ⟨inner, hinner, heq⟩ := bind_eq_ok.mp hnodes
        cases heq
        exact (literals_container rfl).trans (literals_nodesOf children hinner)
      case list =>
        obtain ⟨items, hitems, heq⟩ := bind_eq_ok.mp hnodes
        cases heq
        exact (literals_container rfl).trans (literals_itemsOf _ children hitems)
      case table =>
        obtain ⟨sections, hsections, heq⟩ := bind_eq_ok.mp hnodes
        cases heq
        exact (literals_container rfl).trans (literals_sectionsOf children hsections)
      case strikethrough => exact literals_nodesOf children hnodes
      case listItem | tableHead | tableBody | other | missing | null => cases hnodes

/-- The nodes of tokens have the literals of the tokens that are reached from them. -/
theorem literals_nodesOf : ∀ (tokens : List Token) {nodes : List Node},
    nodesOf tokens = .ok nodes → literals nodes = literalsOf (reachedAll .flow tokens)
  | [], nodes, hnodes => by
      cases hnodes
      rfl
  | token :: rest, nodes, hnodes => by
      obtain ⟨first, others, rfl, hfirst, hothers⟩ := exists_of_nodesOf_cons hnodes
      rw [reachedAll, literalsOf_append, literals_append, literals_nodes token hfirst,
        literals_nodesOf rest hothers]

/-- Items have the literals of the tokens that are reached in them. -/
theorem literals_itemsOf (style : ListStyle) : ∀ (tokens : List Token) {items : List Node},
    itemsOf style tokens = .ok items → literals items = literalsOf (reachedAll .list tokens)
  | [], items, hitems => by
      cases hitems
      rfl
  | ⟨kind, raw, level, target, own, children⟩ :: rest, items, hitems => by
      obtain ⟨inner, others, rfl, hkind, hinner, hothers⟩ := exists_of_itemsOf_cons hitems
      obtain rfl : kind = .listItem := hkind
      rw [reachedAll, literalsOf_append, Token.reached, literals_cons rfl,
        literals_itemsOf style rest hothers]
      exact congrArg (· ++ _) (literals_nodesOf children hinner)

/-- Parts of tables have the literals of the tokens that are reached in them. -/
theorem literals_sectionsOf : ∀ (tokens : List Token) {sections : List Node},
    sectionsOf tokens = .ok sections →
    literals sections = literalsOf (reachedAll .table tokens)
  | [], sections, hsections => by
      cases hsections
      rfl
  | ⟨kind, raw, level, target, style, children⟩ :: rest, sections, hsections => by
      obtain ⟨part, others, rfl, hpart, hothers⟩ := givesPart_of_sectionsOf hsections
      rw [reachedAll, literalsOf_append, Token.reached, ← literals_sectionsOf rest hothers]
      cases hpart with
      | @head cells hkind hcells =>
          obtain rfl : kind = .tableHead := hkind
          have hrow : literals [tableRow cells] = literals cells := literals_container rfl
          rw [literals_cons rfl]
          exact congrArg (· ++ _) (hrow.trans (literals_cellsOf children hcells))
      | body hkind hrows =>
          obtain rfl : kind = .tableBody := hkind
          rw [literals_cons rfl]
          exact congrArg (· ++ _) (literals_rowsOf children hrows)

/-- Rows have the literals of the tokens that are reached in them. -/
theorem literals_rowsOf : ∀ (tokens : List Token) {rows : List Node}, rowsOf tokens = .ok rows →
    literals rows = literalsOf (reachedAll .row tokens)
  | [], rows, hrows => by
      cases hrows
      rfl
  | ⟨kind, raw, level, target, style, children⟩ :: rest, rows, hrows => by
      obtain ⟨cells, others, rfl, hcells, hothers⟩ := exists_of_rowsOf_cons hrows
      rw [reachedAll, literalsOf_append, Token.reached, literals_cons rfl,
        literals_rowsOf rest hothers]
      exact congrArg (· ++ _) (literals_cellsOf children hcells)

/-- Cells have the literals of the tokens that are reached in them. -/
theorem literals_cellsOf : ∀ (tokens : List Token) {cells : List Node},
    cellsOf tokens = .ok cells → literals cells = literalsOf (reachedAll .cell tokens)
  | [], cells, hcells => by
      cases hcells
      rfl
  | ⟨kind, raw, level, target, style, children⟩ :: rest, cells, hcells => by
      obtain ⟨inner, others, rfl, hinner, hothers⟩ := exists_of_cellsOf_cons hcells
      rw [reachedAll, literalsOf_append, Token.reached, literals_cons rfl,
        literals_cellsOf rest hothers]
      exact congrArg (· ++ _) (literals_nodesOf children hinner)

end

/-- The tree of a document that is read holds, after the heading of its title block, if it has one,
the literals of the tokens that are looked at in a text: the same ones, in the same order. -/
theorem literals_of_read (tokenize : Tokenizer) (options : Options) (source : Source) (root : Node)
    (hroot : (readSourceWith tokenize options source).tree = .ok root) :
    ∃ front nodes, root = .document (front ++ nodes) ∧
      (options.FindsTitleBlock source → ∃ payload, front = [titleBlockHeading payload]) ∧
      (¬ options.FindsTitleBlock source → front = []) ∧
      literals nodes = literalsOf (reachedAll .flow
        (tokenize options.extensions (readSourceWith tokenize options source).content)) := by
  obtain ⟨front, nodes, hdocument, hnodes, hfront⟩ := nodes_of_read hroot
  exact ⟨front, nodes, hdocument, hfront.1, hfront.2, literals_nodesOf _ hnodes⟩

/-- Tokens in which texts are wrapped in every way. A row of the table is a text by its kind, and
an item of the list holds a blank line. -/
def wrappedTokens : List Token := [
  { kind := .list
    children := [
      { kind := .listItem
        children := [
          { kind := .blankLine },
          { kind := .itemText
            children := [
              { kind := .strikethrough, children := [{ kind := .text, raw := "a" }] },
              { kind := .softBreak },
              { kind := .image, children := [{ kind := .codeSpan, raw := "b" }] }] }] }] },
  { kind := .table
    children := [
      { kind := .tableHead, children := [{ kind := .null, children := [
        { kind := .htmlSpan, raw := "<c>" }] }] },
      { kind := .tableBody, children := [{ kind := .text, raw := "row", children := [
        { kind := .missing, children := [{ kind := .text, raw := "d" }] }] }] }] },
  { kind := .codeBlock, raw := "e" }]

/-- Literals in items, cells and images stand in the tree in their order. -/
theorem literals_of_wrapped :
    ∃ root, (readSourceWith (fun _ _ => wrappedTokens) {} (.text "% title: T")).tree = .ok root ∧
      ∃ payload nodes, root = .document (titleBlockHeading payload :: nodes) ∧
        literals nodes = [(.text, "a"), (.text, "\n"), (.codeSpan, "b"), (.htmlSpan, "<c>"),
          (.text, "d"), (.codeBlock, "e\n")] := by
  obtain ⟨root, hroot⟩ : ∃ root,
      (readSourceWith (fun _ _ => wrappedTokens) {} (.text "% title: T")).tree = .ok root :=
    ⟨_, rfl⟩
  obtain ⟨front, nodes, hdocument, hfound, -, hliterals⟩ :=
    literals_of_read (fun _ _ => wrappedTokens) {} (.text "% title: T") root hroot
  obtain ⟨payload, rfl⟩ := hfound ⟨rfl, rfl⟩
  exact ⟨root, hroot, payload, nodes, hdocument, hliterals.trans rfl⟩

end Markdown

end Manuscript
