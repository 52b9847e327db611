import Manuscript.Proofs.Document.Reach
import Manuscript.Proofs.Markdown.TitleBlock

/-! # The trees of tokens are well formed

Whatever the tokens are, the nodes that they give stand where they belong: items
in lists, the parts of a table in their order, and nothing below leaves.
-/

namespace Manuscript

/-- A kind of nodes that only stand in a collection of their own. -/
def Kind.isPart : Kind → Bool
  | listItem | tableHead | tableBody | tableRow | tableCell => true
  | _ => false

/-- A kind of nodes that only hold parts. -/
def Kind.isCollection : Kind → Bool
  | list | table | tableHead | tableBody | tableRow => true
  | _ => false

/-- Whether a node of one kind may have a child of another. -/
def Kind.admits : Kind → Kind → Bool
  | list, child => child == listItem
  | table, child => child == tableHead || child == tableBody
  | tableHead, child | tableBody, child => child == tableRow
  | tableRow, child => child == tableCell
  | parent, child => !parent.isLeaf && !child.isPart

theorem Kind.not_isPart_of_isLeaf {kind : Kind} (hleaf : kind.isLeaf = true) :
    kind.isPart = false := by
  cases kind <;> first | rfl | cases hleaf

theorem Kind.admits_of_flow {parent child : Kind} (hleaf : parent.isLeaf = false)
    (hcollection : parent.isCollection = false) (hpart : child.isPart = false) :
    parent.admits child = true := by
  cases parent <;> simp_all [admits, isCollection]

/-- Every part has its own collection. -/
theorem Kind.parts_of_admits {parent child : Kind} (hadmits : parent.admits child = true) :
    (child = .listItem ↔ parent = .list) ∧
      (child = .tableHead ∨ child = .tableBody ↔ parent = .table) ∧
      (child = .tableRow ↔ parent = .tableHead ∨ parent = .tableBody) ∧
      (child = .tableCell ↔ parent = .tableRow) := by
  unfold admits at hadmits
  split at hadmits
  next => simp_all
  next =>
    rcases Bool.or_eq_true_iff.mp hadmits with hchild | hchild <;> simp_all
  next => simp_all
  next => simp_all
  next => simp_all
  next =>
    have hpart : child.isPart = false := by simp_all
    cases child <;> simp_all [isPart]

theorem Kind.isLeaf_of_admits {parent child : Kind} (hadmits : parent.admits child = true) :
    parent.isLeaf = false := by
  cases parent <;> first | rfl | cases hadmits

namespace Node

/-- What a reader vouches for at a node. -/
structure Sound (node : Node) : Prop where
  admits : ∀ child ∈ node.children, node.kind.admits child.kind = true
  style : node.kind = .list →
    node.listStyle.isSome ∧ ∀ child ∈ node.children, child.listStyle = node.listStyle
  head : node.kind = .tableHead → ∃ row, node.children = [row]
  program : node.kind = .codeBlock → node.literal.toList.getLast? = some '\n'
  lineBreak : node.kind ≠ .lineBreak
  known : ∀ name, node.kind ≠ .other name

/-- All nodes of some trees are sound, and none is marked as a title block. -/
def AllSound (nodes : List Node) : Prop :=
  ∀ node ∈ descendantsAll nodes, node.Sound ∧ node.isTitleBlock = false

section

variable {node : Node} {nodes first second : List Node}

theorem AllSound.nil : AllSound [] := by
  intro node hmem
  cases hmem

/-- Sound trees whose roots are as told. -/
structure Grown (top : Node → Prop) (nodes : List Node) : Prop where
  top : ∀ node ∈ nodes, top node
  sound : AllSound nodes

variable {top : Node → Prop}

theorem Grown.nil : Grown top [] := ⟨by simp, .nil⟩

theorem Grown.cons (htop : top node) (hnode : node.Sound) (hunmarked : node.isTitleBlock = false)
    (hbelow : AllSound node.children) (hnodes : Grown top nodes) : Grown top (node :: nodes) := by
  refine ⟨List.forall_mem_cons.mpr ⟨htop, hnodes.top⟩, ?_⟩
  intro other hmem
  rw [descendantsAll, descendants_eq, List.mem_cons, List.mem_append] at hmem
  rcases hmem with rfl | hmem | hmem
  · exact ⟨hnode, hunmarked⟩
  · exact hbelow other hmem
  · exact hnodes.sound other hmem

theorem Grown.append (hfirst : Grown top first) (hsecond : Grown top second) :
    Grown top (first ++ second) := by
  refine ⟨List.forall_mem_append.mpr ⟨hfirst.top, hsecond.top⟩, ?_⟩
  intro node hmem
  rw [descendantsAll_append] at hmem
  rcases List.mem_append.mp hmem with hmem | hmem
  · exact hfirst.sound node hmem
  · exact hsecond.sound node hmem

/-- A leaf holds nothing. -/
theorem sound_leaf (hleaf : node.kind.isLeaf = true) (hchildren : node.children = [])
    (hprogram : node.kind = .codeBlock → node.literal.toList.getLast? = some '\n')
    (hbreak : node.kind ≠ .lineBreak) : node.Sound where
  admits := by simp [hchildren]
  style hkind := by simp [hkind, Kind.isLeaf] at hleaf
  head hkind := by simp [hkind, Kind.isLeaf] at hleaf
  program := hprogram
  lineBreak := hbreak
  known name hkind := by simp [hkind, Kind.isLeaf] at hleaf

/-- A container that is no collection holds nodes that are no parts. -/
theorem sound_flow (hleaf : node.kind.isLeaf = false) (hcollection : node.kind.isCollection = false)
    (hknown : ∀ name, node.kind ≠ .other name)
    (hchildren : ∀ child ∈ node.children, child.kind.isPart = false) : node.Sound where
  admits child hmem := Kind.admits_of_flow hleaf hcollection (hchildren child hmem)
  style hkind := by simp [hkind, Kind.isCollection] at hcollection
  head hkind := by simp [hkind, Kind.isCollection] at hcollection
  program hkind := by simp [hkind, Kind.isLeaf] at hleaf
  lineBreak hkind := by simp [hkind, Kind.isLeaf] at hleaf
  known := hknown

theorem sound_list {style : ListStyle} {items : List Node}
    (hitems : ∀ item ∈ items, item.kind = .listItem ∧ item.listStyle = some style) :
    Sound { kind := .list, listStyle := some style, children := items } where
  admits item hmem := by simp [Kind.admits, (hitems item hmem).1]
  style _ := ⟨rfl, fun item hmem => (hitems item hmem).2⟩
  head := nofun
  program := nofun
  lineBreak := nofun
  known := nofun

theorem sound_table {sections : List Node}
    (hsections : ∀ part ∈ sections, part.kind = .tableHead ∨ part.kind = .tableBody) :
    Sound { kind := .table, children := sections } where
  admits part hmem := by simpa [Kind.admits] using hsections part hmem
  style := nofun
  head := nofun
  program := nofun
  lineBreak := nofun
  known := nofun

theorem sound_head {row : Node} (hrow : row.kind = .tableRow) : (tableHead [row]).Sound where
  admits := by simp [tableHead, Kind.admits, hrow]
  style := nofun
  head _ := ⟨row, rfl⟩
  program := nofun
  lineBreak := nofun
  known := nofun

theorem sound_body {rows : List Node} (hrows : ∀ row ∈ rows, row.kind = .tableRow) :
    (tableBody rows).Sound where
  admits row hmem := by simp [tableBody, Kind.admits, hrows row hmem]
  style := nofun
  head := nofun
  program := nofun
  lineBreak := nofun
  known := nofun

theorem sound_row {cells : List Node} (hcells : ∀ cell ∈ cells, cell.kind = .tableCell) :
    (tableRow cells).Sound where
  admits cell hmem := by simp [tableRow, Kind.admits, hcells cell hmem]
  style := nofun
  head := nofun
  program := nofun
  lineBreak := nofun
  known := nofun

end

end Node

namespace Markdown

open Node

theorem bind_eq_ok {α β : Type} {first : Except TreeError α} {next : α → Except TreeError β}
    {b : β} : (first >>= next) = .ok b ↔ ∃ a, first = .ok a ∧ next a = .ok b := by
  cases first <;> simp [bind, Except.bind]

/-- What a token gives: nothing, a leaf, a container of what its parts give, a list, a table, or
what its parts give. -/
inductive Token.Gives (token : Token) : List Node → Prop
  | nothing : Gives token []
  | leaf {node : Node} (hleaf : node.kind.isLeaf = true) (hbreak : node.kind ≠ .lineBreak)
      (hprogram : node.kind = .codeBlock → node.literal.toList.getLast? = some '\n')
      (hchildren : node.children = []) (hunmarked : node.isTitleBlock = false) :
      Gives token [node]
  | container {node : Node} (hleaf : node.kind.isLeaf = false) (hpart : node.kind.isPart = false)
      (hcollection : node.kind.isCollection = false) (hknown : ∀ name, node.kind ≠ .other name)
      (hunmarked : node.isTitleBlock = false)
      (hinner : nodesOf token.children = .ok node.children) : Gives token [node]
  | list {items} (hitems : itemsOf token.listStyle token.children = .ok items) :
      Gives token [{ kind := .list, listStyle := some token.listStyle, children := items }]
  | table {sections} (hsections : sectionsOf token.children = .ok sections) :
      Gives token [{ kind := .table, children := sections }]
  | splice {nodes} (hnodes : nodesOf token.children = .ok nodes) : Gives token nodes

/-- A program ends its last line. -/
theorem getLast?_program (raw : String) : (Token.program raw).toList.getLast? = some '\n' := by
  unfold Token.program
  split
  next hend => simpa using hend
  next => simp

/-- A token that is accepted gives nodes of one of these forms. -/
theorem Token.gives {token : Token} {nodes : List Node} (hnodes : token.nodes = .ok nodes) :
    Gives token nodes := by
  obtain ⟨kind, raw, level, target, style, children⟩ := token
  cases kind <;> simp only [Token.nodes] at hnodes
  case blankLine =>
    cases hnodes
    exact .nothing
  case htmlBlock | thematicBreak | text | softBreak | hardBreak | codeSpan | htmlSpan =>
    cases hnodes
    exact .leaf rfl nofun nofun rfl rfl
  case codeBlock =>
    cases hnodes
    exact .leaf rfl nofun (fun _ => getLast?_program raw) rfl rfl
  case heading | paragraph | itemText | blockQuote | emphasis | strong | link | image =>
    obtain ⟨inner, hinner, heq⟩ := bind_eq_ok.mp hnodes
    cases heq
    exact .container rfl rfl rfl nofun rfl hinner
  case list =>
    obtain ⟨items, hitems, heq⟩ := bind_eq_ok.mp hnodes
    cases heq
    exact .list hitems
  case table =>
    obtain ⟨sections, hsections, heq⟩ := bind_eq_ok.mp hnodes
    cases heq
    exact .table hsections
  case strikethrough => exact .splice hnodes
  case listItem | tableHead | tableBody | other | missing | null => cases hnodes

/-- The nodes of tokens are those of the first, followed by those of the rest. -/
theorem exists_of_nodesOf_cons {token : Token} {rest : List Token} {nodes : List Node}
    (hnodes : nodesOf (token :: rest) = .ok nodes) :
    ∃ first others, nodes = first ++ others ∧ token.nodes = .ok first ∧
      nodesOf rest = .ok others := by
  rw [nodesOf] at hnodes
  obtain ⟨first, hfirst, hnodes⟩ := bind_eq_ok.mp hnodes
  obtain ⟨others, hothers, heq⟩ := bind_eq_ok.mp hnodes
  cases heq
  exact ⟨first, others, rfl, hfirst, hothers⟩

/-- Every token of a list gives an item with the style of the list. -/
theorem exists_of_itemsOf_cons {style : ListStyle} {token : Token} {rest : List Token}
    {items : List Node} (hitems : itemsOf style (token :: rest) = .ok items) :
    ∃ inner others,
      items = { kind := .listItem, listStyle := some style, children := inner } :: others ∧
      token.kind = .listItem ∧ nodesOf token.children = .ok inner ∧
      itemsOf style rest = .ok others := by
  obtain ⟨kind, raw, level, target, own, children⟩ := token
  rw [itemsOf] at hitems
  split at hitems
  next => cases hitems
  next hkind =>
    obtain ⟨inner, hinner, hitems⟩ := bind_eq_ok.mp hitems
    obtain ⟨others, hothers, heq⟩ := bind_eq_ok.mp hitems
    cases heq
    exact ⟨inner, others, rfl, by simpa using hkind, hinner, hothers⟩

/-- The part of a table that a token gives: a head with one row, or a body. -/
inductive Token.GivesPart (token : Token) : Node → Prop
  | head {cells} (hkind : token.kind = .tableHead) (hcells : cellsOf token.children = .ok cells) :
      GivesPart token (tableHead [tableRow cells])
  | body {rows} (hkind : token.kind = .tableBody) (hrows : rowsOf token.children = .ok rows) :
      GivesPart token (tableBody rows)

/-- Every token of a table gives a part of it. -/
theorem givesPart_of_sectionsOf {token : Token} {rest : List Token} {sections : List Node}
    (hsections : sectionsOf (token :: rest) = .ok sections) :
    ∃ part others, sections = part :: others ∧ token.GivesPart part ∧
      sectionsOf rest = .ok others := by
  obtain ⟨kind, raw, level, target, style, children⟩ := token
  cases kind <;> simp only [sectionsOf, map_eq_pure_bind, bind_assoc, pure_bind] at hsections
  case tableHead =>
    obtain ⟨cells, hcells, hsections⟩ := bind_eq_ok.mp hsections
    obtain ⟨others, hothers, heq⟩ := bind_eq_ok.mp hsections
    cases heq
    exact ⟨_, others, rfl, .head rfl hcells, hothers⟩
  case tableBody =>
    obtain ⟨rows, hrows, hsections⟩ := bind_eq_ok.mp hsections
    obtain ⟨others, hothers, heq⟩ := bind_eq_ok.mp hsections
    cases heq
    exact ⟨_, others, rfl, .body rfl hrows, hothers⟩
  all_goals
    obtain ⟨part, hpart, -⟩ := bind_eq_ok.mp hsections
    cases hpart

/-- Every token of a part of a table gives a row. -/
theorem exists_of_rowsOf_cons {token : Token} {rest : List Token} {rows : List Node}
    (hrows : rowsOf (token :: rest) = .ok rows) :
    ∃ cells others, rows = tableRow cells :: others ∧ cellsOf token.children = .ok cells ∧
      rowsOf rest = .ok others := by
  obtain ⟨kind, raw, level, target, style, children⟩ := token
  rw [rowsOf] at hrows
  obtain ⟨cells, hcells, hrows⟩ := bind_eq_ok.mp hrows
  obtain ⟨others, hothers, heq⟩ := bind_eq_ok.mp hrows
  cases heq
  exact ⟨cells, others, rfl, hcells, hothers⟩

/-- Every token of a row gives a cell. -/
theorem exists_of_cellsOf_cons {token : Token} {rest : List Token} {cells : List Node}
    (hcells : cellsOf (token :: rest) = .ok cells) :
    ∃ inner others, cells = tableCell inner :: others ∧ nodesOf token.children = .ok inner ∧
      cellsOf rest = .ok others := by
  obtain ⟨kind, raw, level, target, style, children⟩ := token
  rw [cellsOf] at hcells
  obtain ⟨inner, hinner, hcells⟩ := bind_eq_ok.mp hcells
  obtain ⟨others, hothers, heq⟩ := bind_eq_ok.mp hcells
  cases heq
  exact ⟨inner, others, rfl, hinner, hothers⟩

mutual

/-- The nodes of a token are well formed, and no parts of lists or tables. -/
theorem grown_nodes : ∀ (token : Token) {nodes : List Node}, token.nodes = .ok nodes →
    Grown (·.kind.isPart = false) nodes
  | ⟨kind, raw, level, target, style, children⟩, nodes, hnodes => by
      cases Token.gives hnodes with
      | nothing => exact .nil
      | leaf hleaf hbreak hprogram hchildren hunmarked =>
          refine .cons ?_ (sound_leaf hleaf hchildren hprogram hbreak) hunmarked ?_ .nil
          · exact Kind.not_isPart_of_isLeaf hleaf
          · rw [hchildren]
            exact AllSound.nil
      | container hleaf hpart hcollection hknown hunmarked hinner =>
          have hgrown := grown_nodesOf children hinner
          refine .cons hpart ?_ hunmarked hgrown.sound .nil
          exact sound_flow hleaf hcollection hknown hgrown.top
      | list hitems =>
          have hgrown := grown_itemsOf _ children hitems
          exact .cons rfl (sound_list hgrown.top) rfl hgrown.sound .nil
      | table hsections =>
          have hgrown := grown_sectionsOf children hsections
          exact .cons rfl (sound_table hgrown.top) rfl hgrown.sound .nil
      | splice hnodes => exact grown_nodesOf children hnodes

/-- The nodes of tokens are well formed, and no parts of lists or tables. -/
theorem grown_nodesOf : ∀ (tokens : List Token) {nodes : List Node}, nodesOf tokens = .ok nodes →
    Grown (·.kind.isPart = false) nodes
  | [], nodes, hnodes => by
      cases hnodes
      exact .nil
  | token :: rest, nodes, hnodes => by
      obtain ⟨first, others, rfl, hfirst, hothers⟩ := exists_of_nodesOf_cons hnodes
      exact (grown_nodes token hfirst).append (grown_nodesOf rest hothers)

/-- The children of a list are well formed items with the style of the list. -/
theorem grown_itemsOf (style : ListStyle) : ∀ (tokens : List Token) {items : List Node},
    itemsOf style tokens = .ok items →
    Grown (fun item => item.kind = .listItem ∧ item.listStyle = some style) items
  | [], items, hitems => by
      cases hitems
      exact .nil
  | ⟨kind, raw, level, target, own, children⟩ :: rest, items, hitems => by
      obtain ⟨inner, others, rfl, -, hinner, hothers⟩ := exists_of_itemsOf_cons hitems
      have hgrown := grown_nodesOf children hinner
      refine .cons ⟨rfl, rfl⟩ (sound_flow rfl rfl nofun hgrown.top) rfl hgrown.sound ?_
      exact grown_itemsOf style rest hothers

/-- The children of a table are well formed heads and bodies. -/
theorem grown_sectionsOf : ∀ (tokens : List Token) {sections : List Node},
    sectionsOf tokens = .ok sections →
    Grown (fun part => part.kind = .tableHead ∨ part.kind = .tableBody) sections
  | [], sections, hsections => by
      cases hsections
      exact .nil
  | ⟨kind, raw, level, target, style, children⟩ :: rest, sections, hsections => by
      obtain ⟨part, others, rfl, hpart, hothers⟩ := givesPart_of_sectionsOf hsections
      have hrest := grown_sectionsOf rest hothers
      cases hpart with
      | head _ hcells =>
          have hgrown := grown_cellsOf children hcells
          have hrow : Grown (·.kind = .tableRow) [tableRow _] :=
            .cons rfl (sound_row hgrown.top) rfl hgrown.sound .nil
          exact .cons (.inl rfl) (sound_head rfl) rfl hrow.sound hrest
      | body _ hrows =>
          have hgrown := grown_rowsOf children hrows
          exact .cons (.inr rfl) (sound_body hgrown.top) rfl hgrown.sound hrest

/-- The children of a part of a table are well formed rows. -/
theorem grown_rowsOf : ∀ (tokens : List Token) {rows : List Node}, rowsOf tokens = .ok rows →
    Grown (·.kind = .tableRow) rows
  | [], rows, hrows => by
      cases hrows
      exact .nil
  | ⟨kind, raw, level, target, style, children⟩ :: rest, rows, hrows => by
      obtain ⟨cells, others, rfl, hcells, hothers⟩ := exists_of_rowsOf_cons hrows
      have hgrown := grown_cellsOf children hcells
      exact .cons rfl (sound_row hgrown.top) rfl hgrown.sound (grown_rowsOf rest hothers)

/-- The children of a row are well formed cells. -/
theorem grown_cellsOf : ∀ (tokens : List Token) {cells : List Node}, cellsOf tokens = .ok cells →
    Grown (·.kind = .tableCell) cells
  | [], cells, hcells => by
      cases hcells
      exact .nil
  | ⟨kind, raw, level, target, style, children⟩ :: rest, cells, hcells => by
      obtain ⟨inner, others, rfl, hinner, hothers⟩ := exists_of_cellsOf_cons hcells
      have hgrown := grown_nodesOf children hinner
      refine .cons rfl (sound_flow rfl rfl nofun hgrown.top) rfl hgrown.sound ?_
      exact grown_cellsOf rest hothers

end

end Markdown

/-! ## Trees that are read -/

namespace Node

/-- A head of a table holds one row, and a body holds rows. -/
def IsSection (part : Node) : Prop :=
  (part.kind = .tableHead ∧ ∃ row, part.children = [row] ∧ row.kind = .tableRow) ∨
    (part.kind = .tableBody ∧ ∀ row ∈ part.children, row.kind = .tableRow)

/-- All nodes of a document stand where they belong. -/
structure WellFormed (root : Node) : Prop where
  document : root.kind = .document
  item : ∀ parent ∈ root :: root.descendants, ∀ child ∈ parent.children,
    (child.kind = .listItem ↔ parent.kind = .list)
  style : ∀ list ∈ root :: root.descendants, list.kind = .list →
    ∃ style, list.listStyle = some style ∧ ∀ item ∈ list.children, item.listStyle = some style
  sections : ∀ table ∈ root :: root.descendants, table.kind = .table →
    ∀ part ∈ table.children, part.IsSection
  part : ∀ parent ∈ root :: root.descendants, ∀ child ∈ parent.children,
    (child.kind = .tableHead ∨ child.kind = .tableBody ↔ parent.kind = .table)
  row : ∀ parent ∈ root :: root.descendants, ∀ child ∈ parent.children,
    (child.kind = .tableRow ↔ parent.kind = .tableHead ∨ parent.kind = .tableBody)
  cell : ∀ parent ∈ root :: root.descendants, ∀ child ∈ parent.children,
    (child.kind = .tableCell ↔ parent.kind = .tableRow)
  leaf : ∀ node ∈ root :: root.descendants, node.kind.isLeaf = true → node.children = []
  program : ∀ node ∈ root :: root.descendants, node.kind = .codeBlock →
    node.literal.toList.getLast? = some '\n'
  lineBreak : ∀ node ∈ root :: root.descendants, node.kind ≠ .lineBreak
  known : ∀ node ∈ root :: root.descendants, ∀ name, node.kind ≠ .other name

theorem exists_of_mem_descendantsAll {nodes : List Node} {target : Node}
    (hmem : target ∈ descendantsAll nodes) :
    ∃ node ∈ nodes, target ∈ node :: node.descendants := by
  induction nodes with
  | nil => cases hmem
  | cons first rest ih =>
      rw [descendantsAll, ← List.cons_append, List.mem_append] at hmem
      rcases hmem with hfirst | hrest
      · exact ⟨first, List.mem_cons_self, hfirst⟩
      · obtain ⟨node, hnode, htarget⟩ := ih hrest
        exact ⟨node, List.mem_cons_of_mem _ hnode, htarget⟩

/-- A child of a node of a tree is below its root. -/
theorem mem_descendants_of_child {root parent child : Node}
    (hparent : parent ∈ root :: root.descendants) (hchild : child ∈ parent.children) :
    child ∈ root.descendants := by
  induction root using Node.induction with
  | step root ih =>
      rcases List.mem_cons.mp hparent with rfl | hbelow
      · exact descendants_subset hchild List.mem_cons_self
      · rw [descendants_eq] at hbelow
        obtain ⟨node, hnode, hmem⟩ := exists_of_mem_descendantsAll hbelow
        exact descendants_subset hnode (List.mem_cons_of_mem _ (ih node hnode hmem))

/-- A document of sound nodes is well formed. -/
theorem wellFormed_of_sound {root : Node} (hroot : root.kind = .document)
    (hsound : ∀ node ∈ root :: root.descendants, node.Sound) : WellFormed root := by
  have hparts {parent child : Node} (hparent : parent ∈ root :: root.descendants)
      (hchild : child ∈ parent.children) :=
    Kind.parts_of_admits ((hsound parent hparent).admits child hchild)
  refine ⟨hroot, ?_, ?_, ?_, ?_, ?_, ?_, ?_, ?_, ?_, ?_⟩
  · exact fun parent hparent child hchild => (hparts hparent hchild).1
  · intro list hlist hkind
    obtain ⟨hsome, hitems⟩ := (hsound list hlist).style hkind
    obtain ⟨style, hstyle⟩ := Option.isSome_iff_exists.mp hsome
    exact ⟨style, hstyle, fun item hitem => (hitems item hitem).trans hstyle⟩
  · intro table htable hkind part hpart
    have hmem : part ∈ root :: root.descendants :=
      List.mem_cons_of_mem _ (mem_descendants_of_child htable hpart)
    have hrows {row : Node} (hrow : row ∈ part.children) := (hparts hmem hrow).2.2.1
    -- A table admits heads and bodies alone, and what a head or a body admits is rows.
    rcases (hparts htable hpart).2.1.mpr hkind with hhead | hbody
    · obtain ⟨row, hchildren⟩ := (hsound part hmem).head hhead
      refine .inl ⟨hhead, row, hchildren, (hrows ?_).mpr (.inl hhead)⟩
      rw [hchildren]
      exact List.mem_cons_self
    · exact .inr ⟨hbody, fun row hrow => (hrows hrow).mpr (.inr hbody)⟩
  · exact fun parent hparent child hchild => (hparts hparent hchild).2.1
  · exact fun parent hparent child hchild => (hparts hparent hchild).2.2.1
  · exact fun parent hparent child hchild => (hparts hparent hchild).2.2.2
  · intro node hnode hleaf
    rw [List.eq_nil_iff_forall_not_mem]
    intro child hchild
    have hcontainer := Kind.isLeaf_of_admits ((hsound node hnode).admits child hchild)
    rw [hleaf] at hcontainer
    cases hcontainer
  · exact fun node hnode => (hsound node hnode).program
  · exact fun node hnode => (hsound node hnode).lineBreak
  · exact fun node hnode => (hsound node hnode).known

end Node

namespace Markdown

open Node

/-- Title blocks are looked for, and the text of a source starts with one. -/
def Options.FindsTitleBlock (options : Options) (source : Source) : Prop :=
  options.titleBlock = true ∧ source.decode.1.toList.head? = some titleMark

/-- The tree of what is read holds the heading of the title block, if there is one, and the nodes of
the tokens after it. -/
theorem tree_of_read (tokenize : Tokenizer) (options : Options) (source : Source) :
    ∃ front,
      (readSourceWith tokenize options source).tree =
        (nodesOf (tokenize options.extensions
          (readSourceWith tokenize options source).content)).map (document <| front ++ ·) ∧
      (options.FindsTitleBlock source → ∃ payload, front = [titleBlockHeading payload]) ∧
      (¬ options.FindsTitleBlock source → front = []) := by
  obtain ⟨split, hsplit⟩ : ∃ split, split =
      if options.titleBlock then splitTitleBlock source.decode.1 else (none, source.decode.1) :=
    ⟨_, rfl⟩
  have hfinds : split.1.isSome ↔ options.FindsTitleBlock source := by
    rw [hsplit, Options.FindsTitleBlock, ← splitTitleBlock_isSome]
    split <;> simp_all
  simp only [readSourceWith, readWith, ← hsplit]
  refine ⟨_, rfl, fun hmarked => ?_, fun hunmarked => ?_⟩
  · obtain ⟨payload, hpayload⟩ := Option.isSome_iff_exists.mp (hfinds.mpr hmarked)
    exact ⟨payload, by simp [hpayload]⟩
  · rw [← hfinds] at hunmarked
    simp [Option.not_isSome_iff_eq_none.mp hunmarked]

/-- A document that is read holds the heading of its title block, if it has one, and the nodes of
its tokens after it. -/
theorem nodes_of_read {tokenize : Tokenizer} {options : Options} {source : Source} {root : Node}
    (hroot : (readSourceWith tokenize options source).tree = .ok root) :
    ∃ front nodes, root = .document (front ++ nodes) ∧
      nodesOf (tokenize options.extensions (readSourceWith tokenize options source).content) =
        .ok nodes ∧
      (options.FindsTitleBlock source → ∃ payload, front = [titleBlockHeading payload]) ∧
      (¬ options.FindsTitleBlock source → front = []) := by
  obtain ⟨front, htree, hfront⟩ := tree_of_read tokenize options source
  rw [htree] at hroot
  cases hnodes : nodesOf (tokenize options.extensions
      (readSourceWith tokenize options source).content) with
  | error e =>
      rw [hnodes] at hroot
      cases hroot
  | ok nodes =>
      rw [hnodes] at hroot
      cases hroot
      exact ⟨front, nodes, rfl, rfl, hfront⟩

/-- What is read is a document, with a title block before its nodes if one is found. -/
theorem document_of_read {tokenize : Tokenizer} {options : Options} {source : Source} {root : Node}
    (hroot : (readSourceWith tokenize options source).tree = .ok root) :
    ∃ front nodes, root = .document (front ++ nodes) ∧ Grown (·.kind.isPart = false) nodes ∧
      (options.FindsTitleBlock source → ∃ payload, front = [titleBlockHeading payload]) ∧
      (¬ options.FindsTitleBlock source → front = []) := by
  obtain ⟨front, nodes, hdocument, hnodes, hfront⟩ := nodes_of_read hroot
  exact ⟨front, nodes, hdocument, grown_nodesOf _ hnodes, hfront⟩

theorem sound_titleBlockHeading (payload : String) :
    ∀ node ∈ descendantsAll [titleBlockHeading payload], node.Sound := by
  have hheading : (titleBlockHeading payload).Sound := sound_flow rfl rfl nofun (by
    simp [titleBlockHeading, text, Kind.isPart])
  have htext : (text payload).Sound := sound_leaf rfl rfl nofun nofun
  simp only [descendantsAll, titleBlockHeading, descendants] at hheading ⊢
  simpa [text, descendants, descendantsAll] using ⟨hheading, htext⟩

/-- Every tree that is read is well formed. -/
theorem wellFormed_document {tokenize : Tokenizer} {options : Options} {source : Source}
    {root : Node} (hroot : (readSourceWith tokenize options source).tree = .ok root) :
    WellFormed root := by
  obtain ⟨front, nodes, rfl, hgrown, hmarked, hunmarked⟩ := document_of_read hroot
  have hfront : (∀ node ∈ front, node.kind.isPart = false) ∧
      ∀ node ∈ descendantsAll front, node.Sound := by
    by_cases hfinds : options.FindsTitleBlock source
    · obtain ⟨payload, rfl⟩ := hmarked hfinds
      exact ⟨by simp [titleBlockHeading, Kind.isPart], sound_titleBlockHeading payload⟩
    · rw [hunmarked hfinds]
      exact ⟨nofun, nofun⟩
  have hsound : (document (front ++ nodes)).Sound :=
    sound_flow rfl rfl nofun (List.forall_mem_append.mpr ⟨hfront.1, hgrown.top⟩)
  have hbelow : (document (front ++ nodes)).descendants =
      descendantsAll front ++ descendantsAll nodes := descendantsAll_append front nodes
  refine wellFormed_of_sound rfl (List.forall_mem_cons.mpr ⟨hsound, ?_⟩)
  rw [hbelow, List.forall_mem_append]
  exact ⟨hfront.2, fun node hmem => (hgrown.sound node hmem).1⟩

/-- The headings that are marked as a title block: the first node of a document that has one, and
none if it has none. -/
structure MarksTitle (hasTitle : Prop) (root : Node) : Prop where
  first : hasTitle → ∃ payload nodes, root.children = titleBlockHeading payload :: nodes ∧
    ∀ node ∈ descendantsAll nodes, node.isTitleBlock = false
  none : ¬ hasTitle → ∀ node ∈ root.descendants, node.isTitleBlock = false

/-- Every tree that is read is well formed, whatever the tokens. It is marked as having a title
block exactly if one was found. -/
theorem wellFormed_of_read (tokenize : Tokenizer) (options : Options) (source : Source)
    (root : Node) (hroot : (readSourceWith tokenize options source).tree = .ok root) :
    WellFormed root ∧ MarksTitle (options.FindsTitleBlock source) root := by
  refine ⟨wellFormed_document hroot, ?_, ?_⟩
  all_goals obtain ⟨front, nodes, rfl, hgrown, hmarked, hunmarked⟩ := document_of_read hroot
  · intro hfinds
    obtain ⟨payload, rfl⟩ := hmarked hfinds
    exact ⟨payload, nodes, rfl, fun node hmem => (hgrown.sound node hmem).2⟩
  · intro hnot
    cases hunmarked hnot
    exact fun node hmem => (hgrown.sound node hmem).2

/-- Tokens that no text gives: a table in which rows and cells are of other kinds. -/
def looseTokens : List Token := [
  { kind := .list
    children := [
      { kind := .listItem
        children := [
          { kind := .table
            children := [
              { kind := .tableHead
                children := [{ kind := .null, children := [{ kind := .text, raw := "a" }] }] },
              { kind := .tableBody, children := [{ kind := .blankLine }] }] }] }] },
  { kind := .codeBlock, raw := "b" }]

/-- The tree of these tokens after a title block. -/
def looseTree : Node :=
  .document [
    titleBlockHeading "title: T",
    { kind := .list
      listStyle := some {}
      children := [
        { kind := .listItem
          listStyle := some {}
          children := [
            { kind := .table
              children := [
                tableHead [tableRow [tableCell [text "a"]]], tableBody [tableRow []]] }] }] },
    codeBlock "b\n"]

/-- The title block is marked and the table is well formed in an item that has no paragraph. -/
theorem wellFormed_looseTree :
    (readSourceWith (fun _ _ => looseTokens) {} (.text "% title: T")).tree = .ok looseTree ∧
    WellFormed looseTree ∧ ∃ payload nodes,
      looseTree.children = titleBlockHeading payload :: nodes ∧
        ∀ node ∈ descendantsAll nodes, node.isTitleBlock = false := by
  have hroot : (readSourceWith (fun _ _ => looseTokens) {} (.text "% title: T")).tree =
      .ok looseTree := rfl
  obtain ⟨hwell, hmarks⟩ := wellFormed_of_read (fun _ _ => looseTokens) {} (.text "% title: T")
    looseTree hroot
  exact ⟨hroot, hwell, hmarks.first ⟨rfl, rfl⟩⟩

end Markdown

end Manuscript
