import Mathlib.Logic.Relation
import Manuscript.Proofs.Markdown.Acceptance

/-! # Unwrapping struck-through text

Where tokens are taken for a text, a struck-through token stands for its parts and a
blank line for nothing. Putting the parts in the place of the one and leaving out the
other, however deep in a document, gives the same tree or the same refusal
(`tree_of_unwraps`). Directly in a list or in a table neither may stand at all.
-/

namespace Manuscript.Markdown

/-- The second run of tokens is the first with a struck-through token replaced by its parts, or
without a blank line, in one of the texts that are looked at. -/
inductive Unwraps : Place → List Token → List Token → Prop
  | strikethrough {token : Token} (hkind : token.kind = .strikethrough)
      (before after : List Token) :
      Unwraps .flow (before ++ token :: after) (before ++ (token.children ++ after))
  | blankLine {token : Token} (hkind : token.kind = .blankLine) (before after : List Token) :
      Unwraps .flow (before ++ token :: after) (before ++ after)
  | inside {place inner : Place} {token : Token} {children : List Token}
      (hinside : place.inside token.kind = some inner)
      (hchildren : Unwraps inner token.children children) (before after : List Token) :
      Unwraps place (before ++ token :: after) (before ++ { token with children } :: after)

namespace Place

/-- The nodes of a run of tokens at a place. Items are those of a list of the given style. -/
def nodesOf (style : ListStyle) : Place → List Token → Except TreeError (List Node)
  | flow, tokens => Markdown.nodesOf tokens
  | list, tokens => itemsOf style tokens
  | table, tokens => sectionsOf tokens
  | row, tokens => rowsOf tokens
  | cell, tokens => cellsOf tokens

variable {style : ListStyle} {place : Place}

theorem nodesOf_cons (token : Token) (rest : List Token) :
    place.nodesOf style (token :: rest) = do
      return (← place.nodesOf style [token]) ++ (← place.nodesOf style rest) := by
  obtain ⟨kind, raw, level, target, own, children⟩ := token
  cases place with
  | flow =>
      simp only [nodesOf, Markdown.nodesOf]
      cases Token.nodes ⟨kind, raw, level, target, own, children⟩ <;>
        cases Markdown.nodesOf rest <;> simp [bind, Except.bind, pure, Except.pure]
  | list =>
      simp only [nodesOf, itemsOf]
      by_cases hkind : kind = .listItem
      · rw [if_neg (not_not_intro hkind), if_neg (not_not_intro hkind)]
        cases Markdown.nodesOf children <;> cases itemsOf style rest <;> rfl
      · rw [if_pos hkind, if_pos hkind]
        rfl
  | table =>
      cases kind
      case tableHead =>
        simp only [nodesOf, sectionsOf]
        cases cellsOf children <;> cases sectionsOf rest <;> rfl
      case tableBody =>
        simp only [nodesOf, sectionsOf]
        cases rowsOf children <;> cases sectionsOf rest <;> rfl
      all_goals rfl
  | row =>
      simp only [nodesOf, rowsOf]
      cases cellsOf children <;> cases rowsOf rest <;> rfl
  | cell =>
      simp only [nodesOf, cellsOf]
      cases Markdown.nodesOf children <;> cases cellsOf rest <;> rfl

theorem nodesOf_append (first second : List Token) :
    place.nodesOf style (first ++ second) = do
      return (← place.nodesOf style first) ++ (← place.nodesOf style second) := by
  induction first with
  | nil =>
      have hnil : place.nodesOf style [] = .ok [] := by cases place <;> rfl
      rw [hnil]
      exact (bind_pure _).symm
  | cons token rest ih =>
      rw [List.cons_append, nodesOf_cons, ih, nodesOf_cons token rest]
      simp only [bind_assoc, pure_bind, List.append_assoc]

/-- A token is taken for what its parts are taken for where they stand. -/
theorem nodesOf_inside {inner : Place} {token : Token} {children : List Token}
    (hinside : place.inside token.kind = some inner)
    (hsame : ∀ style, inner.nodesOf style token.children = inner.nodesOf style children) :
    place.nodesOf style [token] = place.nodesOf style [{ token with children }] := by
  obtain ⟨kind, raw, level, target, own, parts⟩ := token
  cases place with
  | flow =>
      simp only [nodesOf, Markdown.nodesOf]
      cases kind
      case list =>
        cases hinside
        have hitems (style : ListStyle) : itemsOf style parts = itemsOf style children :=
          hsame style
        simp only [Token.nodes, hitems]
      case table =>
        cases hinside
        have hsections : sectionsOf parts = sectionsOf children := hsame style
        simp only [Token.nodes, hsections]
      case heading | paragraph | itemText | blockQuote | emphasis | strong | strikethrough | link
          | image =>
        cases hinside
        have hnodes : Markdown.nodesOf parts = Markdown.nodesOf children := hsame style
        simp only [Token.nodes, hnodes]
      all_goals cases hinside
  | list =>
      cases kind <;> cases hinside
      have hnodes : Markdown.nodesOf parts = Markdown.nodesOf children := hsame style
      simp only [nodesOf, itemsOf, hnodes]
  | table =>
      cases kind
      case tableHead =>
        cases hinside
        have hcells : cellsOf parts = cellsOf children := hsame style
        simp only [nodesOf, sectionsOf, hcells]
      case tableBody =>
        cases hinside
        have hrows : rowsOf parts = rowsOf children := hsame style
        simp only [nodesOf, sectionsOf, hrows]
      all_goals cases hinside
  | row =>
      cases hinside
      have hcells : cellsOf parts = cellsOf children := hsame style
      simp only [nodesOf, rowsOf, hcells]
  | cell =>
      cases hinside
      have hnodes : Markdown.nodesOf parts = Markdown.nodesOf children := hsame style
      simp only [nodesOf, cellsOf, hnodes]

end Place

/-- Unwrapping once leaves the nodes as they are. -/
theorem Unwraps.nodesOf_eq {place : Place} {first second : List Token}
    (hunwraps : Unwraps place first second) (style : ListStyle) :
    place.nodesOf style first = place.nodesOf style second := by
  induction hunwraps generalizing style with
  | @strikethrough token hkind before after =>
      have htoken : Place.flow.nodesOf style [token] = Place.flow.nodesOf style token.children := by
        obtain ⟨kind, raw, level, target, own, children⟩ := token
        obtain rfl : kind = .strikethrough := hkind
        simp [Place.nodesOf, nodesOf, Token.nodes]
      rw [Place.nodesOf_append, Place.nodesOf_cons, htoken, ← Place.nodesOf_append,
        ← Place.nodesOf_append]
  | @blankLine token hkind before after =>
      have htoken : Place.flow.nodesOf style [token] = .ok [] := by
        obtain ⟨kind, raw, level, target, own, children⟩ := token
        obtain rfl : kind = .blankLine := hkind
        rfl
      have hafter : Place.flow.nodesOf style (token :: after) = Place.flow.nodesOf style after := by
        rw [Place.nodesOf_cons, htoken]
        exact bind_pure (Place.flow.nodesOf style after)
      rw [Place.nodesOf_append, hafter, ← Place.nodesOf_append]
  | inside hinside _ before after ih =>
      rw [Place.nodesOf_append, Place.nodesOf_cons, Place.nodesOf_inside hinside ih,
        ← Place.nodesOf_cons, ← Place.nodesOf_append]

/-- Unwrapping any number of times leaves the nodes as they are. -/
theorem nodesOf_of_unwraps {first second : List Token}
    (hunwraps : Relation.ReflTransGen (Unwraps .flow) first second) :
    nodesOf first = nodesOf second := by
  induction hunwraps with
  | refl => rfl
  | tail _ hlast ih => exact ih.trans (hlast.nodesOf_eq { marker := "*" })

/-- Reading a document gives the same tree, or the same refusal, if in any number of texts that are
looked at, one after another and at any depth, struck-through tokens are replaced by their parts and
blank lines are left out. -/
theorem tree_of_unwraps (first second : Tokenizer) (options : Options) (source : Source)
    (hunwraps : Relation.ReflTransGen (Unwraps .flow)
      (first options.extensions (readSourceWith first options source).content)
      (second options.extensions (readSourceWith second options source).content)) :
    (readSourceWith first options source).tree = (readSourceWith second options source).tree := by
  have hnodes := nodesOf_of_unwraps hunwraps
  simp only [readSourceWith, readWith] at hnodes ⊢
  rw [hnodes]

/-- A table whose only cell holds the given tokens, and a list whose only item holds others. -/
def tableAndList (cell item : List Token) : List Token := [
  { kind := .table
    children := [
      { kind := .tableBody, children := [{ kind := .null, children := [
        { kind := .missing, children := cell }] }] }] },
  { kind := .list, children := [{ kind := .listItem, children := item }] }]

/-- Text struck through twice in a cell and a blank line in an item leave no trace in the tree. -/
theorem tree_of_struck_through_cell :
    let letter (raw : String) : Token := { kind := .text, raw }
    let struck (children : List Token) : Token := { kind := .strikethrough, children }
    let first := tableAndList [letter "a", struck [letter "b", struck [letter "c"]]]
      [{ kind := .blankLine }, letter "d"]
    let second := tableAndList [letter "a", letter "b", letter "c"] [letter "d"]
    Relation.ReflTransGen (Unwraps .flow) first second ∧
      (readSourceWith (fun _ _ => first) {} (.text "% title: T")).tree =
        (readSourceWith (fun _ _ => second) {} (.text "% title: T")).tree := by
  intro letter struck first second
  have hcell {inner outer : List Token} (item : List Token) (hunwraps : Unwraps .flow inner outer) :
      Unwraps .flow (tableAndList inner item) (tableAndList outer item) :=
    have hcells : Unwraps .cell [{ kind := .missing, children := inner }]
        [{ kind := .missing, children := outer }] := .inside rfl hunwraps [] []
    have hrows : Unwraps .row [{ kind := .null, children := [_] }]
        [{ kind := .null, children := [_] }] := .inside rfl hcells [] []
    have hsections : Unwraps .table [{ kind := .tableBody, children := [_] }]
        [{ kind := .tableBody, children := [_] }] := .inside rfl hrows [] []
    .inside rfl hsections [] _
  have hitem {inner outer : List Token} (cell : List Token) (hunwraps : Unwraps .flow inner outer) :
      Unwraps .flow (tableAndList cell inner) (tableAndList cell outer) :=
    have hitems : Unwraps .list [{ kind := .listItem, children := inner }]
        [{ kind := .listItem, children := outer }] := .inside rfl hunwraps [] []
    .inside rfl hitems [_] []
  have hunwraps : Relation.ReflTransGen (Unwraps .flow) first second := by
    refine .head (hcell _ (.strikethrough rfl [letter "a"] [])) ?_
    refine .head (hcell _ (.strikethrough rfl [letter "a", letter "b"] [])) ?_
    exact .single (hitem _ (.blankLine rfl [] [letter "d"]))
  exact ⟨hunwraps, tree_of_unwraps _ _ _ _ hunwraps⟩

end Manuscript.Markdown
