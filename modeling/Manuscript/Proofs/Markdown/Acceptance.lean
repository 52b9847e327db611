import Manuscript.Failure
import Manuscript.Proofs.Markdown.WellFormed

/-! # Tokens that are accepted

Where a token stands decides which kinds may stand there and where its parts stand,
if they are looked at at all. A document is read exactly if every token that is
looked at may stand where it does. Otherwise the first one in document order that
may not is refused (`read_accepts_iff`).
-/

namespace Manuscript.Markdown

/-- The kinds that may stand in a text. -/
def TokenKind.isFlow : TokenKind → Bool
  | blankLine | heading | paragraph | itemText | codeBlock | blockQuote | htmlBlock
  | thematicBreak | list | table | text | softBreak | hardBreak | emphasis | strong
  | strikethrough | codeSpan | htmlSpan | link | image => true
  | listItem | tableHead | tableBody | other _ _ | missing | null => false

/-- The kinds whose parts are a text. -/
def TokenKind.holdsFlow : TokenKind → Bool
  | heading | paragraph | itemText | blockQuote | emphasis | strong | strikethrough | link
  | image => true
  | _ => false

/-- Where a token stands. -/
inductive Place where
  /-- In a text: at the top, in a container, in an item of a list or in a cell. -/
  | flow
  /-- Directly in a list. -/
  | list
  /-- Directly in a table. -/
  | table
  /-- In the body of a table, as a row. -/
  | row
  /-- In the head of a table or in a row, as a cell. -/
  | cell
  deriving DecidableEq, Repr

namespace Place

/-- The kinds that may stand at a place. Rows and cells are not asked for their kind. -/
def admits : Place → TokenKind → Bool
  | flow, kind => kind.isFlow
  | list, kind => kind == .listItem
  | table, kind => kind == .tableHead || kind == .tableBody
  | row, _ | cell, _ => true

/-- Why a token may not stand at a place. -/
def refusal : Place → TokenKind → TreeError
  | list, kind => .inList kind
  | table, kind => .inTable kind
  | flow, kind | row, kind | cell, kind => .unsupported kind

/-- What is wrong with a token at a place, if it may not stand there. -/
def fault? (place : Place) (token : Token) : Option TreeError :=
  if place.admits token.kind then none else some (place.refusal token.kind)

/-- Where the parts of a token stand. There is no place for them if they are not looked at. -/
def inside : Place → TokenKind → Option Place
  | flow, .list => some list
  | flow, .table => some table
  | flow, kind => if kind.holdsFlow then some flow else none
  | list, .listItem => some flow
  | table, .tableHead => some cell
  | table, .tableBody => some row
  | row, _ => some cell
  | cell, _ => some flow
  | list, _ | table, _ => none

end Place

mutual

/-- A token at a place and all that is looked at below it, in document order. -/
def Token.reached (place : Place) : Token → List (Place × Token)
  | ⟨kind, raw, level, target, style, children⟩ =>
    (place, ⟨kind, raw, level, target, style, children⟩) ::
      match place.inside kind with
      | some inner => reachedAll inner children
      | none => []

/-- All that is looked at in a run of tokens at a place, in document order. -/
def reachedAll (place : Place) : List Token → List (Place × Token)
  | [] => []
  | token :: rest => token.reached place ++ reachedAll place rest

end

/-- The first fault of tokens at their places. -/
def firstFault? (seen : List (Place × Token)) : Option TreeError :=
  seen.findSome? fun seen => seen.1.fault? seen.2

/-! ## The first fault -/

section

variable {α β : Type}

/-- Why there is no result. -/
def faultOf? : Except TreeError α → Option TreeError
  | .ok _ => none
  | .error error => some error

theorem faultOf?_eq_some {result : Except TreeError α} {error : TreeError} :
    faultOf? result = some error ↔ result = .error error := by
  cases result <;> simp [faultOf?]

theorem faultOf?_eq_none {result : Except TreeError α} :
    faultOf? result = none ↔ ∃ a, result = .ok a := by
  cases result <;> simp [faultOf?]

/-- The fault of two parts is that of the first, or else that of the second. -/
theorem faultOf?_bind {first : Except TreeError α} {next : α → Except TreeError β}
    {later : Option TreeError} (hnext : ∀ a, faultOf? (next a) = later) :
    faultOf? (first >>= next) = (faultOf? first).or later := by
  cases first with
  | error error => rfl
  | ok a => exact hnext a

theorem faultOf?_map (f : α → β) (first : Except TreeError α) :
    faultOf? (f <$> first) = faultOf? first := by
  cases first <;> rfl

end

/-- The first fault is looked for in order. -/
theorem firstFault?_append (first second : List (Place × Token)) :
    firstFault? (first ++ second) = (firstFault? first).or (firstFault? second) :=
  List.findSome?_append

theorem firstFault?_cons (place : Place) (token : Token) (seen : List (Place × Token)) :
    firstFault? ((place, token) :: seen) = (place.fault? token).or (firstFault? seen) := by
  rw [firstFault?, List.findSome?_cons]
  cases hfault : place.fault? token <;> simp [firstFault?]

mutual

/-- The fault of a token is the first of the tokens that are reached from it. -/
theorem faultOf?_nodes : ∀ token : Token, faultOf? token.nodes = firstFault? (token.reached .flow)
  | ⟨kind, raw, level, target, style, children⟩ => by
      have hflow := faultOf?_nodesOf children
      have hlist (style : ListStyle) := faultOf?_itemsOf style children
      have htable := faultOf?_sectionsOf children
      rw [Token.reached, firstFault?_cons]
      cases kind <;> simp only [Token.nodes]
      case blankLine | codeBlock | htmlBlock | thematicBreak | text | softBreak | hardBreak
          | codeSpan | htmlSpan => rfl
      case listItem | tableHead | tableBody | other | missing | null => rfl
      case strikethrough => exact hflow
      case list => exact (faultOf?_map _ _).trans (hlist _)
      case table => exact (faultOf?_map _ _).trans htable
      case heading | paragraph | itemText | blockQuote | emphasis | strong | link | image =>
        exact (faultOf?_map _ _).trans hflow

/-- The fault of tokens is the first of those that are reached from them. -/
theorem faultOf?_nodesOf : ∀ tokens : List Token,
    faultOf? (nodesOf tokens) = firstFault? (reachedAll .flow tokens)
  | [] => rfl
  | token :: rest => by
      have hrest (nodes : List Node) :
          faultOf? (return nodes ++ (← nodesOf rest)) = firstFault? (reachedAll .flow rest) :=
        (faultOf?_map _ _).trans (faultOf?_nodesOf rest)
      rw [nodesOf, reachedAll, firstFault?_append, faultOf?_bind hrest, faultOf?_nodes token]

/-- The fault of the items of a list is the first of the tokens that are reached. -/
theorem faultOf?_itemsOf (style : ListStyle) : ∀ tokens : List Token,
    faultOf? (itemsOf style tokens) = firstFault? (reachedAll .list tokens)
  | [] => rfl
  | ⟨kind, raw, level, target, own, children⟩ :: rest => by
      have hrest (item : Node) :
          faultOf? (return item :: (← itemsOf style rest)) = firstFault? (reachedAll .list rest) :=
        (faultOf?_map _ _).trans (faultOf?_itemsOf style rest)
      rw [reachedAll, firstFault?_append, Token.reached, firstFault?_cons]
      cases kind
      case listItem =>
        rw [itemsOf]
        have hitem (inner : List Node) :=
          hrest { kind := .listItem, listStyle := some style, children := inner }
        exact (faultOf?_bind hitem).trans (congrArg (Option.or · _) (faultOf?_nodesOf children))
      all_goals rfl

/-- The fault of the parts of a table is the first of the tokens that are reached. -/
theorem faultOf?_sectionsOf : ∀ tokens : List Token,
    faultOf? (sectionsOf tokens) = firstFault? (reachedAll .table tokens)
  | [] => rfl
  | ⟨kind, raw, level, target, style, children⟩ :: rest => by
      have hrest (part : Node) :
          faultOf? (return part :: (← sectionsOf rest)) = firstFault? (reachedAll .table rest) :=
        (faultOf?_map _ _).trans (faultOf?_sectionsOf rest)
      rw [reachedAll, firstFault?_append, Token.reached, firstFault?_cons]
      cases kind
      case tableHead =>
        rw [sectionsOf]
        have hhead (cells : List Node) := hrest (.tableHead [.tableRow cells])
        exact (faultOf?_bind hhead).trans (congrArg (Option.or · _) (faultOf?_cellsOf children))
      case tableBody =>
        rw [sectionsOf]
        have hrows := (faultOf?_map Node.tableBody _).trans (faultOf?_rowsOf children)
        exact (faultOf?_bind hrest).trans (congrArg (Option.or · _) hrows)
      all_goals rfl

/-- The fault of rows is the first of the tokens that are reached. -/
theorem faultOf?_rowsOf : ∀ tokens : List Token,
    faultOf? (rowsOf tokens) = firstFault? (reachedAll .row tokens)
  | [] => rfl
  | ⟨kind, raw, level, target, style, children⟩ :: rest => by
      have hrest (cells : List Node) :
          faultOf? (return Node.tableRow cells :: (← rowsOf rest)) =
            firstFault? (reachedAll .row rest) :=
        (faultOf?_map _ _).trans (faultOf?_rowsOf rest)
      rw [rowsOf, reachedAll, firstFault?_append, Token.reached, firstFault?_cons]
      exact (faultOf?_bind hrest).trans (congrArg (Option.or · _) (faultOf?_cellsOf children))

/-- The fault of cells is the first of the tokens that are reached. -/
theorem faultOf?_cellsOf : ∀ tokens : List Token,
    faultOf? (cellsOf tokens) = firstFault? (reachedAll .cell tokens)
  | [] => rfl
  | ⟨kind, raw, level, target, style, children⟩ :: rest => by
      have hrest (inner : List Node) :
          faultOf? (return Node.tableCell inner :: (← cellsOf rest)) =
            firstFault? (reachedAll .cell rest) :=
        (faultOf?_map _ _).trans (faultOf?_cellsOf rest)
      rw [cellsOf, reachedAll, firstFault?_append, Token.reached, firstFault?_cons]
      exact (faultOf?_bind hrest).trans (congrArg (Option.or · _) (faultOf?_nodesOf children))

end

/-! ## Documents -/

/-- A token is not refused where its kind may stand. -/
theorem Place.fault?_eq_none {place : Place} {token : Token} :
    place.fault? token = none ↔ place.admits token.kind = true := by
  simp [fault?]

theorem Place.fault?_eq_some {place : Place} {token : Token} {error : TreeError} :
    place.fault? token = some error ↔
      place.admits token.kind = false ∧ error = place.refusal token.kind := by
  unfold fault?
  cases hadmits : place.admits token.kind with
  | true => simp
  | false => simp [eq_comm]

/-- There is no fault exactly if every place admits the token in it. -/
theorem firstFault?_eq_none {seen : List (Place × Token)} :
    firstFault? seen = none ↔ ∀ token ∈ seen, token.1.admits token.2.kind = true := by
  simp only [firstFault?, List.findSome?_eq_none_iff, Place.fault?_eq_none]

/-- A first fault is that of a token before which all may stand where they do. -/
theorem firstFault?_eq_some {seen : List (Place × Token)} {error : TreeError} :
    firstFault? seen = some error ↔
      ∃ before place token after, seen = before ++ (place, token) :: after ∧
        (∀ earlier ∈ before, earlier.1.admits earlier.2.kind = true) ∧
        place.admits token.kind = false ∧ error = place.refusal token.kind := by
  rw [firstFault?, List.findSome?_eq_some_iff]
  constructor
  · rintro ⟨before, ⟨place, token⟩, after, hseen, hfault, hbefore⟩
    refine ⟨before, place, token, after, hseen, ?_, Place.fault?_eq_some.mp hfault⟩
    exact fun earlier hmem => Place.fault?_eq_none.mp (hbefore earlier hmem)
  · rintro ⟨before, place, token, after, hseen, hbefore, hfault⟩
    refine ⟨before, (place, token), after, hseen, Place.fault?_eq_some.mpr hfault, ?_⟩
    exact fun earlier hmem => Place.fault?_eq_none.mpr (hbefore earlier hmem)

/-- The fault of a document is the first of the tokens that are reached in it. -/
theorem faultOf?_tree (tokenize : Tokenizer) (options : Options) (source : Source) :
    faultOf? (readSourceWith tokenize options source).tree =
      firstFault? (reachedAll .flow
        (tokenize options.extensions (readSourceWith tokenize options source).content)) := by
  obtain ⟨front, htree, -⟩ := tree_of_read tokenize options source
  rw [htree]
  exact (faultOf?_map _ _).trans (faultOf?_nodesOf _)

/-- A document is read exactly if all tokens that are looked at are of kinds that may stand at
their places. Otherwise building the tree refuses the first token in document order that is not,
for its kind at its place. -/
theorem read_accepts_iff (tokenize : Tokenizer) (options : Options) (source : Source) :
    let reading := readSourceWith tokenize options source
    let seen := reachedAll .flow (tokenize options.extensions reading.content)
    ((∃ root, reading.tree = .ok root) ↔
        ∀ token ∈ seen, token.1.admits token.2.kind = true) ∧
      ∀ error, reading.tree = .error error ↔
        ∃ before place token after, seen = before ++ (place, token) :: after ∧
          (∀ earlier ∈ before, earlier.1.admits earlier.2.kind = true) ∧
          place.admits token.kind = false ∧ error = place.refusal token.kind ∧
          error.stage = "tree_building" ∧ (Failure.tree error).origin = .reported .parsing := by
  intro reading seen
  have hfault : faultOf? reading.tree = firstFault? seen := faultOf?_tree tokenize options source
  refine ⟨?_, fun error => ?_⟩
  · rw [← faultOf?_eq_none, hfault, firstFault?_eq_none]
  · have hstage : error.stage = "tree_building" := by cases error <;> rfl
    rw [← faultOf?_eq_some, hfault, firstFault?_eq_some]
    simp [hstage, Failure.origin]

end Manuscript.Markdown
