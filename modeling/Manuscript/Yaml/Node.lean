import Manuscript.Yaml.Plain
import Manuscript.Yaml.Token

/-! # Node trees of a metadata text

The tokens of a metadata text describe one tree of scalars, sequences and
mappings, whose nodes have types. A node may be given a name and stand again
wherever the name is used later; inside itself it stands as a mark only. Tokens
are taken one by one, so that what is wrong with the first of them is found
before the place where no further one can be read.
-/

namespace Manuscript.Yaml

/-- A collection that a node stands inside of. -/
structure Enclosing where
  name : String
  isMapping : Bool
  /-- The node is what the collection is read as where it is read as a scalar. -/
  isDefault : Bool := false
  deriving DecidableEq, Repr

/-- A node of a metadata text. -/
inductive Node where
  | scalar (tag : Tag) (text : LooseText)
  | sequence (tag : Tag) (items : List Node)
  | mapping (tag : Tag) (entries : List (Node × Node))
  /-- A collection that this node stands inside of. -/
  | enclosing (collection : Enclosing)

instance : Inhabited Node := ⟨.scalar .null ""⟩

/-- The node that stands where none is written. -/
def Node.empty : Node := .scalar .null ""

/-- The type of a node, if it has one. -/
def Node.tag? : Node → Option Tag
  | scalar tag _ | sequence tag _ | mapping tag _ => some tag
  | enclosing _ => none

mutual

/-- Mark that a mapping of the given name is its own default value, if it is. -/
def Node.closeDefault (name : String) : Node → Node
  | .mapping tag entries => .mapping tag (closeDefaultOf name entries)
  | .enclosing collection =>
    .enclosing <|
      if collection.name == name then { collection with isDefault := true } else collection
  | node => node

/-- Mark that a mapping of the given name and with these entries is its own default value. -/
def closeDefaultOf (name : String) : List (Node × Node) → List (Node × Node)
  | [] => []
  | (key, value) :: rest =>
    if key.tag? == some .default then (key, value.closeDefault name) :: rest
    else (key, value) :: closeDefaultOf name rest

end

/-- The state of building a tree: the tokens that are left and what stops the reading after them,
the named nodes, and what the handles of tags stand for. -/
structure Composer where
  left : Tokens
  names : List (String × Node) := []
  handles : List (String × String) := []

namespace Composer

/-- A step of building a tree. -/
abbrev Compose (α : Type) := StateT Composer (Except ScanError) α

private def fail {α : Type} : Compose α := throw .malformed

private def peek : Compose Token := do
  let left := (← get).left
  match left.tokens, left.fault with
  | token :: _, _ => return token
  | [], some fault => throw fault
  | [], none => return .streamEnd

private def next : Compose Unit :=
  modify fun s => { s with left.tokens := s.left.tokens.tail }

/-- Take the next token if it is the given one. -/
private def accept (token : Token) : Compose Bool := do
  if (← peek) == token then
    next
    return true
  else return false

private def expect (token : Token) : Compose Unit := do
  if !(← accept token) then fail

/-- The full tag of a written one. -/
def fullTag (written : WrittenTag) : Compose String := do
  match written.handle with
  | none => return written.suffix
  | some handle =>
    match (← get).handles.lookup handle with
    | some start => return start ++ written.suffix
    | none => fail

/-- The name and the tag before a node, in either order. -/
def properties : Compose (Option String × Option WrittenTag) := do
  match ← peek with
  | .anchor name =>
    next
    match ← peek with
    | .tag tag =>
      next
      return (some name, some tag)
    | _ => return (some name, none)
  | .tag tag =>
    next
    match ← peek with
    | .anchor name =>
      next
      return (some name, some tag)
    | _ => return (none, some tag)
  | _ => return (none, none)

/-- Give a node its name. -/
def bind (name : Option String) (node : Node) : Compose Unit :=
  match name with
  | some name => modify fun s => { s with names := (name, node) :: s.names }
  | none => pure ()

/-- Name a collection while it is built; inside of itself it stands as a mark. -/
def enclose (name : Option String) (isMapping : Bool) : Compose Unit :=
  match name with
  | some name => bind name (.enclosing { name, isMapping })
  | none => pure ()

/-- The type of a scalar: the one that its tag names, or else the one of its form. -/
def scalarTag (tag : Option String) (text : LooseText) (plain : Bool) : Tag :=
  match tag with
  | some name => if name == "!" then Plain.tag text.shown.toList else Tag.ofName name
  | none => if plain then Plain.tag text.shown.toList else .str

/-- The type of a collection. -/
def collectionTag (tag : Option String) (usual : Tag) : Tag :=
  match tag with
  | some name => if name == "!" then usual else Tag.ofName name
  | none => usual

/-- The places where a node may stand. -/
inductive Place where
  | flow
  | block
  /-- In a block mapping, where a sequence need not be indented. -/
  | entry
  deriving DecidableEq

mutual

/-- A node. -/
def node (place : Place) : Nat → Compose Node
  | 0 => fail
  | fuel + 1 => do
    if let .alias name := ← peek then
      next
      match (← get).names.lookup name with
      | some node => return node
      | none => fail
    else
      let (name, written) ← properties
      let tag ← match written with
        | some written => some <$> fullTag written
        | none => pure none
      let token ← peek
      if let some name := name then
        if ((← get).names.lookup name).isSome then fail
      let sequence (items : Compose (List Node)) : Compose Node := do
        enclose name false
        let node := Node.sequence (collectionTag tag .seq) (← items)
        bind name node
        return node
      let mapping (entries : Compose (List (Node × Node))) : Compose Node := do
        enclose name true
        let node := Node.mapping (collectionTag tag .map) (← entries)
        let node := (name.map node.closeDefault).getD node
        bind name node
        return node
      match token with
      | .scalar text plain =>
        next
        let node := Node.scalar (scalarTag tag text plain) text
        bind name node
        return node
      | .flowSequenceStart =>
        next
        sequence (flowItems true fuel)
      | .flowMappingStart =>
        next
        mapping (flowEntries true fuel)
      | token =>
        if token == .blockEntry && place == .entry then sequence (looseItems fuel)
        else if token == .blockSequenceStart && place != .flow then
          next
          sequence (blockItems fuel)
        else if token == .blockMappingStart && place != .flow then
          next
          mapping (blockEntries fuel)
        else if name.isSome || tag.isSome then
          let node := Node.scalar (scalarTag tag "" true) ""
          bind name node
          return node
        else fail

/-- A node, unless the next token is one of some that may follow a node left out. -/
def nodeUnless (after : List Token) (place : Place) : Nat → Compose Node
  | 0 => fail
  | fuel + 1 => do
    if after.contains (← peek) then return .empty
    else node place fuel

/-- The items of a block sequence. -/
def blockItems : Nat → Compose (List Node)
  | 0 => fail
  | fuel + 1 => do
    if ← accept .blockEntry then
      let item ← nodeUnless [.blockEntry, .blockEnd] .block fuel
      return item :: (← blockItems fuel)
    else
      expect .blockEnd
      return []

/-- The items of a sequence that is not indented. -/
def looseItems : Nat → Compose (List Node)
  | 0 => fail
  | fuel + 1 => do
    if ← accept .blockEntry then
      let item ← nodeUnless [.blockEntry, .key, .value, .blockEnd] .block fuel
      return item :: (← looseItems fuel)
    else return []

/-- The value after a key of a block mapping, and the further entries. -/
def blockEntries : Nat → Compose (List (Node × Node))
  | 0 => fail
  | fuel + 1 => do
    if ← accept .key then
      let key ← nodeUnless [.key, .value, .blockEnd] .entry fuel
      let value ←
        if ← accept .value then nodeUnless [.key, .value, .blockEnd] .entry fuel
        else pure .empty
      return (key, value) :: (← blockEntries fuel)
    else
      expect .blockEnd
      return []

/-- The items of a sequence in brackets. An item with a key is a mapping of one entry. -/
def flowItems (first : Bool) : Nat → Compose (List Node)
  | 0 => fail
  | fuel + 1 => do
    if ← accept .flowSequenceEnd then return []
    else
      if !first then expect .flowEntry
      if ← accept .key then
        let key ← nodeUnless [.value, .flowEntry, .flowSequenceEnd] .flow fuel
        let value ←
          if ← accept .value then nodeUnless [.flowEntry, .flowSequenceEnd] .flow fuel
          else pure .empty
        return .mapping .map [(key, value)] :: (← flowItems false fuel)
      else if ← accept .flowSequenceEnd then return []
      else
        let item ← node .flow fuel
        return item :: (← flowItems false fuel)

/-- The entries of a mapping in braces. A node without a key mark is a key without a value. -/
def flowEntries (first : Bool) : Nat → Compose (List (Node × Node))
  | 0 => fail
  | fuel + 1 => do
    if ← accept .flowMappingEnd then return []
    else
      if !first then expect .flowEntry
      if ← accept .key then
        let key ← nodeUnless [.value, .flowEntry, .flowMappingEnd] .flow fuel
        let value ←
          if ← accept .value then nodeUnless [.flowEntry, .flowMappingEnd] .flow fuel
          else pure .empty
        return (key, value) :: (← flowEntries false fuel)
      else if ← accept .flowMappingEnd then return []
      else
        let key ← node .flow fuel
        return (key, .empty) :: (← flowEntries false fuel)

end

/-- The handles that need no declaration. -/
def commonHandles : List (String × String) := [("!", "!"), ("!!", commonPrefix)]

/-- The directives before a document: at most one version, which has to be 1, and no handle
twice. -/
def directives : Nat → Bool → List (String × String) → Compose (List (String × String))
  | 0, _, _ => fail
  | fuel + 1, versioned, handles => do
    match ← peek with
    | .directive (.version major) =>
      next
      if versioned || major != 1 then fail else directives fuel true handles
    | .directive (.tag handle tagPrefix) =>
      next
      if (handles.lookup handle).isSome then fail
      else directives fuel versioned ((handle, tagPrefix) :: handles)
    | .directive .other =>
      next
      directives fuel versioned handles
    | _ => return handles

/-- Pass over marks that end a document. -/
def documentEnds : Nat → Compose Unit
  | 0 => pure ()
  | fuel + 1 => do
    if ← accept .documentEnd then documentEnds fuel

/-- The one document of a stream; `none` if there is nothing in the stream. -/
def document (fuel : Nat) : Compose (Option Node) := do
  let root ←
    match ← peek with
    | .streamEnd => return none
    | .directive _ | .documentStart =>
      let handles ← directives fuel false []
      modify fun s => { s with handles := handles ++ commonHandles }
      expect .documentStart
      match ← peek with
      | .directive _ | .documentStart | .documentEnd | .streamEnd => pure Node.empty
      | _ => node .block fuel
    | _ =>
      modify fun s => { s with handles := commonHandles }
      node .block fuel
  documentEnds fuel
  if (← peek) == .streamEnd then return some root
  else
    -- A second document is started before it is refused.
    discard (directives fuel false [])
    expect .documentStart
    fail

end Composer

/-- The tree that tokens describe, if they describe one. -/
def Node.ofTokens (tokens : Tokens) : Except ScanError (Option Node) :=
  ((Composer.document (3 * tokens.tokens.length + 3)).run { left := tokens }).map (·.1)

end Manuscript.Yaml
