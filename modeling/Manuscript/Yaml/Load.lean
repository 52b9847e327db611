import Manuscript.Value
import Manuscript.Yaml.Node

/-! # Values of a metadata text

A tree of nodes is turned into a value. Scalars are read as their types
demand, mappings take over the entries of those merged into them, and of
entries with one key the last gives the value.

A collection is made empty and filled later, and the collections of one depth
are filled before those below them. So of several nodes that cannot be read, the
first of the least depth is reported, and no collection can be a key.
-/

namespace Manuscript.Yaml

/-- Why a well-formed text gives no value: one of its scalars is none of its type, or a reader
gives up for another reason. -/
inductive ScalarError where
  /-- The number of a code point is too large. -/
  | codePoint (code : Nat)
  /-- A field of a timestamp is out of range. -/
  | field (error : Calendar.FieldError)
  /-- The text is no whole number in a base. -/
  | integer (base : Nat) (text : String)
  /-- The whole number has too many digits. -/
  | integerLength (digits : Nat)
  /-- The text is no number. -/
  | number (text : String)
  /-- The number has a place in base sixty beyond all numbers. -/
  | numberPlaces
  /-- The number has no text. -/
  | noText
  /-- The text is no truth value. -/
  | truth (text : String)
  /-- The text is no timestamp. -/
  | timestamp
  /-- A mapping stands for the text of a timestamp. -/
  | timestampEntry
  /-- A mapping is the text of itself. -/
  | endless
  /-- Something else, which is or is not reported as a bad value. -/
  | other (isBadValue : Bool) (text : String)
  deriving DecidableEq, Repr

/-- The text that says which field is out of range. -/
def fieldMessage : Calendar.FieldError → String
  | .year value => s!"year {value} is out of range"
  | .month => "month must be in 1..12"
  | .day => "day is out of range for month"
  | .hour => "hour must be in 0..23"
  | .minute => "minute must be in 0..59"
  | .second => "second must be in 0..59"
  | .microsecond => "microsecond must be in 0..999999"
  | .offset micros =>
    "offset must be a timedelta strictly between -timedelta(hours=24) and timedelta(hours=24), " ++
      "not " ++ Value.durationLiteral micros ++ "."

/-- The number that the codes of code points have to be less than to be looked at as such. -/
def codeLimit : Nat := 2147483648

def ScalarError.message : ScalarError → String
  | .codePoint code =>
    if code < codeLimit then "chr() arg not in range(0x110000)"
    else "Python int too large to convert to C int"
  | .field error => fieldMessage error
  | .integer base text => s!"invalid literal for int() with base {base}: " ++ Text.quoted text
  | .integerLength digits =>
    s!"Exceeds the limit ({Decimal.digitLimit} digits) for integer string conversion: value has " ++
      s!"{digits} digits; use sys.set_int_max_str_digits() to increase the limit"
  | .number text => "could not convert string to float: " ++ Text.quoted text
  | .numberPlaces => "int too large to convert to float"
  | .noText => "string index out of range"
  | .truth text => text
  | .timestamp => "'NoneType' object has no attribute 'groupdict'"
  | .timestampEntry => "expected string or bytes-like object, got 'list'"
  | .endless => "maximum recursion depth exceeded"
  | .other _ text => text

/-- Why a text gives no value: it is malformed, or one of its scalars cannot be read. -/
inductive LoadError where
  | malformed
  | scalar (error : ScalarError)
  deriving DecidableEq, Repr

/-! ## Scalars -/

/-- The characters of a text without the marks between digits. -/
def dropMarks (text : String) : List Char := text.toList.filter (· != '_')

/-- Add up numbers in base sixty, the last of which counts once. -/
def sixtieths {α : Type} (add : α → α → α) (scale : α → Nat → α) (zero : α)
    (parts : List α) : α :=
  parts.reverse.zipIdx.foldl (fun sum (part, place) => add sum (scale part (Nat.pow 60 place))) zero

/-- The whole number that a text writes in a base. -/
def integerIn (base : Nat) (cs : List Char) : Except ScalarError Int :=
  let read := if base = 10 then Decimal.readInteger cs else Decimal.readIntegerInBase base cs
  match read with
  | .ok n => .ok n
  | .error .malformed => .error (.integer base (String.ofList cs))
  | .error (.tooLong digits) => .error (.integerLength digits)

/-- The whole number that a scalar writes in base two, eight, ten, sixteen or sixty. -/
def readInt (text : String) : Except ScalarError Int := do
  let cs := dropMarks text
  if cs.isEmpty then throw .noText
  let negative := cs.head? == some '-'
  let body := if negative || cs.head? == some '+' then cs.drop 1 else cs
  let value ←
    match body with
    | [] => throw .noText
    | ['0'] => pure 0
    | '0' :: 'b' :: digits => integerIn 2 digits
    | '0' :: 'x' :: digits => integerIn 16 digits
    | '0' :: _ => integerIn 8 body
    | _ =>
      if body.contains ':' then
        let parts ← (Plain.colonParts body).mapM (integerIn 10)
        pure (sixtieths (· + ·) (fun n k => n * k) 0 parts)
      else integerIn 10 body
  return if negative then -value else value

/-- The number that a text writes. -/
def numberOf (cs : List Char) : Except ScalarError Float :=
  match Decimal.read? cs with
  | some x => .ok x
  | none => .error (.number (String.ofList cs))

/-- The first whole number that is beyond all double precision numbers. -/
def numberLimit : Nat := Nat.pow 2 1024

/-- The number that a scalar writes, in base sixty if it has colons. -/
def readFloat (text : String) : Except ScalarError Float := do
  let cs := (dropMarks text).map Char.toLower
  if cs.isEmpty then throw .noText
  let negative := cs.head? == some '-'
  let body := if negative || cs.head? == some '+' then cs.drop 1 else cs
  let sign (x : Float) := if negative then -x else x
  if body == ".inf".toList then return Decimal.infinity negative
  else if body == ".nan".toList then return Decimal.undefined
  else if body.contains ':' then
    let parts ← (Plain.colonParts body).mapM numberOf
    if numberLimit ≤ Nat.pow 60 (parts.length - 1) then throw .numberPlaces
    return sign (sixtieths (· + ·) (fun x k => x * Decimal.ofInteger k) (Decimal.ofInteger 0) parts)
  else return sign (← numberOf body)

/-- The truth value that a scalar writes. -/
def readBool (text : String) : Except ScalarError Bool :=
  let name := String.ofList (text.toList.map Char.toLower)
  if ["yes", "true", "on"].contains name then .ok true
  else if ["no", "false", "off"].contains name then .ok false
  else .error (.truth name)

/-- The characters of a text without one line break at the end. -/
def dropBreak (text : String) : List Char :=
  let cs := text.toList
  if cs.getLast? == some '\n' then cs.dropLast else cs

/-- The date or moment that a scalar writes. -/
def readTimestamp (text : String) : Except ScalarError Value := do
  match Plain.stamp? (dropBreak text) with
  | none => throw .timestamp
  | some stamp =>
    let check {α : Type} (result : Except Calendar.FieldError α) : Except ScalarError α :=
      result.mapError .field
    match stamp.time with
    | none => return .date (← check (Calendar.Date.ofFields stamp.year stamp.month stamp.day))
    | some (hour, minute, second) =>
      let digits := stamp.fraction.take 6
      let micro := Text.decimalValue (digits ++ List.replicate (6 - digits.length) '0')
      let offset ←
        match stamp.zone with
        | none => pure none
        | some none => pure (some Calendar.Offset.zero)
        | some (some (west, hours, minutes)) =>
          let micros : Int := ((hours * 60 + minutes) * 60000000 : Nat)
          some <$> check (Calendar.Offset.ofMicros (if west then -micros else micros))
      return .moment (← check (Calendar.Moment.ofFields stamp.year stamp.month stamp.day hour minute
        second micro offset))

private def base64Value (c : Char) : Option Nat :=
  if 'A' ≤ c && c ≤ 'Z' then some (c.toNat - 0x41)
  else if 'a' ≤ c && c ≤ 'z' then some (c.toNat - 0x47)
  else if Text.isAsciiDigit c then some (c.toNat + 4)
  else if c == '+' then some 62
  else if c == '/' then some 63
  else none

/-- Read bytes from groups of four characters for three bytes. Other characters are passed over,
and marks that fill a group end the text. `place` is the place in the group, `bits` what the last
character left over, and `fill` the number of filling marks. -/
def base64From (place bits fill : Nat) : List Char → Option (List UInt8)
  | [] => if place = 0 then some [] else none
  | c :: rest =>
    if c == '=' then
      if 2 ≤ place && 4 ≤ place + fill + 1 then some []
      else base64From place bits (if 2 ≤ place then fill + 1 else fill) rest
    else
      match base64Value c with
      | none => base64From place bits fill rest
      | some value =>
        let byte (n : Nat) := UInt8.ofNat (n % 256)
        match place with
        | 0 => base64From 1 value 0 rest
        | 1 => (base64From 2 (value % 16) 0 rest).map (byte (bits * 4 + value / 16) :: ·)
        | 2 => (base64From 3 (value % 4) 0 rest).map (byte (bits * 16 + value / 4) :: ·)
        | _ => (base64From 0 0 0 rest).map (byte (bits * 64 + value) :: ·)

/-! ## Errors in order of depth -/

/-- An error and the depth at which it is found. -/
structure Fault where
  depth : Nat
  error : LoadError

/-- Two results; of two errors the one of lesser depth, and of those of one depth the first. -/
def both {α β : Type} (first : Except Fault α) (second : Except Fault β) :
    Except Fault (α × β) :=
  match first, second with
  | .ok a, .ok b => .ok (a, b)
  | .ok _, .error f => .error f
  | .error f, .ok _ => .error f
  | .error f, .error g => .error (if g.depth < f.depth then g else f)

/-! ## Collections -/

mutual

/-- The text of a node that is read as a scalar: its own, or that of the default entry. -/
def Node.scalarText : Node → Except LoadError LooseText
  | .scalar _ text => .ok text
  | .mapping _ entries => scalarOfEntries entries
  | .sequence _ _ => .error .malformed
  | .enclosing collection =>
    .error (if collection.isDefault then .scalar .endless else .malformed)

/-- The text of the default entry of a mapping. -/
def scalarOfEntries : List (Node × Node) → Except LoadError LooseText
  | [] => .error .malformed
  | (key, value) :: rest =>
    if key.tag? == some .default then value.scalarText else scalarOfEntries rest

end

/-- The default key as the key of a mapping that is read as such. -/
def Node.asKey : Node → Node
  | .scalar .default text => .scalar .str text
  | .sequence .default items => .sequence .str items
  | .mapping .default entries => .mapping .str entries
  | node => node

mutual

/-- The entries that a node contributes where it is merged. -/
def Node.merged : Node → Option (List (Node × Node))
  | .mapping _ entries => flatten entries
  | .sequence _ items => mergedItems items
  | .enclosing _ => some []
  | .scalar _ _ => none

/-- The entries that the mappings of a sequence contribute; the last come first. -/
def mergedItems : List Node → Option (List (Node × Node))
  | [] => some []
  | .mapping _ entries :: rest => do
    let own ← flatten entries
    let following ← mergedItems rest
    return following ++ own
  | .enclosing { isMapping := true, .. } :: rest => mergedItems rest
  | _ :: _ => none

/-- The entries of a mapping with those merged into it, which come first. -/
def flatten (entries : List (Node × Node)) : Option (List (Node × Node)) := do
  let (merged, own) ← parted entries
  return merged ++ own

/-- The entries merged into a mapping and its own. -/
def parted : List (Node × Node) → Option (List (Node × Node) × List (Node × Node))
  | [] => some ([], [])
  | (key, value) :: rest =>
    if key.tag? == some .merge then do
      let more ← value.merged
      let (merged, own) ← parted rest
      return (more ++ merged, own)
    else do
      let (merged, own) ← parted rest
      return (merged, (key.asKey, value) :: own)

end

mutual

/-- The number of nodes from the root of a tree to its deepest node. -/
def Node.height : Node → Nat
  | .scalar _ _ | .enclosing _ => 1
  | .sequence _ items => 1 + itemsHeight items
  | .mapping _ entries => 1 + entriesHeight entries

/-- The greatest height of some nodes. -/
def itemsHeight : List Node → Nat
  | [] => 0
  | item :: rest => max item.height (itemsHeight rest)

/-- The greatest height of the keys and values of some entries. -/
def entriesHeight : List (Node × Node) → Nat
  | [] => 0
  | (key, value) :: rest => max (max key.height value.height) (entriesHeight rest)

end

/-- Build one value from several, keeping the order of their errors. -/
def buildAll {α β : Type} (build : α → Except Fault β) : List α → Except Fault (List β)
  | [] => .ok []
  | a :: rest => (both (build a) (buildAll build rest)).map fun (b, bs) => b :: bs

/-- Whether a tag names a type of collections. -/
def Tag.isCollection : Tag → Bool
  | .seq | .map | .set | .orderedMap | .pairs => true
  | _ => false

/-- Whether a node is a collection. -/
def Node.isCollection : Node → Bool
  | .enclosing _ => true
  | .scalar tag _ | .sequence tag _ | .mapping tag _ => tag.isCollection

/-- What a collection is filled with. -/
inductive Part where
  | item (node : Node)
  | entry (key value : Node)
  /-- What may not stand in the collection. -/
  | unfit

/-- An entry of a mapping, whose key is no collection. -/
def Part.ofEntry (entry : Node × Node) : Part :=
  if entry.1.isCollection then .unfit else .entry entry.1 entry.2

/-- An item of a sequence of pairs, which is a mapping of one entry. -/
def Part.ofPair : Node → Part
  | .mapping _ [(key, value)] => .entry key value
  | _ => .unfit

/-- What a node is filled with. -/
def Node.parts : Node → List Part
  | .sequence .seq items => items.map .item
  | .sequence .orderedMap items | .sequence .pairs items => items.map .ofPair
  | .mapping .map entries | .mapping .set entries =>
    match flatten entries with
    | some entries => entries.map .ofEntry
    | none => [.unfit]
  | .enclosing _ => []
  | _ => [.unfit]

/-- The collection with the given contents, where an entry is given as a pair. -/
def collect (tag : Tag) (contents : List Value) : Value :=
  let add (entries : List (Value × Value)) : Value → List (Value × Value)
    | .pair key value => Value.insertEntry entries key value
    | _ => entries
  let entries := contents.foldl add []
  match tag with
  | .map => .mapping entries
  | .set => .set (entries.map (·.1))
  | _ => .list contents

/-- Read the text of a node. No type but that of texts knows halves of surrogate pairs. -/
def Node.read {α : Type} (reader : String → Except ScalarError α) (node : Node) :
    Except LoadError α := do
  (reader (← node.scalarText).shown).mapError .scalar

/-- The bytes that a text writes. -/
def readBytes (text : String) : Option (List UInt8) :=
  if text.toList.all fun c => c.toNat < 0x80 then base64From 0 0 0 text.toList else none

/-- The value of a node that is no collection. -/
def Node.scalarValue (node : Node) : Except LoadError Value :=
  match node.tag?.getD .unknown with
  | .null => node.scalarText.map fun _ => .null
  | .bool => (node.read readBool).map .bool
  | .int => (node.read readInt).map .int
  | .float => (node.read readFloat).map .real
  | .timestamp =>
    match node with
    | .mapping _ _ => node.read fun _ => .error .timestampEntry
    | _ => node.read readTimestamp
  | .str => node.scalarText.map .text
  | .binary => do
    match readBytes (← node.read .ok) with
    | some bytes => .ok (.bytes bytes)
    | none => .error .malformed
  | _ => .error .malformed

/-- Build a part of a collection, an entry as a pair. -/
def buildPart (depth : Nat) (build : Node → Except Fault Value) : Part → Except Fault Value
  | .item node => build node
  | .entry key value => (both (build key) (build value)).map fun (key, value) => .pair key value
  | .unfit => .error ⟨depth, .malformed⟩

/-- The value of a node at a depth. -/
def build : Nat → Nat → Node → Except Fault Value
  | 0, depth, _ => .error ⟨depth, .malformed⟩
  | fuel + 1, depth, node =>
    match node with
    | .enclosing collection => .ok (.cycle collection.isMapping)
    | _ =>
      if node.isCollection then
        (buildAll (buildPart (depth + 1) (build fuel (depth + 1))) node.parts).map
          (collect (node.tag?.getD .unknown))
      else node.scalarValue.mapError (Fault.mk depth)

/-- Why a text that cannot be read on gives no value. -/
def LoadError.ofScan : ScanError → LoadError
  | .malformed => .malformed
  | .noCodePoint code => .scalar (.codePoint code)
  | .tooLong digits => .scalar (.integerLength digits)

/-- The value of a metadata text; an empty text gives the empty value. -/
def load (text : String) : Except LoadError Value := do
  match ← (Node.ofTokens (.ofText text.toList)).mapError .ofScan with
  | none => return .null
  | some node => (build (node.height + 1) 0 node).mapError Fault.error

end Manuscript.Yaml
