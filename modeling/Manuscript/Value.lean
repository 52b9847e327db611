import Manuscript.Calendar.Moment
import Manuscript.Decimal.Notation
import Manuscript.Text.Loose

/-! # Metadata values

A value is what a field of a document's metadata may hold: nothing, a truth
value, a number, a text, a date, or a collection of values. A value has a type
name, by which messages call it, and two written forms: `display` shows a text
or a date as it is, while `literal` quotes texts and spells dates out, as it is
also done inside collections.
-/

namespace Manuscript

/-- A value of a metadata field. -/
inductive Value where
  | null
  | bool (b : Bool)
  | int (n : Int)
  | real (x : Float)
  | text (s : LooseText)
  | date (d : Calendar.Date)
  | moment (m : Calendar.Moment)
  | bytes (b : List UInt8)
  | list (items : List Value)
  | pair (first second : Value)
  | set (members : List Value)
  | mapping (entries : List (Value × Value))
  /-- A collection that stands inside itself; the flag says whether it is a mapping. -/
  | cycle (isMapping : Bool)

instance : Inhabited Value := ⟨.null⟩

namespace Value

/-- The name by which messages call the type of a value. -/
def typeName : Value → String
  | null => "NoneType"
  | bool _ => "bool"
  | int _ => "int"
  | real _ => "float"
  | text _ => "str"
  | date _ => "date"
  | moment _ => "datetime"
  | bytes _ => "bytes"
  | list _ => "list"
  | pair _ _ => "tuple"
  | set _ => "set"
  | mapping _ => "dict"
  | cycle isMapping => if isMapping then "dict" else "list"

/-- A date spelled out. -/
def dateLiteral (d : Calendar.Date) : String :=
  s!"datetime.date({d.year}, {d.month}, {d.day})"

/-- A duration spelled out by those of its days, seconds and microseconds that are not zero. -/
def durationLiteral (micros : Int) : String :=
  let (days, seconds, rest) := Calendar.durationParts micros
  let part (name : String) (n : Int) := if n = 0 then [] else [s!"{name}={n}"]
  let parts := part "days" days ++ part "seconds" seconds ++ part "microseconds" rest
  "datetime.timedelta(" ++ (if parts.isEmpty then "0" else ", ".intercalate parts) ++ ")"

/-- An offset spelled out. -/
def offsetLiteral (offset : Calendar.Offset) : String :=
  if offset.micros = 0 then "datetime.timezone.utc"
  else s!"datetime.timezone({durationLiteral offset.micros})"

/-- A moment spelled out; seconds and microseconds are left out if all that follows is zero. -/
def momentLiteral (m : Calendar.Moment) : String :=
  let clock := m.clock
  let fields := [m.date.year, m.date.month, m.date.day, clock.hour, clock.minute] ++
    if clock.micro ≠ 0 then [clock.second, clock.micro]
    else if clock.second ≠ 0 then [clock.second]
    else []
  let zone := (m.offset.map fun offset => ["tzinfo=" ++ offsetLiteral offset]).getD []
  "datetime.datetime(" ++ ", ".intercalate (fields.map toString ++ zone) ++ ")"

/-- Bytes in quotes; those that are no plain printable character are written in hexadecimal. -/
def bytesLiteral (bs : List UInt8) : String :=
  let cs := bs.map fun b => Char.ofNat b.toNat
  let quote := Text.quoteFor cs
  let escape (c : Char) : List Char :=
    if c.toNat < 0x7f then Text.escapeChar quote c else '\\' :: 'x' :: Text.hexDigits 2 c.toNat
  "b" ++ String.ofList (quote :: cs.flatMap escape ++ [quote])

mutual

/-- The written form of a value inside a collection. -/
def literal : Value → String
  | null => "None"
  | bool b => if b then "True" else "False"
  | int n => toString n
  | real x => Decimal.write x
  | text s => s.quoted
  | date d => dateLiteral d
  | moment m => momentLiteral m
  | bytes b => bytesLiteral b
  | list items => Text.bracketed (literals items)
  | pair first second => "(" ++ first.literal ++ ", " ++ second.literal ++ ")"
  | set members =>
    if members.isEmpty then "set()" else "\x7b" ++ ", ".intercalate (literals members) ++ "\x7d"
  | mapping entries => "\x7b" ++ ", ".intercalate (entryLiterals entries) ++ "\x7d"
  | cycle isMapping => if isMapping then "\x7b...\x7d" else "[...]"

/-- The written forms of values. -/
def literals : List Value → List String
  | [] => []
  | value :: rest => value.literal :: literals rest

/-- The written forms of the entries of a mapping. -/
def entryLiterals : List (Value × Value) → List String
  | [] => []
  | (key, value) :: rest => (key.literal ++ ": " ++ value.literal) :: entryLiterals rest

end

/-- The written form of a value as the content of a text field. -/
def display : Value → LooseText
  | text s => s
  | date d => d.iso
  | moment m => m.isoWith " "
  | value => value.literal

mutual

/-- Whether a value has a written form: no whole number in it has too many digits. -/
def isWritable : Value → Bool
  | int n => n.natAbs < Nat.pow 10 Decimal.digitLimit
  | list items => areWritable items
  | pair first second => first.isWritable && second.isWritable
  | set members => areWritable members
  | mapping entries => areEntriesWritable entries
  | _ => true

/-- Whether values have written forms. -/
def areWritable : List Value → Bool
  | [] => true
  | value :: rest => value.isWritable && areWritable rest

/-- Whether the entries of a mapping have written forms. -/
def areEntriesWritable : List (Value × Value) → Bool
  | [] => true
  | (key, value) :: rest => key.isWritable && value.isWritable && areEntriesWritable rest

end

/-- Whether a whole number and a double precision number are the same number. -/
def sameNumber (n : Int) (x : Float) : Bool :=
  match Decimal.exact x with
  | .finite negative mantissa exponent =>
    let (a, b) := Decimal.scaleDown 2 mantissa 1 (-exponent)
    let signed : Int := if negative then -(a : Int) else a
    n * b == signed
  | _ => false

/-- The whole number that a truth value or whole number stands for. -/
def wholeNumber? : Value → Option Int
  | bool b => some (if b then 1 else 0)
  | int n => some n
  | _ => none

/-- Whether a value counts as true: it is not nothing, not zero, and not empty. -/
def holds : Value → Bool
  | null => false
  | bool b => b
  | int n => n != 0
  | real x => x != 0
  | text s => !s.isEmpty
  | bytes b => !b.isEmpty
  | list items | set items => !items.isEmpty
  | mapping entries => !entries.isEmpty
  | date _ | moment _ | pair .. | cycle _ => true

/-- Whether two values are the same key of a mapping. Numbers are compared by value, and so are
moments with an offset. -/
def sameKey (first second : Value) : Bool :=
  match first, second with
  | null, null => true
  | text s, text t => s == t
  | date d, date e => d == e
  | moment m, moment n =>
    if m.offset.isSome && n.offset.isSome then m.absolute == n.absolute else m == n
  | bytes b, bytes c => b == c
  | real x, real y => x == y
  | real x, value | value, real x => (value.wholeNumber?.map (sameNumber · x)).getD false
  | _, _ =>
    match first.wholeNumber?, second.wholeNumber? with
    | some m, some n => m == n
    | _, _ => false

/-- Add an entry to a mapping; a key that is there keeps its place and takes the new value. -/
def insertEntry (entries : List (Value × Value)) (key value : Value) : List (Value × Value) :=
  if entries.any (sameKey key ·.1) then
    entries.map fun entry => if sameKey key entry.1 then (entry.1, value) else entry
  else entries ++ [(key, value)]

/-- The value of a field of a mapping, `null` if there is none. -/
def field (name : String) (entries : List (Value × Value)) : Value :=
  ((entries.find? fun entry => sameKey (text name) entry.1).map (·.2)).getD null

end Value

end Manuscript
