import Manuscript.Calendar.Reading
import Manuscript.Value

/-! # Title blocks

A title block holds what is known about a document as a whole: its title,
date, short name, authors, abstract and tags. It is built from a mapping of
metadata values, where fields of other names are passed over and a field that
is left out is empty.
-/

namespace Manuscript

/-- An author of a document. -/
structure Author where
  name : LooseText := ""
  affiliation : LooseText := ""
  email : LooseText := ""
  deriving DecidableEq, Repr

/-- What is known about a document as a whole. The tags are in order and distinct. -/
structure TitleBlock where
  title : LooseText := ""
  date : Option Calendar.Moment := none
  slug : LooseText := ""
  authors : List Author := []
  abstract : LooseText := ""
  tags : List LooseText := []
  deriving DecidableEq, Repr

/-- Why a mapping is no title block. -/
inductive FieldFault where
  /-- The date is of a type that holds no dates. -/
  | dateType (typeName : String)
  /-- The text of the date is not understood. -/
  | date (error : Calendar.ReadError)
  | authorsType (typeName : String)
  | authorType (typeName : String)
  | tagsType (typeName : String)
  /-- A whole number has too many digits to be written. -/
  | digits
  deriving DecidableEq, Repr

def FieldFault.message : FieldFault → String
  | .dateType typeName => "Cannot parse date from " ++ typeName
  | .date error => error.message
  | .authorsType typeName => "authors must be a list, got " ++ typeName
  | .authorType typeName => "author entries must be mappings, got " ++ typeName
  | .tagsType typeName => "tags must be a list, got " ++ typeName
  | .digits =>
    s!"Exceeds the limit ({Decimal.digitLimit} digits) for integer string conversion; use " ++
      "sys.set_int_max_str_digits() to increase the limit"

namespace TitleBlock

/-- Add a tag to tags in order. -/
def insertTag (tag : LooseText) : List LooseText → List LooseText
  | [] => [tag]
  | first :: rest =>
    if tag.precedes first then tag :: first :: rest
    else if tag == first then first :: rest
    else first :: insertTag tag rest

/-- The given tags in order, each once. -/
def tagsOf (tags : List LooseText) : List LooseText :=
  tags.foldl (fun known tag => insertTag tag known) []

/-- The written form of a value. -/
def written (value : Value) : Except FieldFault LooseText :=
  if value.isWritable then .ok value.display else .error .digits

/-- The content of a text field. -/
def textOf : Value → Except FieldFault LooseText
  | .null => .ok ""
  | value => written value

/-- The moment that a value of a date field stands for. -/
def dateOf : Value → Except FieldFault Calendar.Moment
  | .moment m => .ok m
  | .date d => .ok d.midnight
  | .text s => (Calendar.read s).mapError .date
  | value => .error (.dateType value.typeName)

/-- The author that an entry of the list of authors stands for: a name or a mapping. -/
def authorOf : Value → Except FieldFault Author
  | .text name => .ok { name }
  | .mapping entries => do
    let name ← textOf (Value.field "name" entries)
    let affiliation ← textOf (Value.field "affiliation" entries)
    let email ← textOf (Value.field "email" entries)
    return { name, affiliation, email }
  | .cycle true => .ok {}
  | value => .error (.authorType value.typeName)

/-- The authors that a value stands for. -/
def authorsOf : Value → Except FieldFault (List Author)
  | .null => .ok []
  | .list items => items.mapM authorOf
  | .cycle false => .ok []
  | value => .error (.authorsType value.typeName)

/-- The tags that a value stands for: the parts of a text between commas, or the items of a list. -/
def tagListOf : Value → Except FieldFault (List LooseText)
  | .null => .ok []
  | .text s =>
    let parts := (Text.splitBy (· == .char ',') s.points).map
      (Text.trimBy fun point => Text.isBlank point.shown)
    .ok (tagsOf ((parts.filter (!·.isEmpty)).map LooseText.mk))
  | .list items => tagsOf <$> items.mapM written
  | .cycle false => .ok []
  | value => .error (.tagsType value.typeName)

/-- The date that a value stands for; nothing and the empty text stand for none. -/
def dateField : Value → Except FieldFault (Option Calendar.Moment)
  | .null => .ok none
  | .text s => if s.isEmpty then .ok none else some <$> dateOf (.text s)
  | value => some <$> dateOf value

/-- The title block with the fields of a mapping. -/
def ofEntries (entries : List (Value × Value)) : Except FieldFault TitleBlock := do
  let title ← textOf (Value.field "title" entries)
  let date ← dateField (Value.field "date" entries)
  let slug ← textOf (Value.field "slug" entries)
  let authors ← authorsOf (Value.field "authors" entries)
  let abstract ← textOf (Value.field "abstract" entries)
  let tags ← tagListOf (Value.field "tags" entries)
  return { title, date, slug, authors, abstract, tags }

end TitleBlock

end Manuscript
