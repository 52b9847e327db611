import Manuscript.Text.Blank
import Manuscript.Text.Quoted

/-! # Loose texts

A loose text is a sequence of code points. Most of them are characters, but
escapes can also name the halves of surrogate pairs one by one. A half stands for
no character, so that a text which holds one has no encoding. Messages show halves
by their numbers, like characters that are not printable.
-/

namespace Manuscript

/-- A code point: a character, or half of a surrogate pair, told by its place among the halves. -/
inductive CodePoint where
  | char (c : Char)
  | half (place : Fin 0x800)
  deriving DecidableEq, Repr

namespace CodePoint

def toNat : CodePoint → Nat
  | char c => c.toNat
  | half place => 0xd800 + place

/-- The code point of a number that has one. -/
def ofNat (n : Nat) : CodePoint :=
  if h : 0xd800 ≤ n ∧ n < 0xe000 then half ⟨n - 0xd800, by omega⟩ else char (Char.ofNat n)

def isHalf : CodePoint → Bool
  | char _ => false
  | half _ => true

/-- The character that a code point stands for; a half counts as one that is not known. -/
def shown : CodePoint → Char
  | char c => c
  | half _ => '\ufffd'

/-- One code point inside quotes. -/
def escaped (quote : Char) : CodePoint → List Char
  | char c => Text.escapeChar quote c
  | half place => '\\' :: 'u' :: Text.hexDigits 4 (half place).toNat

end CodePoint

/-- A text in which halves of surrogate pairs may stand alone. -/
structure LooseText where
  points : List CodePoint
  deriving DecidableEq, Repr

/-- Why a text has no encoding: the first of its halves, and how many of them stand in a row. -/
structure EncodingError where
  position : Nat
  code : Nat
  count : Nat
  deriving DecidableEq, Repr

def EncodingError.message (e : EncodingError) : String :=
  let what :=
    if e.count = 1 then
      "character '\\u" ++ String.ofList (Text.hexDigits 4 e.code) ++ s!"' in position {e.position}"
    else s!"characters in position {e.position}-{e.position + e.count - 1}"
  s!"'utf-8' codec can't encode {what}: surrogates not allowed"

namespace LooseText

/-- The loose text with the characters of a text. -/
def ofString (s : String) : LooseText := ⟨s.toList.map .char⟩

instance : Coe String LooseText := ⟨ofString⟩

def isEmpty (text : LooseText) : Bool := text.points.isEmpty

/-- How many code points a text has. -/
def length (text : LooseText) : Nat := text.points.length

/-- The text with every half shown as a character that is not known. -/
def shown (text : LooseText) : String := String.ofList (text.points.map CodePoint.shown)

/-- The quoted form of a text. -/
def quoted (text : LooseText) : String :=
  let quote := Text.quoteFor text.shown.toList
  String.ofList (quote :: text.points.flatMap (CodePoint.escaped quote) ++ [quote])

/-- Drop the spaces, and only the spaces, that a text starts with. -/
def dropSpaces (text : LooseText) : LooseText := ⟨text.points.dropWhile (· == .char ' ')⟩

/-- Whether a text comes before another one in the order of their code points. -/
def precedes (first second : LooseText) : Bool := before first.points second.points
where
  before : List CodePoint → List CodePoint → Bool
    | _, [] => false
    | [], _ :: _ => true
    | a :: as, b :: bs => a.toNat < b.toNat || (a == b && before as bs)

/-- Why a text has no encoding, if it has none. -/
def fault? (text : LooseText) : Option EncodingError :=
  match text.points.dropWhile (!·.isHalf) with
  | [] => none
  | first :: rest => some {
      position := (text.points.takeWhile (!·.isHalf)).length
      code := first.toNat
      count := (rest.takeWhile (·.isHalf)).length + 1 }

@[simp] theorem shown_ofString (s : String) : (ofString s).shown = s := by
  simp [shown, ofString, Function.comp_def, CodePoint.shown]

@[simp] theorem isEmpty_ofString (s : String) : (ofString s).isEmpty = s.isEmpty := by
  rw [Bool.eq_iff_iff, String.isEmpty_iff, isEmpty, ofString, List.isEmpty_map, List.isEmpty_iff,
    String.toList_eq_nil_iff]

theorem ofString_injective {s t : String} (h : ofString s = ofString t) : s = t := by
  rw [← shown_ofString s, h, shown_ofString]

end LooseText

end Manuscript
