import Manuscript.Text.Letter
import Manuscript.Text.Digit
import Manuscript.Text.Quoted

/-! # Written characters and addresses

In the address of a link a backslash before a punctuation mark stands for the
mark, and a reference by name or number stands for its character. The address
is then written with the characters that addresses may hold; every other
character is written by the bytes of its encoding.
-/

namespace Manuscript.Markdown

/-- A punctuation mark of plain text. -/
def isPunctuation (c : Char) : Bool :=
  let n := c.toNat
  (0x21 ≤ n && n ≤ 0x2f) || (0x3a ≤ n && n ≤ 0x40) || (0x5b ≤ n && n ≤ 0x60) ||
    (0x7b ≤ n && n ≤ 0x7e)

/-- The characters that have a name. -/
def namedCharacters : List (String × Char) := [
  ("amp", '&'), ("lt", '<'), ("gt", '>'), ("quot", '"'), ("apos", '\'')]

/-- The character with a number; there is a replacement for numbers of no character. -/
def numbered (n : Nat) : Char :=
  if n = 0 ∨ ¬ n.isValidChar then '\ufffd' else Char.ofNat n

/-- The character that a reference stands for, given what stands between the mark and the end. -/
def referred? : List Char → Option Char
  | '#' :: mark :: digits =>
    if mark == 'x' || mark == 'X' then
      if !digits.isEmpty && digits.length ≤ 6 && digits.all (Text.hexValue? · |>.isSome) then
        some (numbered (Text.valueInBase 16 digits))
      else none
    else if (mark :: digits).length ≤ 7 && (mark :: digits).all Text.isAsciiDigit then
      some (numbered (Text.decimalValue (mark :: digits)))
    else none
  | name => (namedCharacters.find? (·.1.toList == name)).map (·.2)

/-- The text up to a semicolon if only letters, digits and number signs stand before it. -/
def takeReference : List Char → Option (List Char × List Char)
  | ';' :: rest => some ([], rest)
  | c :: rest =>
    if c.isAlphanum || c == '#' then (takeReference rest).map fun (name, rest) => (c :: name, rest)
    else none
  | [] => none

/-- The text that a written text stands for, read with as many steps as it has characters. -/
def meantBy : Nat → List Char → List Char
  | _, [] => []
  | 0, cs => cs
  | steps + 1, '\\' :: c :: cs =>
    if isPunctuation c then c :: meantBy steps cs else '\\' :: meantBy steps (c :: cs)
  | steps + 1, '&' :: cs =>
    match takeReference cs with
    | some (name, rest) =>
      match referred? name with
      | some c => c :: meantBy steps rest
      | none => '&' :: meantBy steps cs
    | none => '&' :: meantBy steps cs
  | steps + 1, c :: cs => c :: meantBy steps cs

/-- Whether an address may hold a character. -/
def isAddressChar (c : Char) : Bool :=
  c.isAlphanum || "_.-~:/?#@!$&()*+,;=%".toList.contains c

/-- A character of an address as it is written. -/
def addressChar (c : Char) : List Char :=
  if isAddressChar c then [c]
  else
    (String.singleton c).toUTF8.toList.flatMap fun byte =>
      '%' :: (Text.hexDigits 2 byte.toNat).map Char.toUpper

/-- The written form of an address that stands for itself. -/
def plainAddress (meant : List Char) : String := String.ofList (meant.flatMap addressChar)

/-- The written form of the address that a text stands for. -/
def address (written : List Char) : String := plainAddress (meantBy written.length written)

end Manuscript.Markdown
