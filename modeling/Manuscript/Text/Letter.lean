/-! # Letter case

Case is compared on plain letters. Some letters outside plain text have a
capital form made of plain letters, and count as those capitals where a name
is compared in capitals.
-/

namespace Manuscript.Text

/-- The capitals of a character as far as they are plain letters; other characters stay. -/
def capitals (c : Char) : List Char :=
  match c.toNat with
  | 0xdf => ['S', 'S']
  | 0x131 => ['I']
  | 0x17f => ['S']
  | 0xfb00 => ['F', 'F']
  | 0xfb01 => ['F', 'I']
  | 0xfb02 => ['F', 'L']
  | 0xfb03 => ['F', 'F', 'I']
  | 0xfb04 => ['F', 'F', 'L']
  | 0xfb05 => ['S', 'T']
  | 0xfb06 => ['S', 'T']
  | _ => [c.toUpper]

/-- A text in capitals, for comparison with names in plain capitals. -/
def capitalized (s : String) : String :=
  String.ofList (s.toList.flatMap capitals)

/-- A text in small letters, for comparison with names in plain small letters. -/
def lowered (cs : List Char) : List Char :=
  cs.map Char.toLower

end Manuscript.Text
