/-! # Blank characters

The blank characters are the ones that separate words: the ASCII controls from
tab to carriage return and from file to unit separator, the space, and the
separators of the wider character set. Trimming and cutting into words are
defined from this one class.
-/

namespace Manuscript.Text

/-- A character that separates words. -/
def isBlank (c : Char) : Bool :=
  let n := c.toNat
  (0x09 ≤ n && n ≤ 0x0d) || (0x1c ≤ n && n ≤ 0x20) || n == 0x85 || n == 0xa0 || n == 0x1680 ||
    (0x2000 ≤ n && n ≤ 0x200a) || n == 0x2028 || n == 0x2029 || n == 0x202f || n == 0x205f ||
    n == 0x3000

/-- Drop the trailing elements that satisfy a test. -/
def dropTrailing {α : Type} (drop : α → Bool) (cs : List α) : List α :=
  (cs.reverse.dropWhile drop).reverse

/-- Drop the elements that satisfy a test from both ends. -/
def trimBy {α : Type} (drop : α → Bool) (cs : List α) : List α :=
  dropTrailing drop (cs.dropWhile drop)

/-- Drop blank characters from both ends. -/
def trim (s : String) : String :=
  String.ofList (trimBy isBlank s.toList)

/-- Drop the spaces, and only the spaces, that a text starts with. -/
def dropSpaces (s : String) : String :=
  String.ofList (s.toList.dropWhile (· == ' '))

/-- Cut at every element that satisfies a test; `n` cuts give `n + 1` parts. -/
def splitBy {α : Type} (cut : α → Bool) : List α → List (List α)
  | [] => [[]]
  | c :: cs =>
    match splitBy cut cs with
    | [] => [[c]]
    | part :: parts => if cut c then [] :: part :: parts else (c :: part) :: parts

theorem splitBy_ne_nil {α : Type} (cut : α → Bool) (cs : List α) : splitBy cut cs ≠ [] := by
  cases cs with
  | nil => simp [splitBy]
  | cons c cs =>
    unfold splitBy
    split
    · simp
    · split <;> simp

/-- The maximal runs of characters that are not blank. -/
def words (s : String) : List String :=
  ((splitBy isBlank s.toList).filter (!·.isEmpty)).map String.ofList

/-- One space between words and none around them. -/
def collapse (s : String) : String :=
  " ".intercalate (words s)

end Manuscript.Text
