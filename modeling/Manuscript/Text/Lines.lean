/-! # Lines of a text

A line ends after a line feed, a carriage return, the pair of the two, a
vertical tab, a form feed, a file, group or record separator, a next line
character, or a line or paragraph separator. The lines keep their ends, so
that joining them gives the text back (`flatten_lines`).
-/

namespace Manuscript.Text

/-- A character that ends a line by itself. -/
def isLineEnd (c : Char) : Bool :=
  let n := c.toNat
  (0x0a ≤ n && n ≤ 0x0d) || (0x1c ≤ n && n ≤ 0x1e) || n == 0x85 || n == 0x2028 || n == 0x2029

/-- Cut a text after each line end; a carriage return and the line feed after it end one line. -/
def lines : List Char → List (List Char)
  | [] => []
  | '\r' :: '\n' :: cs => ['\r', '\n'] :: lines cs
  | c :: cs =>
    if isLineEnd c then [c] :: lines cs
    else
      match lines cs with
      | [] => [[c]]
      | line :: rest => (c :: line) :: rest

theorem flatten_lines (cs : List Char) : (lines cs).flatten = cs := by
  fun_induction lines cs with
  | case1 => rfl
  | case2 cs ih => simp [ih]
  | case3 c cs _ _ ih => simp [ih]
  | case4 c cs _ _ h ih => rw [h] at ih; simp [← ih]
  | case5 c cs _ _ line rest h ih => rw [h] at ih; simp [← ih]

end Manuscript.Text
