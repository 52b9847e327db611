import Manuscript.Decimal.Binary

/-! # Shortest decimal digits

The digits of a number are the fewest that read back as it. The numbers that
read back as a given one form an interval, which holds its ends if the
mantissa is even. For each count of digits the two neighbours of the number on
the grid of that many digits are tried; the first grid with a neighbour in the
interval gives the digits, the nearer neighbour if both are in it.
-/

namespace Manuscript.Decimal

/-- A positive decimal number: digits, the first of which is not zero, and the power of ten of the
first one. -/
structure Digits where
  value : Nat
  count : Nat
  power : Int
  deriving DecidableEq, Repr

/-- The power of ten of the first digit of a quotient. -/
def leadingPower (a b : Nat) : Int :=
  let guess : Int := ((a.log2 : Int) - b.log2) * 30103 / 100000
  let reaches (p : Int) :=
    let (n, d) := scaleDown 10 a b p
    d ≤ n
  if reaches (guess + 1) then guess + 1 else if reaches guess then guess
  else if reaches (guess - 1) then guess - 1 else guess - 2

/-- The numbers that read back as a mantissa times a power of two, as quotients: the lower end, the
upper end and the number itself, all over one denominator. -/
structure Interval where
  low : Nat
  high : Nat
  centre : Nat
  denominator : Nat
  closed : Bool

/-- The interval of a mantissa and an exponent. -/
def interval (mantissa : Nat) (exponent : Int) : Interval :=
  let narrow := mantissa = Nat.pow 2 52 ∧ -1074 < exponent
  let (unit, denominator) := scaleDown 2 1 1 (2 - exponent)
  { low := (4 * mantissa - if narrow then 1 else 2) * unit
    high := (4 * mantissa + 2) * unit
    centre := 4 * mantissa * unit
    denominator
    closed := mantissa % 2 = 0 }

/-- Whether a whole number times a power of ten reads back as the number of an interval. -/
def Interval.holds (range : Interval) (value : Nat) (power : Int) : Bool :=
  let (n, d) := scaleDown 10 value 1 (-power)
  let point := n * range.denominator
  if range.closed then range.low * d ≤ point && point ≤ range.high * d
  else range.low * d < point && point < range.high * d

/-- The digits of a grid that read back as the number of an interval. -/
def Interval.onGrid (range : Interval) (first : Int) (count : Nat) : Option Digits :=
  let power := first - (count - 1 : Nat)
  let (n, d) := scaleDown 10 range.centre range.denominator power
  let below := n / d
  let twiceLeft := 2 * (n % d)
  let take (value : Nat) : Digits :=
    if value = Nat.pow 10 count then ⟨Nat.pow 10 (count - 1), count, first + 1⟩
    else ⟨value, count, first⟩
  match range.holds below power, range.holds (below + 1) power with
  | true, true =>
    if twiceLeft < d || (twiceLeft == d && below % 2 == 0) then some (take below)
    else some (take (below + 1))
  | true, false => some (take below)
  | false, true => some (take (below + 1))
  | false, false => none

/-- The shortest digits of a positive mantissa times a power of two. -/
def shortest (mantissa : Nat) (exponent : Int) : Digits :=
  let range := interval mantissa exponent
  let first := leadingPower range.centre range.denominator
  (((List.range 17).findSome? fun n => range.onGrid first (n + 1))).getD ⟨0, 1, 0⟩

end Manuscript.Decimal
