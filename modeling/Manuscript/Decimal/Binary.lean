/-! # Double precision numbers as exact numbers

A finite double precision number is a sign and a whole number times a power of
two. This module takes a number apart into these and puts the quotient of two
whole numbers into the nearest number, where of two nearest ones the even one
is taken.
-/

namespace Manuscript.Decimal

/-- What a double precision number stands for: a whole number times a power of two, or one of the
values beyond numbers. -/
inductive Exact where
  | finite (negative : Bool) (mantissa : Nat) (exponent : Int)
  | infinite (negative : Bool)
  | undefined
  deriving DecidableEq, Repr

/-- Take a number apart. -/
def exact (x : Float) : Exact :=
  let bits := x.toBits.toNat
  let negative : Bool := Nat.pow 2 63 ≤ bits
  let field : Nat := bits / Nat.pow 2 52 % 2048
  let fraction : Nat := bits % Nat.pow 2 52
  if field = 2047 then if fraction = 0 then .infinite negative else .undefined
  else if field = 0 then .finite negative fraction (-1074)
  else .finite negative (Nat.pow 2 52 + fraction) ((field : Int) - 1075)

/-- The whole number nearest to a quotient, the even one of two that are equally near. -/
def roundQuotient (a b : Nat) : Nat :=
  let whole := a / b
  let left := a % b
  if 2 * left < b then whole
  else if b < 2 * left then whole + 1
  else if whole % 2 = 0 then whole else whole + 1

/-- The numerator and denominator of a quotient divided by a power of a base. -/
def scaleDown (base : Nat) (a b : Nat) (power : Int) : Nat × Nat :=
  if power < 0 then (a * Nat.pow base power.natAbs, b) else (a, b * Nat.pow base power.natAbs)

/-- The bits of the number nearest to a positive quotient. -/
def nearestBits (a b : Nat) : Nat :=
  if a = 0 then 0
  else
    let guess : Int := (a.log2 : Int) - b.log2 - 53
    let fits (q : Int) :=
      let (n, d) := scaleDown 2 a b q
      n < d * Nat.pow 2 53
    let q := if fits guess then guess else if fits (guess + 1) then guess + 1 else guess + 2
    let q := max q (-1074)
    let (n, d) := scaleDown 2 a b q
    let mantissa := roundQuotient n d
    let (mantissa, q) := if mantissa = Nat.pow 2 53 then (Nat.pow 2 52, q + 1) else (mantissa, q)
    if 971 < q then 2047 * Nat.pow 2 52
    else if mantissa < Nat.pow 2 52 then mantissa
    else (q + 1075).toNat * Nat.pow 2 52 + (mantissa - Nat.pow 2 52)

/-- The number nearest to a quotient with a sign. -/
def ofQuotient (negative : Bool) (a b : Nat) : Float :=
  Float.ofBits (UInt64.ofNat ((if negative then Nat.pow 2 63 else 0) + nearestBits a b))

/-- The infinite number with a sign. -/
def infinity (negative : Bool) : Float :=
  Float.ofBits (UInt64.ofNat ((if negative then Nat.pow 2 63 else 0) + 2047 * Nat.pow 2 52))

/-- The undefined number. -/
def undefined : Float := Float.ofBits (UInt64.ofNat (2047 * Nat.pow 2 52 + Nat.pow 2 51))

/-- The number nearest to a whole number times a power of ten. -/
def ofDecimal (negative : Bool) (digits : Nat) (exponent : Int) : Float :=
  if digits = 0 then ofQuotient negative 0 1
  else
    let size : Int := (digits.log2 : Int) * 3 / 10 + exponent
    if 400 < size then infinity negative
    else if size < -400 then ofQuotient negative 0 1
    else
      let (a, b) := scaleDown 10 digits 1 (-exponent)
      ofQuotient negative a b

end Manuscript.Decimal
