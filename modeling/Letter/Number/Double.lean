/-!
# Numbers with a binary point

A number that is not whole is kept in double precision: a significand below `2 ^ 53` times
a power of two.  `Double.ofDecimal` takes the nearest such number to a decimal, the one
with the even significand where two are equally near.
-/

namespace Letter

/-- A number in double precision. -/
inductive Double where
  /-- The number `significand * 2 ^ exponent`, or its opposite. -/
  | finite (negative : Bool) (significand : Nat) (exponent : Int)
  /-- A number beyond all others. -/
  | infinite (negative : Bool)
  deriving DecidableEq, Repr

/-- The quotient of two natural numbers rounded to the nearest, of two equally near to the
even one. -/
def roundQuotient (n d : Nat) : Nat :=
  if 2 * (n % d) < d then n / d
  else if d < 2 * (n % d) then n / d + 1
  else n / d + n / d % 2

/-- A fraction with the power of a base split between its two terms. -/
def scaled (base n d : Nat) (exponent : Int) : Nat × Nat :=
  (n * base.pow exponent.toNat, d * base.pow (-exponent).toNat)

namespace Double

/-- The least exponent. -/
def minExponent : Int := -1074

/-- The greatest exponent. -/
def maxExponent : Int := 971

/-- The exponent with which the fraction of two positive numbers has a whole part of 53
bits, unless that is less than the least exponent. -/
def exponentOf (n d : Nat) : Int :=
  let estimate : Int := (n.log2 : Int) - d.log2 - 53
  let (n', d') := scaled 2 n d (-estimate)
  max minExponent (if n' / d' < Nat.pow 2 53 then estimate else estimate + 1)

/-- The number nearest to the fraction of two positive numbers. -/
def ofFraction (negative : Bool) (n d : Nat) : Double :=
  let exponent := exponentOf n d
  let (n', d') := scaled 2 n d (-exponent)
  let significand := roundQuotient n' d'
  let (significand, exponent) :=
    if significand = Nat.pow 2 53 then (Nat.pow 2 52, exponent + 1) else (significand, exponent)
  if maxExponent < exponent then infinite negative
  else finite negative significand exponent

/-- The number nearest to `digits * 10 ^ scale`, or to its opposite.  Decimals far outside
the range of all numbers are told by the place of their first digit. -/
def ofDecimal (negative : Bool) (digits : Nat) (scale : Int) : Double :=
  let place := ((toString digits).length : Int) + scale
  if digits = 0 || place < -400 then finite negative 0 0
  else if 400 < place then infinite negative
  else
    let (n, d) := scaled 10 digits 1 scale
    ofFraction negative n d

/-- Whether a number is zero. -/
def isZero : Double → Bool
  | finite _ significand _ => significand = 0
  | infinite _ => false

/-- A finite number as a fraction. -/
def fraction? : Double → Option (Int × Nat)
  | finite negative significand exponent =>
    let (n, d) := scaled 2 significand 1 exponent
    some (if negative then -(n : Int) else n, d)
  | infinite _ => none

end Double

end Letter
