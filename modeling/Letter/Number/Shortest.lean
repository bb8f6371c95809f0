import Letter.Number.Double

/-!
# The shortest decimal of a number

A number in double precision is written with the fewest digits that read back as the same
number; of several such decimals the nearest is taken, and of two equally near the one with
the even last digit.  Decimals from a ten-thousandth up to below `10 ^ 16` are written
positionally, with at least one place, and all others with an exponent.
-/

namespace Letter

/-- A decimal: `digits * 10 ^ scale`. -/
structure Decimal where
  /-- The digits, as a number. -/
  digits : Nat
  /-- The power of ten. -/
  scale : Int
  deriving DecidableEq, Repr

namespace Decimal

/-- The digits, without zeros at the end. -/
def digitText (d : Decimal) : List Char :=
  ((toString d.digits).toList.reverse.dropWhile (· = '0')).reverse

/-- The number of places that the first digit stands before the point. -/
def pointPlace (d : Decimal) : Int := ((toString d.digits).length : Int) + d.scale

/-- A number of zeros. -/
def zeros (n : Nat) : List Char := List.replicate n '0'

/-- Digits with the point after a number of them, which may be negative, and with at least
one digit on each side of it. -/
def positional (digits : List Char) (point : Int) : List Char :=
  let whole := digits.take point.toNat ++ zeros (point.toNat - digits.length)
  let places := zeros (-point).toNat ++ digits.drop point.toNat
  (if whole.isEmpty then ['0'] else whole) ++ '.' :: (if places.isEmpty then ['0'] else places)

/-- Digits with the point after the first one, and an exponent of at least two digits. -/
def scientific (digits : List Char) (exponent : Int) : List Char :=
  let fraction := if digits.length ≤ 1 then [] else '.' :: digits.drop 1
  let power := (toString exponent.natAbs).toList
  digits.take 1 ++ fraction ++ ['e', if exponent < 0 then '-' else '+']
    ++ zeros (2 - power.length) ++ power

/-- The text of a decimal that is not zero. -/
def text (d : Decimal) : List Char :=
  if -4 < d.pointPlace && d.pointPlace ≤ 16 then positional d.digitText d.pointPlace
  else scientific d.digitText (d.pointPlace - 1)

end Decimal

namespace Double

/-- The ends of the interval that reads as a positive number, in units of a quarter of its
last bit.  Below a power of two the numbers lie twice as close. -/
def interval (significand : Nat) (exponent : Int) : Nat × Nat :=
  (4 * significand - (if significand = Nat.pow 2 52 && minExponent < exponent then 1 else 2),
   4 * significand + 2)

/-- Whether a decimal reads as a positive number: it lies between the ends of its interval,
which belong to it if the significand is even. -/
def readsAs (significand : Nat) (exponent : Int) (d : Decimal) : Bool :=
  let (low, high) := interval significand exponent
  let (n, m) := scaled 10 d.digits 1 d.scale
  let (u, v) := scaled 2 1 1 (exponent - 2)
  if significand % 2 = 0 then low * u * m ≤ n * v && n * v ≤ high * u * m
  else low * u * m < n * v && n * v < high * u * m

/-- The decimal nearest to a fraction among those of a scale that read as a number. -/
def nearest? (significand : Nat) (exponent : Int) (scale : Int) : Option Decimal :=
  let (n, d) := scaled 2 significand 1 exponent
  let (n, d) := scaled 10 n d (-scale)
  let below : Decimal := ⟨n / d, scale⟩
  let above : Decimal := ⟨n / d + 1, scale⟩
  match readsAs significand exponent below, readsAs significand exponent above with
  | true, true => some ⟨roundQuotient n d, scale⟩
  | true, false => some below
  | false, true => some above
  | false, false => none

/-- The number of places that the first digit of a positive number stands before the
point. -/
def pointPlace (significand : Nat) (exponent : Int) : Int :=
  let (n, d) := scaled 2 significand 1 exponent
  if d ≤ n then (toString (n / d)).length else 1 - ((toString (d / n)).length : Int)

/-- The shortest decimal of a positive number; seventeen digits are always enough. -/
def shortest (significand : Nat) (exponent : Int) : Decimal :=
  let place := pointPlace significand exponent
  ((List.range 17).findSome? fun (count : Nat) =>
    nearest? significand exponent (place - (count + 1))).getD ⟨significand, 0⟩

/-- The text of a number, given the word for a number beyond all others. -/
def text (infinity : String) (x : Double) : String :=
  match x with
  | infinite negative => (if negative then "-" else "") ++ infinity
  | finite negative significand exponent =>
    (if negative then "-" else "")
      ++ (if significand = 0 then "0.0"
          else String.ofList (shortest significand exponent).text)

end Double

end Letter
