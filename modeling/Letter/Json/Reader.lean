import Letter.Json.Basic

/-!
# Reading scalars from JSON

What JSON writes for a scalar is read from the beginning of a text: `Json.readScalar?` gives the
scalar and what follows it.  Halves of a pair that stand next to each other are read as the
character of which they are halves.
-/

namespace Letter

namespace Json

/-! ### Texts -/

/-- The value of a digit in base sixteen. -/
def hexValue? (c : Char) : Option Nat :=
  if '0' ≤ c && c ≤ '9' then some (c.toNat - '0'.toNat)
  else if 'a' ≤ c && c ≤ 'f' then some (c.toNat - 'a'.toNat + 10)
  else if 'A' ≤ c && c ≤ 'F' then some (c.toNat - 'A'.toNat + 10)
  else none

/-- The number written by digits in base sixteen. -/
def hexNumber? (digits : List Char) : Option Nat :=
  digits.foldlM (fun n c => (hexValue? c).map (n * 16 + ·)) 0

/-- The character that an escape of one letter stands for. -/
def escaped? : Char → Option Char
  | '"' => some '"'
  | '\\' => some '\\'
  | '/' => some '/'
  | 'b' => some '\x08'
  | 'f' => some '\x0c'
  | 'n' => some '\n'
  | 'r' => some '\r'
  | 't' => some '\t'
  | _ => none

/-- The code points and units up to the closing quote, given those before, last first, and
what follows the quote. -/
def textUnits (before : List Nat) : List Char → Option (List Nat × List Char)
  | [] => none
  | '"' :: s => some (before.reverse, s)
  | '\\' :: 'u' :: a :: b :: c :: d :: s =>
    match hexNumber? [a, b, c, d] with
    | some n => textUnits (n :: before) s
    | none => none
  | '\\' :: c :: s =>
    match escaped? c with
    | some c => textUnits (c.toNat :: before) s
    | none => none
  | c :: s => if c.toNat < 0x20 then none else textUnits (c.toNat :: before) s

/-- The code points of units, two halves of a pair making one, given those before, last first. -/
def joinPairs (before : List Nat) : List Nat → List Nat
  | [] => before.reverse
  | [n] => (n :: before).reverse
  | high :: low :: s =>
    if isHighHalf high && isLowHalf low then
      joinPairs ((0x10000 + (high - 0xD800) * 0x400 + (low - 0xDC00)) :: before) s
    else joinPairs (high :: before) (low :: s)

/-- The text up to the closing quote, and what follows. -/
def readText? (coding : Coding) (s : List Char) : Option (String × List Char) :=
  (textUnits [] s).map fun (units, s) =>
    (String.ofList ((joinPairs [] units).map coding.char), s)

/-! ### Numbers -/

/-- Whether a character is a digit. -/
def isDigit (c : Char) : Bool := '0' ≤ c && c ≤ '9'

/-- The number written by digits. -/
def digitsValue (digits : List Char) : Nat :=
  digits.foldl (fun n c => n * 10 + (c.toNat - '0'.toNat)) 0

/-- Digits after a point, if a point comes first, and what follows. -/
def readPlaces? : List Char → Option (Option (List Char) × List Char)
  | '.' :: s =>
    if (s.takeWhile isDigit).isEmpty then none
    else some (some (s.takeWhile isDigit), s.dropWhile isDigit)
  | s => some (none, s)

/-- An exponent, if the letter for one comes first, and what follows. -/
def readExponent? : List Char → Option (Option Int × List Char)
  | c :: s =>
    if c = 'e' || c = 'E' then
      let (negative, s) :=
        match s with
        | '-' :: s => (true, s)
        | '+' :: s => (false, s)
        | s => (false, s)
      let n : Int := digitsValue (s.takeWhile isDigit)
      if (s.takeWhile isDigit).isEmpty then none
      else some (some (if negative then -n else n), s.dropWhile isDigit)
    else some (none, c :: s)
  | [] => some (none, [])

/-- A number, and what follows.  It is whole unless it has places or an exponent. -/
def readNumber? (s : List Char) : Option (Scalar × List Char) := do
  let (negative, s) :=
    match s with
    | '-' :: s => (true, s)
    | s => (false, s)
  let whole := s.takeWhile isDigit
  if whole.isEmpty || (whole.head? = some '0' && whole.length ≠ 1) then none
  else
    let (places, s) ← readPlaces? (s.dropWhile isDigit)
    let (exponent, s) ← readExponent? s
    match places, exponent with
    | none, none =>
      let n : Int := digitsValue whole
      return (.integer (if negative then -n else n), s)
    | places, exponent =>
      let places := places.getD []
      let scale := exponent.getD 0 - places.length
      return (.double (.ofDecimal negative (digitsValue (whole ++ places)) scale), s)

/-! ### Scalars -/

/-- A value that is neither a list nor an object, and what follows. -/
def readScalar? (coding : Coding) : List Char → Option (Scalar × List Char)
  | '"' :: s => (readText? coding s).map fun (t, s) => (.text t, s)
  | 'n' :: 'u' :: 'l' :: 'l' :: s => some (.null, s)
  | 't' :: 'r' :: 'u' :: 'e' :: s => some (.boolean true, s)
  | 'f' :: 'a' :: 'l' :: 's' :: 'e' :: s => some (.boolean false, s)
  | s => readNumber? s

end Json

end Letter
