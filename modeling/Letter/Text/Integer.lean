import Letter.Text.Blank
import Letter.Text.DecimalDigit

/-!
# Integers as arguments

An integer is written with an optional sign and decimal digits of any script; single low
lines may stand between digits, and blanks around the whole, the ASCII separators excepted.
-/

namespace Letter

/-- The digits of a numeral in which single low lines may stand between digits. -/
def numeralDigits? : List Char → Option (List Char)
  | [] => none
  | [c] => if isDecimalDigit c then some [c] else none
  | c :: '_' :: s => if isDecimalDigit c then (numeralDigits? s).map (c :: ·) else none
  | c :: s => if isDecimalDigit c then (numeralDigits? s).map (c :: ·) else none

/-- The number written by a numeral of at most `maxDigits` digits. -/
def readNumeral? (s : List Char) : Option Nat := do
  let digits ← numeralDigits? s
  if maxDigits < digits.length then none else some (numeralValue digits)

/-- Whether a character may stand around an integer. -/
def surroundsInteger (c : Char) : Bool :=
  isBlank c && (c.toNat < 0x1C || 0x1F < c.toNat)

/-- The integer that a text writes. -/
def readInteger? (s : List Char) : Option Int :=
  match trim surroundsInteger s with
  | '-' :: s => (readNumeral? s).map fun n => -(n : Int)
  | '+' :: s => (readNumeral? s).map Int.ofNat
  | s => (readNumeral? s).map Int.ofNat

end Letter
