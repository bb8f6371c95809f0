import Letter.Number.Shortest
import Letter.Text.Coding
import Letter.Text.Quoted

/-!
# Scalar values

The values without parts of the interchange form: nothing, a truth value, a number or a
text.  A scalar has two written forms: the one of JSON, in ASCII alone, and the literal
form that messages use.

In JSON a half of a pair that stands alone is written like the same half of a character, so
that two halves next to each other are written like the character of which they are halves.
-/

namespace Letter

/-- A value without parts. -/
inductive Scalar where
  | null
  | boolean (b : Bool)
  | integer (n : Int)
  | double (x : Double)
  | text (s : String)
  deriving DecidableEq, Repr

namespace Scalar

/-- The word for the type of a scalar. -/
def typeName : Scalar → String
  | null => "NoneType"
  | boolean _ => "bool"
  | integer _ => "int"
  | double _ => "float"
  | text _ => "str"

/-- Whether a scalar counts as true: zero, the empty text and nothing do not. -/
def truth : Scalar → Bool
  | null => false
  | boolean b => b
  | integer n => n ≠ 0
  | double x => !x.isZero
  | text s => s ≠ ""

/-- The finite number that a scalar stands for, as a fraction; the truth values stand for
one and zero. -/
def fraction? : Scalar → Option (Int × Nat)
  | boolean b => some (if b then 1 else 0, 1)
  | integer n => some (n, 1)
  | double x => x.fraction?
  | null | text _ => none

/-- Whether two scalars are the same number, the same text or both nothing. -/
def same (a b : Scalar) : Bool :=
  match a.fraction?, b.fraction? with
  | some (m, i), some (n, j) => m * j = n * i
  | none, none => a = b
  | _, _ => false

/-- The literal form of a scalar. -/
def literal : Scalar → String
  | null => "None"
  | boolean true => "True"
  | boolean false => "False"
  | integer n => toString n
  | double x => x.text "inf"
  | text s => quoted s

/-- How a scalar is written where no quotes are wanted. -/
def plain : Scalar → String
  | text s => s
  | other => other.literal

/-! ### JSON -/

/-- The JSON escape of a unit of sixteen bits. -/
def jsonUnit (n : Nat) : List Char := '\\' :: 'u' :: hexDigits 4 n

/-- How JSON writes a code point by its number: as two units beyond the basic plane. -/
def jsonPoint (n : Nat) : List Char :=
  if n < 0x10000 then jsonUnit n
  else jsonUnit (0xD800 + (n - 0x10000) / 0x400) ++ jsonUnit (0xDC00 + (n - 0x10000) % 0x400)

/-- How JSON writes a character inside quotes, in ASCII. -/
def jsonChar (coding : Coding) (c : Char) : List Char :=
  if c = '"' || c = '\\' then ['\\', c]
  else if c = '\n' then ['\\', 'n']
  else if c = '\r' then ['\\', 'r']
  else if c = '\t' then ['\\', 't']
  else if c = '\x08' then ['\\', 'b']
  else if c = '\x0c' then ['\\', 'f']
  else if 0x20 ≤ c.toNat && c.toNat < 0x7F then [c]
  else jsonPoint (coding.point c)

/-- The JSON form of a text. -/
def jsonText (coding : Coding) (s : String) : String :=
  String.ofList ('"' :: s.toList.flatMap (jsonChar coding) ++ ['"'])

/-- The JSON form of a scalar. -/
def json (coding : Coding) : Scalar → String
  | null => "null"
  | boolean true => "true"
  | boolean false => "false"
  | integer n => toString n
  | double x => x.text "Infinity"
  | text s => jsonText coding s

end Scalar

end Letter
