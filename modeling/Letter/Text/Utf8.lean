import Letter.Text.Coding
import Letter.Text.Hex

/-!
# UTF-8

Texts are stored as bytes in UTF-8.  Reading stops at the first byte that continues no
well-formed character and tells which bytes are at fault: the one that begins nothing, the
beginning of a character that is not continued, or one that the end of the bytes cuts off.
There are no bytes for a half of a pair, so a text that holds one is not stored.
-/

namespace Letter

/-- Why bytes are not the UTF-8 form of a text. -/
inductive Utf8Fault where
  /-- A byte begins no character. -/
  | invalidStart
  /-- A character that has begun is not continued. -/
  | invalidContinuation
  /-- The bytes end inside a character. -/
  | unexpectedEnd
  deriving DecidableEq, Repr

/-- A fault, and the bytes that are at fault. -/
structure Utf8Error where
  /-- What is wrong. -/
  fault : Utf8Fault
  /-- The number of bytes before the first one at fault. -/
  position : Nat
  /-- The first byte at fault. -/
  byte : UInt8
  /-- The number of bytes at fault. -/
  count : Nat
  deriving DecidableEq, Repr

/-- The words for a fault. -/
def Utf8Fault.words : Utf8Fault → String
  | invalidStart => "invalid start byte"
  | invalidContinuation => "invalid continuation byte"
  | unexpectedEnd => "unexpected end of data"

/-- The text of an error. -/
def Utf8Error.message (e : Utf8Error) : String :=
  let place :=
    if e.count = 1 then
      "byte 0x" ++ String.ofList (hexDigits 2 e.byte.toNat) ++ " in position "
        ++ toString e.position
    else
      "bytes in position " ++ toString e.position ++ "-"
        ++ toString (e.position + e.count - 1)
  "'utf-8' codec can't decode " ++ place ++ ": " ++ e.fault.words

/-- A text that holds halves of pairs: the first of them, and where they stand. -/
structure HalfError where
  /-- The code point of the first half. -/
  point : Nat
  /-- The number of characters before the first half. -/
  position : Nat
  /-- The number of halves in a row. -/
  count : Nat
  deriving DecidableEq, Repr

/-- The text of an error. -/
def HalfError.message (e : HalfError) : String :=
  let place :=
    if e.count = 1 then
      "character '\\u" ++ String.ofList (hexDigits 4 e.point) ++ "' in position "
        ++ toString e.position
    else
      "characters in position " ++ toString e.position ++ "-"
        ++ toString (e.position + e.count - 1)
  "'utf-8' codec can't encode " ++ place ++ ": surrogates not allowed"

namespace Utf8

/-- The bytes of a text, unless it holds half of a pair. -/
def encode (coding : Coding) (s : String) : Except HalfError (List UInt8) :=
  match s.toList.dropWhile fun c => !coding.standsForHalf c with
  | [] => .ok s.toUTF8.toList
  | c :: rest =>
    .error
      { point := coding.point c
        position := (s.toList.takeWhile fun c => !coding.standsForHalf c).length
        count := ((c :: rest).takeWhile coding.standsForHalf).length }

/-- The least and the greatest second byte after a first byte, which excludes characters
written with more bytes than needed, surrogates and what lies beyond the last plane. -/
def secondRange (first : Nat) : Nat × Nat :=
  if first = 0xE0 then (0xA0, 0xBF)
  else if first = 0xED then (0x80, 0x9F)
  else if first = 0xF0 then (0x90, 0xBF)
  else if first = 0xF4 then (0x80, 0x8F)
  else (0x80, 0xBF)

/-- The number of bytes after a first byte, for one that begins a character. -/
def following? (first : Nat) : Option Nat :=
  if first < 0x80 then some 0
  else if first < 0xC2 then none
  else if first < 0xE0 then some 1
  else if first < 0xF0 then some 2
  else if first < 0xF5 then some 3
  else none

/-- The bits of a first byte that belong to the code point. -/
def firstBits (first following : Nat) : Nat :=
  match following with
  | 0 => first
  | 1 => first % 0x20
  | 2 => first % 0x10
  | _ => first % 0x08

/-- What has been read of the character at hand. -/
structure Partial where
  /-- Its first byte. -/
  first : UInt8
  /-- The number of bytes before it. -/
  position : Nat
  /-- The number of its bytes that have been read. -/
  count : Nat
  /-- The number of its bytes still to be read. -/
  missing : Nat
  /-- The code point as far as it has been read. -/
  code : Nat

/-- The bytes at fault are those of the character at hand. -/
def Partial.error (p : Partial) (fault : Utf8Fault) : Utf8Error :=
  ⟨fault, p.position, p.first, p.count⟩

/-- The least and the greatest byte that continues the character at hand. -/
def Partial.nextRange (p : Partial) : Nat × Nat :=
  if p.count = 1 then secondRange p.first.toNat else (0x80, 0xBF)

/-- Reads bytes after `position` others, the last of which begin a character. -/
def decodeFrom (position : Nat) (part : Option Partial) :
    List UInt8 → Except Utf8Error (List Char)
  | [] =>
    match part with
    | none => .ok []
    | some p => .error (p.error .unexpectedEnd)
  | b :: rest =>
    match part with
    | none =>
      match following? b.toNat with
      | none => .error ⟨.invalidStart, position, b, 1⟩
      | some 0 => (decodeFrom (position + 1) none rest).map (Char.ofNat b.toNat :: ·)
      | some n =>
        decodeFrom (position + 1) (some ⟨b, position, 1, n, firstBits b.toNat n⟩) rest
    | some p =>
      if b.toNat < p.nextRange.1 || p.nextRange.2 < b.toNat then
        .error (p.error .invalidContinuation)
      else
        let code := p.code * 0x40 + b.toNat % 0x40
        if p.missing ≤ 1 then
          (decodeFrom (position + 1) none rest).map (Char.ofNat code :: ·)
        else
          decodeFrom (position + 1)
            (some { p with count := p.count + 1, missing := p.missing - 1, code }) rest

/-- The text of bytes in UTF-8. -/
def decode (bytes : List UInt8) : Except Utf8Error (List Char) := decodeFrom 0 none bytes

end Utf8

end Letter
