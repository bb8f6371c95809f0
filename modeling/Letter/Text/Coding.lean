/-!
# Codings

A text is kept as a row of code points.  Most of these are those of characters, but a text may
also hold halves of the pairs by which characters beyond the basic plane are written in units of
sixteen bits.  A half that stands alone is no character: here a character for private use stands
for it, as neither means anything to the grammar.  A coding says for which code point each
character of a text stands.  `Coding.plain` knows no halves, and in `Coding.shifted` there is a
character for every half.

No text is lost in a coding: `Coding.map_point_injective`.
-/

namespace Letter

/-- Whether a code point is the first half of a pair. -/
def isHighHalf (n : Nat) : Bool := 0xD800 ≤ n && n < 0xDC00

/-- Whether a code point is the second half of a pair. -/
def isLowHalf (n : Nat) : Bool := 0xDC00 ≤ n && n < 0xE000

/-- Whether a code point is half of a pair. -/
def isHalf (n : Nat) : Bool := 0xD800 ≤ n && n < 0xE000

/-- Whether a character is for private use. -/
def isPrivate (c : Char) : Bool :=
  (0xE000 ≤ c.toNat && c.toNat ≤ 0xF8FF) || (0xF0000 ≤ c.toNat && c.toNat ≤ 0xFFFFD)
    || (0x100000 ≤ c.toNat && c.toNat ≤ 0x10FFFD)

/-- For which code points the characters of a text stand. -/
structure Coding where
  /-- The code point for which a character stands. -/
  point : Char → Nat
  /-- The character that stands for a code point, if there is one. -/
  char : Nat → Char
  /-- Different characters stand for different code points. -/
  char_point : ∀ c, char (point c) = c
  /-- A character stands for itself, unless it is one for private use that stands for half of a
  pair. -/
  point_eq : ∀ c, point c = c.toNat ∨ isPrivate c = true ∧ isHalf (point c) = true

namespace Coding

/-- Each character stands for itself. -/
def plain : Coding where
  point := Char.toNat
  char := Char.ofNat
  char_point := Char.ofNat_toNat
  point_eq _ := .inl rfl

/-- Characters that follow the halves stand for them, at the same distance from each other. -/
def shifted : Coding where
  point c := if 0xE000 ≤ c.toNat ∧ c.toNat < 0xE800 then c.toNat - 0x800 else c.toNat
  char n := if isHalf n then Char.ofNat (n + 0x800) else Char.ofNat n
  char_point c := by
    have hvalid : c.toNat < 0xD800 ∨ 0xDFFF < c.toNat ∧ c.toNat < 0x110000 := c.valid
    split
    · next h =>
      have hsum : c.toNat - 0x800 + 0x800 = c.toNat := by omega
      rw [if_pos (by simp only [isHalf, Bool.and_eq_true, decide_eq_true_eq]; omega), hsum,
        Char.ofNat_toNat]
    · rw [if_neg (by simp only [isHalf, Bool.and_eq_true, decide_eq_true_eq]; omega),
        Char.ofNat_toNat]
  point_eq c := by
    simp only [isPrivate, isHalf, Bool.or_eq_true, Bool.and_eq_true, decide_eq_true_eq]
    split <;> omega

variable (coding : Coding)

/-- Whether a character stands for half of a pair. -/
def standsForHalf (c : Char) : Bool := isHalf (coding.point c)

/-- A character that is not for private use stands for itself. -/
theorem point_eq_toNat {c : Char} (h : isPrivate c = false) :
  coding.point c = c.toNat
  := by
  obtain hpoint | ⟨hprivate, -⟩ := coding.point_eq c
  · exact hpoint
  · rw [h] at hprivate
    cases hprivate

theorem point_lt (c : Char) :
  coding.point c < 0x110000
  := by
  have hvalid : c.toNat < 0xD800 ∨ 0xDFFF < c.toNat ∧ c.toNat < 0x110000 := c.valid
  obtain hpoint | ⟨-, hhalf⟩ := coding.point_eq c
  · omega
  · simp only [isHalf, Bool.and_eq_true, decide_eq_true_eq] at hhalf
    omega

/-- Texts are told apart by their code points. -/
theorem map_point_injective :
  Function.Injective (List.map coding.point)
  := by
  intro s t h
  have hchars := congrArg (List.map coding.char) h
  simpa [Function.comp_def, coding.char_point] using hchars

end Coding

end Letter
