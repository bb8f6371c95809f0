import Letter.Text.Ranges

/-!
# Blank characters

The characters that separate words without being written: the ASCII blanks and
separators, the next-line control, the no-break space and the Unicode spaces of other
widths, twenty-nine in all.  A space of no width is not among them.
-/

namespace Letter

/-- The ranges of the blank characters. -/
def blankRanges : Ranges :=
  [(9, 0xD), (0x1C, 0x20), (0x85, 0x85), (0xA0, 0xA0), (0x1680, 0x1680), (0x2000, 0x200A),
   (0x2028, 0x2029), (0x202F, 0x202F), (0x205F, 0x205F), (0x3000, 0x3000)]

theorem blankRanges_ascending :
  blankRanges.ascending = true
  := by decide

/-- Whether a character is blank. -/
def isBlank (c : Char) : Bool := blankRanges.contains c.toNat

/-- A text without the characters of a class at its two ends. -/
def trim (p : Char → Bool) (s : List Char) : List Char :=
  ((s.dropWhile p).reverse.dropWhile p).reverse

/-- A text without the blank characters at its two ends. -/
def trimBlanks (s : List Char) : List Char := trim isBlank s

end Letter
