import Letter.Text.Utf8
import Letter.Proofs.Text.CharClass
import Mathlib.Data.List.Chain
import Mathlib.Data.List.TakeWhile

/-!
# Texts and halves of pairs

The characters that may stand for halves are neither blanks nor digits nor other characters of
words, like the halves themselves.  So names hold no halves, and neither do texts in ASCII.

A text without halves has its bytes in every coding.  A text may hold halves that stand apart, so
that no two of them are the halves of one character.
-/

namespace Letter

/-! ### What the characters for private use are not -/

/-- No range of word characters holds a character for private use. -/
theorem wordRanges_outside_private :
  ∀ r ∈ wordRanges, r.2 < 0xE000 ∨ 0xF8FF < r.1 ∧ r.2 < 0xF0000
  := by decide +kernel

/-- A character for private use is no part of a word. -/
theorem isWordChar_eq_false_of_isPrivate {c : Char} (h : isPrivate c = true) :
  isWordChar c = false
  := by
  rw [← Bool.not_eq_true]
  intro hword
  obtain ⟨r, hr, hfirst, hlast⟩ := (Ranges.contains_iff wordRanges_ascending _).1 hword
  have houtside := wordRanges_outside_private r hr
  simp only [isPrivate, Bool.or_eq_true, Bool.and_eq_true, decide_eq_true_eq] at h
  omega

/-- No range of blanks holds a character for private use. -/
theorem blankRanges_outside_private :
  ∀ r ∈ blankRanges, r.2 < 0xE000
  := by decide +kernel

/-- A character for private use is no blank. -/
theorem isBlank_eq_false_of_isPrivate {c : Char} (h : isPrivate c = true) :
  isBlank c = false
  := by
  rw [← Bool.not_eq_true]
  intro hblank
  obtain ⟨r, hr, hfirst, hlast⟩ := (Ranges.contains_iff blankRanges_ascending _).1 hblank
  have houtside := blankRanges_outside_private r hr
  simp only [isPrivate, Bool.or_eq_true, Bool.and_eq_true, decide_eq_true_eq] at h
  omega

/-- No word character is for private use. -/
theorem isPrivate_eq_false_of_isWordChar {c : Char} (h : isWordChar c = true) :
  isPrivate c = false
  := by
  rw [← Bool.not_eq_true]
  intro hprivate
  rw [isWordChar_eq_false_of_isPrivate hprivate] at h
  cases h

theorem isPrivate_eq_false_of_lt {c : Char} (h : c.toNat < 0xE000) :
  isPrivate c = false
  := by
  simp only [isPrivate, Bool.or_eq_false_iff, Bool.and_eq_false_iff, decide_eq_false_iff_not]
  omega

namespace Coding

variable (coding : Coding) {s : String}

/-! ### Texts without halves -/

/-- No character is a half. -/
theorem isHalf_toNat (c : Char) :
  isHalf c.toNat = false
  := by
  have hvalid : c.toNat < 0xD800 ∨ 0xDFFF < c.toNat ∧ c.toNat < 0x110000 := c.valid
  simp only [isHalf, Bool.and_eq_false_iff, decide_eq_false_iff_not]
  omega

/-- A character that is not for private use stands for no half. -/
theorem standsForHalf_eq_false {c : Char} (h : isPrivate c = false) :
  coding.standsForHalf c = false
  := by rw [standsForHalf, coding.point_eq_toNat h, isHalf_toNat]

theorem standsForHalf_plain (c : Char) :
  plain.standsForHalf c = false
  := isHalf_toNat c

/-- In a text no first half is followed by a second half. -/
def Apart (coding : Coding) (s : String) : Prop :=
  s.toList.IsChain fun a b =>
    ¬ (isHighHalf (coding.point a) = true ∧ isLowHalf (coding.point b) = true)

variable {coding}

theorem isHalf_of_isHighHalf {n : Nat} (h : isHighHalf n = true) :
  isHalf n = true
  := by
  simp only [isHighHalf, isHalf, Bool.and_eq_true, decide_eq_true_eq] at h ⊢
  omega

/-- Halves stand apart where there are none. -/
theorem apart_of_forall (h : ∀ c ∈ s.toList, coding.standsForHalf c = false) :
  coding.Apart s
  := by
  refine List.Pairwise.isChain (List.pairwise_of_forall_mem_list fun a ha b hb => ?_)
  rintro ⟨hhigh, -⟩
  have hhalf := h a ha
  rw [standsForHalf, isHalf_of_isHighHalf hhigh] at hhalf
  cases hhalf

/-- A text without characters for private use holds no halves that could be joined. -/
theorem apart_of_forall_isPrivate (h : ∀ c ∈ s.toList, isPrivate c = false) :
  coding.Apart s
  := apart_of_forall fun c hc => coding.standsForHalf_eq_false (h c hc)

end Coding

/-! ### Bytes of texts -/

namespace Utf8

variable {coding : Coding} {s : String}

/-- A text without halves has its bytes. -/
theorem encode_of_forall (h : ∀ c ∈ s.toList, coding.standsForHalf c = false) :
  encode coding s = .ok s.toUTF8.toList
  := by
  have hnone : (s.toList.dropWhile fun c => !coding.standsForHalf c) = [] :=
    List.dropWhile_eq_nil_iff.2 fun c hc => by simp [h c hc]
  rw [encode, hnone]

/-- Without a coding every text is encoded. -/
@[simp]
theorem encode_plain (s : String) :
  encode .plain s = .ok s.toUTF8.toList
  := encode_of_forall fun c _ => Coding.standsForHalf_plain c

end Utf8

end Letter
