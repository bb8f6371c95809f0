import Letter.Text.Blank
import Letter.Text.DecimalDigit
import Letter.Text.WordChar
import Mathlib.Algebra.Group.Nat.Defs
import Mathlib.Data.List.Induction

/-!
# Classes of characters

The decimal digits are word characters, and no blank character is one.  A run of decimal
digits writes a number below the power of ten given by its length, and the decimal form of
a number writes that number.
-/

namespace Letter

/-! ### Digits, blanks and word characters -/

/-- A digit stands less than ten places after one of the zeros, and its value is the
distance. -/
theorem digitValueAmong_eq_some {zeros : List Nat} {n d : Nat}
    (h : digitValueAmong zeros n = some d) :
  ∃ z ∈ zeros, d < 10 ∧ n = z + d
  := by
  induction zeros with
  | nil => simp [digitValueAmong] at h
  | cons z zeros ih =>
    rw [digitValueAmong] at h
    split at h
    · cases h
    · split at h
      · obtain rfl := Option.some.inj h
        exact ⟨z, List.mem_cons_self, by omega, by omega⟩
      · obtain ⟨y, hy, hd⟩ := ih h
        exact ⟨y, List.mem_cons_of_mem _ hy, hd⟩

theorem digitValue?_lt {c : Char} {d : Nat} (h : digitValue? c = some d) :
  d < 10
  := by
  obtain ⟨_, _, hd, _⟩ := digitValueAmong_eq_some h
  exact hd

/-- The ten digits of a script lie in one range of word characters. -/
theorem digitZeros_within_wordRanges :
  (digitZeros.all fun z => wordRanges.any fun r => r.1.ble z && (z + 9).ble r.2) = true
  := by decide +kernel

/-- Decimal digits of all scripts are word characters. -/
theorem isWordChar_of_isDecimalDigit {c : Char} (h : isDecimalDigit c = true) :
  isWordChar c = true
  := by
  obtain ⟨d, hd⟩ := Option.isSome_iff_exists.1 h
  obtain ⟨z, hz, hlt, hc⟩ := digitValueAmong_eq_some hd
  have hin := List.all_eq_true.1 digitZeros_within_wordRanges z hz
  obtain ⟨r, hr, hbounds⟩ := List.any_eq_true.1 hin
  simp only [Bool.and_eq_true, Nat.ble_eq] at hbounds
  apply (Ranges.contains_iff wordRanges_ascending _).2
  exact ⟨r, hr, by omega, by omega⟩

/-- No code point of a range of blank characters is that of a word character. -/
theorem wordRanges_contains_of_blankRanges :
  ∀ r ∈ blankRanges, ∀ n ∈ List.range' r.1 (r.2 + 1 - r.1), wordRanges.contains n = false
  := by decide +kernel

theorem isWordChar_eq_false_of_isBlank {c : Char} (h : isBlank c = true) :
  isWordChar c = false
  := by
  obtain ⟨r, hr, hfirst, hlast⟩ := (Ranges.contains_iff blankRanges_ascending _).1 h
  apply wordRanges_contains_of_blankRanges r hr
  rw [List.mem_range'_1]
  omega

/-! ### Numerals -/

theorem numeralValue_append (s : List Char) (c : Char) :
  numeralValue (s ++ [c]) = 10 * numeralValue s + (digitValue? c).getD 0
  := by simp [numeralValue]

/-- A numeral writes a number with at most as many digits. -/
theorem numeralValue_lt (s : List Char) :
  numeralValue s < 10 ^ s.length
  := by
  induction s using List.reverseRecOn with
  | nil => simp [numeralValue]
  | append_singleton s c ih =>
    have hc : (digitValue? c).getD 0 < 10 := by
      cases hd : digitValue? c with
      | none => simp
      | some d => apply digitValue?_lt hd
    rw [numeralValue_append, List.length_append, List.length_singleton, Nat.pow_succ]
    omega

/-- The ASCII digits have the values that they write. -/
theorem digitValue?_digitChar {n : Nat} (h : n < 10) :
  digitValue? n.digitChar = some n
  := by
  have hall : ∀ m ∈ List.range 10, digitValue? m.digitChar = some m := by decide
  apply hall n
  apply List.mem_range.2 h

/-- The decimal form of a number writes the number. -/
theorem numeralValue_toDigits (n : Nat) :
  numeralValue (Nat.toDigits 10 n) = n
  := by
  induction n using Nat.strongRecOn with
  | _ n ih =>
    rw [Nat.toDigits_eq_if (by decide)]
    split
    · next h => simp [numeralValue, digitValue?_digitChar h]
    · next h =>
      rw [numeralValue_append, ih (n / 10) (by omega),
        digitValue?_digitChar (Nat.mod_lt _ (by decide)), Option.getD_some]
      omega

theorem isDecimalDigit_of_mem_toDigits {n : Nat} {c : Char} (h : c ∈ Nat.toDigits 10 n) :
  isDecimalDigit c = true
  := by
  induction n using Nat.strongRecOn with
  | _ n ih =>
    have hdigit {m : Nat} (hm : m < 10) : isDecimalDigit m.digitChar = true := by
      rw [isDecimalDigit, digitValue?_digitChar hm, Option.isSome_some]
    rw [Nat.toDigits_eq_if (by decide)] at h
    split at h
    · next hn =>
      rw [List.mem_singleton.1 h]
      apply hdigit hn
    · next hn =>
      obtain h | h := List.mem_append.1 h
      · apply ih (n / 10) (by omega) h
      · rw [List.mem_singleton.1 h]
        apply hdigit
        apply Nat.mod_lt
        decide

end Letter
