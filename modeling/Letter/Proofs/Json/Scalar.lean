import Letter.Json.Reader
import Letter.Proofs.Text.Coding
import Mathlib.Tactic.SplitIfs

/-!
# Scalars read back from JSON

What JSON writes for a scalar is read as this scalar, whatever follows it, as long as that does
not go on with a number.  A text may hold any code points, but for two halves next to each other
that make a character: each is escaped in a way that is read as this code point alone.  Numbers are
whole here.

Main statement: `Json.readScalar?_json`.
-/

namespace Letter

/-- Whether a scalar is no number with a binary point. -/
def Scalar.isExact : Scalar → Bool
  | double _ => false
  | _ => true

/-- Halves stand apart in a scalar that is a text. -/
def Scalar.Apart (coding : Coding) : Scalar → Prop
  | text s => coding.Apart s
  | _ => True

namespace Json

open Scalar

/-! ### Texts -/

theorem hexValue?_hexDigit :
  ∀ n < 16, hexValue? (hexDigit n) = some n
  := by decide

/-- Four hexadecimal digits are read back as the unit that they write. -/
theorem hexNumber?_hexDigits {n : Nat} (h : n < 0x10000) :
  hexNumber? (hexDigits 4 n) = some n
  := by
  have hdigit (m : Nat) : hexValue? (hexDigit (m % 16)) = some (m % 16) :=
    hexValue?_hexDigit _ (Nat.mod_lt _ (by decide))
  simp [hexNumber?, hexDigits, List.foldlM, hdigit]
  omega

/-- The numbers that JSON has for a code point: its own, or those of the two halves of a pair. -/
def pointUnits (n : Nat) : List Nat :=
  if n < 0x10000 then [n]
  else [0xD800 + (n - 0x10000) / 0x400, 0xDC00 + (n - 0x10000) % 0x400]

/-- An escaped number of sixteen bits is read as this number. -/
theorem textUnits_jsonUnit {n : Nat} (h : n < 0x10000) (before : List Nat) (s : List Char) :
  textUnits before (jsonUnit n ++ s) = textUnits (n :: before) s
  := by
  have hn := hexNumber?_hexDigits h
  simp only [hexDigits, List.nil_append, List.cons_append] at hn
  simp only [jsonUnit, hexDigits, List.nil_append, List.cons_append]
  rw [textUnits, hn]

/-- An escaped code point is read as the numbers that JSON has for it. -/
theorem textUnits_jsonPoint {n : Nat} (h : n < 0x110000) (before : List Nat) (s : List Char) :
  textUnits before (jsonPoint n ++ s) = textUnits ((pointUnits n).reverse ++ before) s
  := by
  rw [jsonPoint, pointUnits]
  split
  · next hunit =>
    rw [textUnits_jsonUnit hunit]
    rfl
  · rw [List.append_assoc, textUnits_jsonUnit (by omega), textUnits_jsonUnit (by omega)]
    rfl

variable (coding : Coding)

/-- A character that is written as it is, or by a letter, stands for a number of its own. -/
theorem pointUnits_point {c : Char} (h : c.toNat < 0x80) :
  pointUnits (coding.point c) = [c.toNat]
  := by
  rw [coding.point_eq_toNat (isPrivate_eq_false_of_lt (by omega)), pointUnits, if_pos (by omega)]

/-- What JSON writes for a character is read as the numbers that it has for its code point. -/
theorem textUnits_jsonChar (c : Char) (before : List Nat) (s : List Char) :
  textUnits before (jsonChar coding c ++ s)
    = textUnits ((pointUnits (coding.point c)).reverse ++ before) s
  := by
  rw [jsonChar]
  split_ifs with hquote hfeed hreturn htab hback hform hplain
  · obtain rfl | rfl : c = '"' ∨ c = '\\' := by simpa using hquote
    · rw [pointUnits_point coding (by decide)]
      rfl
    · rw [pointUnits_point coding (by decide)]
      rfl
  · subst hfeed
    rw [pointUnits_point coding (by decide)]
    rfl
  · subst hreturn
    rw [pointUnits_point coding (by decide)]
    rfl
  · subst htab
    rw [pointUnits_point coding (by decide)]
    rfl
  · subst hback
    rw [pointUnits_point coding (by decide)]
    rfl
  · subst hform
    rw [pointUnits_point coding (by decide)]
    rfl
  · simp only [Bool.or_eq_true, decide_eq_true_eq, not_or] at hquote
    simp only [Bool.and_eq_true, decide_eq_true_eq] at hplain
    rw [pointUnits_point coding (by omega), List.singleton_append, textUnits, if_neg (by omega)]
    · rfl
    · exact hquote.1
    · exact fun _ _ _ _ _ hc => absurd hc hquote.2
    · exact fun _ _ hc => absurd hc hquote.2
  · exact textUnits_jsonPoint (coding.point_lt c) before s

/-- A number that is not the first half of a pair stands for a code point of its own. -/
theorem joinPairs_cons {n : Nat} {units : List Nat} (before : List Nat)
    (h : ∀ low ∈ units.head?, ¬ (isHighHalf n = true ∧ isLowHalf low = true)) :
  joinPairs before (n :: units) = joinPairs (n :: before) units
  := by
  cases units with
  | nil => rfl
  | cons low units => rw [joinPairs, if_neg (by simpa using h low rfl)]

/-- A code point begins with the same unit, whatever follows it. -/
theorem head?_pointUnits_append (n : Nat) (units : List Nat) :
  (pointUnits n ++ units).head? = (pointUnits n).head?
  := by
  rw [pointUnits]
  split <;> rfl

/-- The first number for a code point is a second half only if the code point is one. -/
theorem isLowHalf_of_head?_pointUnits {m low : Nat} (h : low ∈ (pointUnits m).head?)
    (hlow : isLowHalf low = true) (hm : m < 0x110000) :
  isLowHalf m = true
  := by
  rw [pointUnits] at h
  split at h
  · cases h
    exact hlow
  · cases h
    simp only [isLowHalf, Bool.and_eq_true, decide_eq_true_eq] at hlow
    omega

/-- The numbers of code points are joined to these code points, unless some of them are the halves
of a pair already. -/
theorem joinPairs_pointUnits (before : List Nat) {points : List Nat}
    (hpoints : ∀ n ∈ points, n < 0x110000)
    (h : points.IsChain fun m n => ¬ (isHighHalf m = true ∧ isLowHalf n = true)) :
  joinPairs before (points.flatMap pointUnits) = before.reverse ++ points
  := by
  induction points generalizing before with
  | nil => simp [joinPairs]
  | cons n points ih =>
    rw [List.forall_mem_cons] at hpoints
    rw [List.isChain_cons] at h
    obtain ⟨hn, hpoints⟩ := hpoints
    obtain ⟨hnext, hlater⟩ := h
    have hjoin (before : List Nat) := ih before hpoints hlater
    rw [List.flatMap_cons, pointUnits]
    split
    · rw [List.singleton_append, joinPairs_cons, hjoin]
      · simp
      · rintro low hhead ⟨hhigh, hlow⟩
        cases points with
        | nil => cases hhead
        | cons m points =>
          rw [List.forall_mem_cons] at hpoints
          rw [List.flatMap_cons, head?_pointUnits_append] at hhead
          exact hnext m rfl ⟨hhigh, isLowHalf_of_head?_pointUnits hhead hlow hpoints.1⟩
    · have hpair : isHighHalf (0xD800 + (n - 0x10000) / 0x400) = true
          ∧ isLowHalf (0xDC00 + (n - 0x10000) % 0x400) = true := by
        simp only [isHighHalf, isLowHalf, Bool.and_eq_true, decide_eq_true_eq]
        omega
      have hjoined : 0x10000 + (0xD800 + (n - 0x10000) / 0x400 - 0xD800) * 0x400
          + (0xDC00 + (n - 0x10000) % 0x400 - 0xDC00) = n := by omega
      rw [List.cons_append, List.singleton_append, joinPairs, if_pos (by simpa using hpair),
        hjoined, hjoin]
      simp

/-- The text that JSON writes is read as it was. -/
theorem readText?_jsonText {s : String} (h : coding.Apart s) (rest : List Char) :
  readText? coding (s.toList.flatMap (jsonChar coding) ++ '"' :: rest) = some (s, rest)
  := by
  have hunits (before : List Nat) (s : List Char) :
      textUnits before (s.flatMap (jsonChar coding) ++ '"' :: rest)
        = some (before.reverse ++ (s.map coding.point).flatMap pointUnits, rest) := by
    induction s generalizing before with
    | nil => simp [textUnits]
    | cons c s ih =>
      rw [List.flatMap_cons, List.append_assoc, textUnits_jsonChar, ih]
      simp
  have hpoints : ∀ n ∈ s.toList.map coding.point, n < 0x110000 :=
    List.forall_mem_map.2 fun c _ => coding.point_lt c
  have hchars : (s.toList.map coding.point).map coding.char = s.toList := by
    simp [Function.comp_def, coding.char_point]
  have hjoined := joinPairs_pointUnits [] hpoints ((List.isChain_map _).2 h)
  rw [readText?, hunits, List.reverse_nil, List.nil_append, Option.map_some]
  dsimp only
  rw [hjoined, List.reverse_nil, List.nil_append, hchars, String.ofList_toList]

/-! ### Numbers -/

/-- The decimal form of a number writes the number. -/
theorem digitsValue_toDigits (n : Nat) :
  digitsValue (Nat.toDigits 10 n) = n
  := calc
    _ = Nat.ofDigitChars 10 (Nat.toDigits 10 n) 0 := by
      simp only [digitsValue, Nat.ofDigitChars, Nat.mul_comm]
    _ = n := Nat.ofDigitChars_ten_toDigits

theorem isDigit_of_mem_toDigits {n : Nat} {c : Char} (h : c ∈ Nat.toDigits 10 n) :
  isDigit c = true
  := Nat.isDigit_of_mem_toDigits (by decide) (by decide) h

/-- A decimal form begins with a digit. -/
theorem exists_toDigits_eq_cons (n : Nat) :
  ∃ c digits, Nat.toDigits 10 n = c :: digits ∧ isDigit c = true
  := by
  cases hdigits : Nat.toDigits 10 n with
  | nil => exact absurd hdigits Nat.toDigits_ne_nil
  | cons c digits =>
    refine ⟨c, digits, rfl, isDigit_of_mem_toDigits (n := n) ?_⟩
    rw [hdigits]
    exact List.mem_cons_self

/-- Only the decimal form of zero begins with a zero. -/
theorem eq_zero_of_head?_toDigits {n : Nat} (h : (Nat.toDigits 10 n).head? = some '0') :
  n = 0
  := by
  induction n using Nat.strongRecOn with
  | _ n ih =>
    rw [Nat.toDigits_eq_if (by decide)] at h
    split at h
    · exact Nat.digitChar_eq_zero.1 (by simpa using h)
    · rw [List.head?_append, Option.or_of_isSome (by simp [Nat.toDigits_ne_nil])] at h
      have hquotient := ih (n / 10) (by omega) h
      omega

theorem toList_toString_ofNat (n : Nat) :
  (toString (Int.ofNat n)).toList = Nat.toDigits 10 n
  := by
  have hrepr : toString (Int.ofNat n) = toString n := rfl
  rw [hrepr, Nat.toString_eq_ofList_toDigits, String.toList_ofList]

/-- A negative integer is written as a sign and the digits of its size. -/
theorem toList_toString_negSucc (n : Nat) :
  (toString (Int.negSucc n)).toList = '-' :: Nat.toDigits 10 (n + 1)
  := by
  have hrepr : toString (Int.negSucc n) = "-" ++ toString (n + 1) := rfl
  rw [hrepr, Nat.toString_eq_ofList_toDigits]
  simp

/-- What may follow a value: nothing, or what separates it from the next one or ends the list or
object around it. -/
def Stops (s : List Char) : Prop := ∀ c ∈ s.head?, c = ',' ∨ c = ']' ∨ c = '}'

/-- What may stand behind a number starts with no part of one. -/
theorem Stops.head?_ne {s : List Char} (h : Stops s) {c : Char}
    (hc : ¬ (c = ',' ∨ c = ']' ∨ c = '}')) :
  s.head? ≠ some c
  := fun hhead => hc (h c hhead)

section

variable {rest : List Char} (h : Stops rest)
include h

theorem takeWhile_toDigits (n : Nat) :
  (Nat.toDigits 10 n ++ rest).takeWhile isDigit = Nat.toDigits 10 n
  := by
  rw [List.takeWhile_append_of_pos fun _ => isDigit_of_mem_toDigits]
  cases rest with
  | nil => simp
  | cons c rest =>
    have hc : isDigit c = false := by
      obtain rfl | rfl | rfl := h c rfl <;> rfl
    rw [List.takeWhile_cons_of_neg (by simp [hc]), List.append_nil]

theorem dropWhile_toDigits (n : Nat) :
  (Nat.toDigits 10 n ++ rest).dropWhile isDigit = rest
  := by
  have hsplit := List.takeWhile_append_dropWhile (p := isDigit) (l := Nat.toDigits 10 n ++ rest)
  rw [takeWhile_toDigits h] at hsplit
  exact List.append_cancel_left hsplit

theorem readPlaces?_of_stops :
  readPlaces? rest = some (none, rest)
  := by
  rw [readPlaces?]
  rintro s rfl
  exact h.head?_ne (by decide) rfl

theorem readExponent?_of_stops :
  readExponent? rest = some (none, rest)
  := by
  cases rest with
  | nil => rfl
  | cons c rest => obtain rfl | rfl | rfl := h c rfl <;> rfl

/-- A number is read from its decimal form, also behind a sign. -/
theorem readNumber?_toDigits (n : Nat) :
  readNumber? (Nat.toDigits 10 n ++ rest) = some (.integer n, rest)
    ∧ readNumber? ('-' :: (Nat.toDigits 10 n ++ rest)) = some (.integer (-n), rest)
  := by
  have hleading : ¬ ((Nat.toDigits 10 n).isEmpty
      || decide ((Nat.toDigits 10 n).head? = some '0')
        && decide ((Nat.toDigits 10 n).length ≠ 1)) = true := by
    have hone (hzero : (Nat.toDigits 10 n).head? = some '0') :
        (Nat.toDigits 10 n).length = 1 := by
      rw [eq_zero_of_head?_toDigits hzero]
      rfl
    simpa [Nat.toDigits_ne_nil] using hone
  have hsign (s : List Char) : Nat.toDigits 10 n ++ rest ≠ '-' :: s := by
    obtain ⟨c, digits, hdigits, hc⟩ := exists_toDigits_eq_cons n
    rw [hdigits]
    rintro ⟨⟩
    cases hc
  constructor
  · rw [readNumber?]
    · simp only [takeWhile_toDigits h, dropWhile_toDigits h, if_neg hleading,
        readPlaces?_of_stops h, Option.bind_eq_bind, Option.bind_some, readExponent?_of_stops h,
        digitsValue_toDigits]
      rfl
    · exact hsign
  · rw [readNumber?]
    simp only [takeWhile_toDigits h, dropWhile_toDigits h, if_neg hleading,
      readPlaces?_of_stops h, Option.bind_eq_bind, Option.bind_some, readExponent?_of_stops h,
      digitsValue_toDigits]
    rfl

/-- A whole number is read from what JSON writes for it. -/
theorem readNumber?_integer (n : Int) :
  readNumber? ((toString n).toList ++ rest) = some (.integer n, rest)
  := by
  cases n with
  | ofNat n =>
    rw [toList_toString_ofNat]
    exact (readNumber?_toDigits h n).1
  | negSucc n =>
    rw [toList_toString_negSucc]
    exact (readNumber?_toDigits h (n + 1)).2

end

/-! ### Scalars -/

/-- A value that begins with none of four characters is a number. -/
theorem readScalar?_cons {c : Char} (hc : c ≠ '"' ∧ c ≠ 'n' ∧ c ≠ 't' ∧ c ≠ 'f')
    (s : List Char) :
  readScalar? coding (c :: s) = readNumber? (c :: s)
  := by
  rw [readScalar?]
  · rintro _ ⟨⟩
    exact hc.1 rfl
  · rintro _ ⟨⟩
    exact hc.2.1 rfl
  · rintro _ ⟨⟩
    exact hc.2.2.1 rfl
  · rintro _ ⟨⟩
    exact hc.2.2.2 rfl

/-- The decimal form of a whole number begins with a digit or a sign. -/
theorem exists_toString_eq_cons (n : Int) :
  ∃ c digits, (toString n).toList = c :: digits ∧ (isDigit c = true ∨ c = '-')
  := by
  cases n with
  | ofNat n =>
    obtain ⟨c, digits, hdigits, hc⟩ := exists_toDigits_eq_cons n
    exact ⟨c, digits, (toList_toString_ofNat n).trans hdigits, .inl hc⟩
  | negSucc n => exact ⟨'-', _, toList_toString_negSucc n, .inr rfl⟩

/-- What JSON writes for a scalar without a binary point is read as this scalar. -/
theorem readScalar?_json {v : Scalar} (hv : v.isExact = true) (hapart : v.Apart coding)
    {rest : List Char} (h : Stops rest) :
  readScalar? coding ((v.json coding).toList ++ rest) = some (v, rest)
  := by
  cases v with
  | null =>
    rw [json]
    rfl
  | boolean b =>
    cases b <;>
    · rw [json]
      rfl
  | double x => cases hv
  | text s =>
    have htext : (jsonText coding s).toList ++ rest
        = '"' :: (s.toList.flatMap (jsonChar coding) ++ '"' :: rest) := by
      simp [jsonText]
    rw [json, htext, readScalar?, readText?_jsonText coding hapart]
    rfl
  | integer n =>
    rw [json, ← readNumber?_integer h]
    obtain ⟨c, digits, hdigits, hc⟩ := exists_toString_eq_cons n
    rw [hdigits, List.cons_append, readScalar?_cons]
    refine ⟨?_, ?_, ?_, ?_⟩ <;>
    · rintro rfl
      revert hc
      decide

end Json

end Letter
