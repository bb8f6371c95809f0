import Letter.Text.Utf8
import Mathlib.Tactic.SplitIfs

/-!
# Texts are read back from their bytes

The bytes of a text in UTF-8 are read as the text again.  A character has one byte to four; the
first tells how many follow, each of the others adds six bits to its code point, and the second
is in the range that the first allows, for the character is no surrogate and is written with no
more bytes than needed.

Main statement: `Utf8.decode_toUTF8`.
-/

namespace Letter

/-! ### Bytes -/

theorem toList_loop_eq (bytes : ByteArray) (i : Nat) (read : List UInt8) :
  ByteArray.toList.loop bytes i read = read.reverse ++ bytes.data.toList.drop i
  := by
  fun_induction ByteArray.toList.loop bytes i read with
  | case1 i read h ih =>
    have hi : i < bytes.data.toList.length := by simpa using h
    rw [ih, List.drop_eq_getElem_cons hi]
    simp [ByteArray.get!, h]
  | case2 i read h =>
    rw [List.drop_eq_nil_of_le (by simpa using Nat.le_of_not_lt h), List.append_nil]

/-- The bytes of a text are those of its characters, one after another. -/
theorem toList_toUTF8 (s : String) :
  s.toUTF8.toList = s.toList.flatMap String.utf8EncodeChar
  := by
  have hbytes : s.toUTF8 = s.toList.utf8Encode := String.utf8Encode_toList.symm
  rw [hbytes, ByteArray.toList, toList_loop_eq, List.utf8Encode, List.toList_data_toByteArray]
  rfl

theorem toNat_ofNat {n : Nat} (h : n < 256) :
  (UInt8.ofNat n).toNat = n
  := by simp [Nat.mod_eq_of_lt h]

namespace Utf8

variable {position : Nat} {rest : List UInt8}

/-! ### The bytes of a character -/

section

variable {first : UInt8} {start count missing code n : Nat}

/-- A byte that continues a character is in the range that the character allows. -/
def Continues (p : Partial) (n : Nat) : Prop :=
  n < 64 ∧ p.nextRange.1 ≤ n + 128 ∧ n + 128 ≤ p.nextRange.2

/-- A byte that continues a character adds six bits to it, and completes it if it is the last. -/
theorem Continues.decodeFrom_eq {p : Partial} (h : Continues p n) :
  decodeFrom position (some p) (UInt8.ofNat (n + 128) :: rest)
    = if p.missing ≤ 1 then
        (decodeFrom (position + 1) none rest).map (Char.ofNat (p.code * 64 + n) :: ·)
      else
        decodeFrom (position + 1)
          (some ⟨p.first, p.position, p.count + 1, p.missing - 1, p.code * 64 + n⟩) rest
  := by
  obtain ⟨hn, hleast, hgreatest⟩ := h
  have hinside : ¬ ((n + 128 < p.nextRange.1 || p.nextRange.2 < n + 128) = true) := by
    simp only [Bool.or_eq_true, decide_eq_true_eq]
    omega
  have hbits : (n + 128) % 64 = n := by omega
  rw [decodeFrom, toNat_ofNat (by omega), if_neg hinside, hbits]

/-- The character at hand goes on. -/
theorem Continues.decodeFrom_more (h : Continues ⟨first, start, count, missing + 2, code⟩ n) :
  decodeFrom position (some ⟨first, start, count, missing + 2, code⟩)
      (UInt8.ofNat (n + 128) :: rest)
    = decodeFrom (position + 1) (some ⟨first, start, count + 1, missing + 1, code * 64 + n⟩) rest
  := by
  rw [h.decodeFrom_eq, if_neg (by simp)]
  rfl

/-- The last byte of the character at hand. -/
theorem Continues.decodeFrom_last (h : Continues ⟨first, start, count, 1, code⟩ n) :
  decodeFrom position (some ⟨first, start, count, 1, code⟩) (UInt8.ofNat (n + 128) :: rest)
    = (decodeFrom (position + 1) none rest).map (Char.ofNat (code * 64 + n) :: ·)
  := by rw [h.decodeFrom_eq, if_pos (Nat.le_refl 1)]

theorem continues_first {b : Nat} (hb : b < 256) (hn : n < 64)
    (h : (secondRange b).1 ≤ n + 128 ∧ n + 128 ≤ (secondRange b).2) :
  Continues ⟨UInt8.ofNat b, start, 1, missing, code⟩ n
  := by
  rw [Continues, Partial.nextRange, if_pos rfl, toNat_ofNat hb]
  exact ⟨hn, h⟩

theorem continues_later (hn : n < 64) :
  Continues ⟨first, start, count + 2, missing, code⟩ n
  := by
  rw [Continues, Partial.nextRange, if_neg (by simp)]
  exact ⟨hn, by omega, by omega⟩

end

section

variable {a b c d : Nat} (ha : a < 256) (hb : b < 64)
  (hrange : (secondRange a).1 ≤ b + 128 ∧ b + 128 ≤ (secondRange a).2)

include ha hb hrange

/-- Two bytes make a character of eleven bits. -/
theorem decodeFrom_two (h : following? a = some 1) :
  decodeFrom position none (UInt8.ofNat a :: UInt8.ofNat (b + 128) :: rest)
    = (decodeFrom (position + 2) none rest).map (Char.ofNat (firstBits a 1 * 64 + b) :: ·)
  := by
  rw [decodeFrom, toNat_ofNat ha, h]
  exact (continues_first ha hb hrange).decodeFrom_last

/-- Three bytes make a character of sixteen bits. -/
theorem decodeFrom_three (h : following? a = some 2) (hc : c < 64) :
  decodeFrom position none
      (UInt8.ofNat a :: UInt8.ofNat (b + 128) :: UInt8.ofNat (c + 128) :: rest)
    = (decodeFrom (position + 3) none rest).map
      (Char.ofNat ((firstBits a 2 * 64 + b) * 64 + c) :: ·)
  := by
  rw [decodeFrom, toNat_ofNat ha, h]
  exact (continues_first ha hb hrange).decodeFrom_more.trans
    (continues_later hc).decodeFrom_last

/-- Four bytes make a character of twenty-one bits. -/
theorem decodeFrom_four (h : following? a = some 3) (hc : c < 64) (hd : d < 64) :
  decodeFrom position none
      (UInt8.ofNat a :: UInt8.ofNat (b + 128) :: UInt8.ofNat (c + 128) :: UInt8.ofNat (d + 128)
        :: rest)
    = (decodeFrom (position + 4) none rest).map
      (Char.ofNat (((firstBits a 3 * 64 + b) * 64 + c) * 64 + d) :: ·)
  := by
  rw [decodeFrom, toNat_ofNat ha, h]
  exact ((continues_first ha hb hrange).decodeFrom_more.trans
    (continues_later hc).decodeFrom_more).trans (continues_later hd).decodeFrom_last

end

/-- The bytes of a character are read as the character. -/
theorem decodeFrom_encodeChar (c : Char) :
  decodeFrom position none (String.utf8EncodeChar c ++ rest)
    = (decodeFrom (position + (String.utf8EncodeChar c).length) none rest).map (c :: ·)
  := by
  have hc : Char.ofNat c.val.toNat = c := Char.ofNat_toNat c
  have hvalid : c.val.toNat < 55296 ∨ 57343 < c.val.toNat ∧ c.val.toNat < 1114112 := c.valid
  rw [String.utf8EncodeChar]
  generalize c.val.toNat = v at hc hvalid
  by_cases hone : v ≤ 127
  · have hfollowing : following? v = some 0 := by rw [following?, if_pos (by omega)]
    rw [if_pos hone, List.singleton_append, decodeFrom, toNat_ofNat (by omega), hfollowing]
    simp only [hc, List.length_singleton]
  · rw [if_neg hone]
    by_cases htwo : v ≤ 2047
    · have hfollowing : following? (v / 64 % 32 + 192) = some 1 := by
        rw [following?, if_neg (by omega), if_neg (by omega), if_pos (by omega)]
      have hcode : firstBits (v / 64 % 32 + 192) 1 * 64 + v % 64 = v := by
        rw [firstBits]
        omega
      rw [if_pos htwo, List.cons_append, List.singleton_append,
        decodeFrom_two (by omega) (by omega) _ hfollowing, hcode, hc]
      · rfl
      · rw [secondRange, if_neg (by omega), if_neg (by omega), if_neg (by omega),
          if_neg (by omega)]
        omega
    · rw [if_neg htwo]
      by_cases hthree : v ≤ 65535
      · have hfollowing : following? (v / 4096 % 16 + 224) = some 2 := by
          rw [following?, if_neg (by omega), if_neg (by omega), if_neg (by omega),
            if_pos (by omega)]
        have hcode : (firstBits (v / 4096 % 16 + 224) 2 * 64 + v / 64 % 64) * 64 + v % 64 = v := by
          rw [firstBits]
          omega
        rw [if_pos hthree, List.cons_append, List.cons_append, List.singleton_append,
          decodeFrom_three (by omega) (by omega) _ hfollowing (by omega), hcode, hc]
        · rfl
        · rw [secondRange]
          split_ifs <;> omega
      · have hfollowing : following? (v / 262144 % 8 + 240) = some 3 := by
          rw [following?, if_neg (by omega), if_neg (by omega), if_neg (by omega),
            if_neg (by omega), if_pos (by omega)]
        have hcode : ((firstBits (v / 262144 % 8 + 240) 3 * 64 + v / 4096 % 64) * 64
            + v / 64 % 64) * 64 + v % 64 = v := by
          rw [firstBits]
          · omega
          all_goals simp
        rw [if_neg hthree, List.cons_append, List.cons_append, List.cons_append,
          List.singleton_append,
          decodeFrom_four (by omega) (by omega) _ hfollowing (by omega) (by omega), hcode, hc]
        · rfl
        · rw [secondRange]
          split_ifs <;> omega

/-- The bytes of a text are read as the text. -/
theorem decode_toUTF8 (s : String) :
  decode s.toUTF8.toList = .ok s.toList
  := by
  rw [toList_toUTF8, decode]
  generalize 0 = position
  induction s.toList generalizing position with
  | nil => rfl
  | cons c cs ih =>
    rw [List.flatMap_cons, decodeFrom_encodeChar, ih]
    rfl

end Utf8

end Letter
