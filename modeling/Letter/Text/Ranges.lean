/-!
# Sets of characters given by ranges

A class of characters is a list of ranges of code points in ascending order.  Membership
looks no further than the first range that begins beyond the code point sought; by
`Ranges.contains_iff` it is nevertheless that of the union of the ranges.
-/

namespace Letter

/-- Ranges of code points, both ends included, each beyond the one before. -/
abbrev Ranges : Type := List (Nat × Nat)

namespace Ranges

/-- Whether a code point lies in one of the ranges. -/
def contains : Ranges → Nat → Bool
  | [], _ => false
  | (first, last) :: later, n =>
    if n < first then false else n ≤ last || contains later n

/-- Whether every range begins beyond the end of the one before. -/
def ascending : Ranges → Bool
  | [] => true
  | [(first, last)] => first ≤ last
  | (first, last) :: (first', last') :: later =>
    first ≤ last && last < first' && ascending ((first', last') :: later)

theorem ascending_tail {r : Nat × Nat} {later : Ranges}
    (h : ascending (r :: later) = true) :
  ascending later = true
  := by
  cases later with
  | nil => rfl
  | cons s later =>
    simp only [ascending, Bool.and_eq_true] at h
    exact h.2

theorem ascending_head {r : Nat × Nat} {later : Ranges}
    (h : ascending (r :: later) = true) :
  r.1 ≤ r.2
  := by
  cases later with
  | nil => simpa [ascending] using h
  | cons s later =>
    simp only [ascending, Bool.and_eq_true, decide_eq_true_eq] at h
    exact h.1.1

/-- Every later range begins beyond the end of the first. -/
theorem lt_of_mem_later {r s : Nat × Nat} {later : Ranges}
    (h : ascending (r :: later) = true) (hs : s ∈ later) :
  r.2 < s.1
  := by
  induction later generalizing r with
  | nil => cases hs
  | cons t later ih =>
    have hlt : r.2 < t.1 := by
      simp only [ascending, Bool.and_eq_true, decide_eq_true_eq] at h
      exact h.1.2
    have htail := ascending_tail h
    obtain rfl | hs := List.mem_cons.1 hs
    · exact hlt
    · have := ascending_head htail
      have := ih htail hs
      omega

/-- A code point is in the set exactly when it lies in one of the ranges. -/
theorem contains_iff {ranges : Ranges} (h : ranges.ascending = true) (n : Nat) :
  ranges.contains n = true ↔ ∃ r ∈ ranges, r.1 ≤ n ∧ n ≤ r.2
  := by
  induction ranges with
  | nil => simp [contains]
  | cons r later ih =>
    obtain ⟨first, last⟩ := r
    rw [contains]
    split
    · next hn =>
      constructor
      · intro hf
        cases hf
      · rintro ⟨s, hs, hlo, -⟩
        obtain rfl | hs := List.mem_cons.1 hs
        · omega
        · have := ascending_head h
          have := lt_of_mem_later h hs
          omega
    · next hn =>
      rw [Bool.or_eq_true, ih (ascending_tail h), decide_eq_true_eq]
      constructor
      · rintro (hle | ⟨s, hs, hin⟩)
        · exact ⟨_, List.mem_cons_self, Nat.le_of_not_lt hn, hle⟩
        · exact ⟨s, List.mem_cons_of_mem _ hs, hin⟩
      · rintro ⟨s, hs, hin⟩
        obtain rfl | hs := List.mem_cons.1 hs
        · exact .inl hin.2
        · exact .inr ⟨s, hs, hin⟩

end Ranges

end Letter
