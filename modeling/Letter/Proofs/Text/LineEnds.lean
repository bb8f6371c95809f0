import Letter.Text.Lines
import Mathlib.Data.List.Basic

/-!
# Line feeds for the ends of lines

Where a text is read from a file, the ends of its lines become line feeds.  This leaves a text
without carriage returns as it is, and no other.  The parts of a text can be treated on their
own, unless a carriage return ends one and a line feed begins the next: `Unifies` says that of a
text wherever it stands.
-/

namespace Letter

/-! ### Lists of characters -/

section

variable {c : Char} {s rest : List Char}

theorem unifyLineEnds_cons (h : c ≠ '\r') (s : List Char) :
  unifyLineEnds (c :: s) = c :: unifyLineEnds s
  := by
  rw [unifyLineEnds]
  · exact fun _ hc _ => h hc
  · exact h

theorem unifyLineEnds_return (h : ∀ c ∈ s.head?, c ≠ '\n') :
  unifyLineEnds ('\r' :: s) = '\n' :: unifyLineEnds s
  := by
  rw [unifyLineEnds]
  rintro r rfl
  exact h '\n' rfl rfl

/-- Two parts of a text, the second of which does not begin with a line feed. -/
theorem unifyLineEnds_append (h : ∀ c ∈ rest.head?, c ≠ '\n') :
  unifyLineEnds (s ++ rest) = unifyLineEnds s ++ unifyLineEnds rest
  := by
  fun_induction unifyLineEnds s with
  | case1 s ih =>
    rw [List.cons_append, List.cons_append, unifyLineEnds, ih, List.cons_append]
  | case2 s hs ih =>
    rw [List.cons_append, List.cons_append, unifyLineEnds_return, ih]
    intro c hc
    cases s with
    | nil => exact h c hc
    | cons d s =>
      obtain rfl := Option.some.inj hc
      rintro rfl
      exact hs s rfl
  | case3 c s _ hc ih => rw [List.cons_append, List.cons_append, unifyLineEnds_cons hc, ih]
  | case4 => rfl

/-- Without carriage returns, a part of a text stays as it is. -/
theorem unifyLineEnds_append_of_notMem (h : '\r' ∉ s) (rest : List Char) :
  unifyLineEnds (s ++ rest) = s ++ unifyLineEnds rest
  := by
  induction s with
  | nil => rfl
  | cons c s ih =>
    rw [List.mem_cons, not_or] at h
    rw [List.cons_append, unifyLineEnds_cons (Ne.symm h.1), ih h.2, List.cons_append]

theorem unifyLineEnds_eq_nil_iff :
  unifyLineEnds s = [] ↔ s = []
  := by fun_cases unifyLineEnds s <;> simp

/-- Nothing is left of carriage returns. -/
theorem return_notMem_unifyLineEnds (s : List Char) :
  '\r' ∉ unifyLineEnds s
  := by
  fun_induction unifyLineEnds s with
  | case1 s ih | case2 s _ ih => simp [ih]
  | case3 c s _ hc ih => simp [ih, Ne.symm hc]
  | case4 => exact List.not_mem_nil

/-- All characters but those that end lines are kept. -/
theorem mem_unifyLineEnds_iff (hreturn : c ≠ '\r') (hfeed : c ≠ '\n') :
  c ∈ unifyLineEnds s ↔ c ∈ s
  := by
  fun_induction unifyLineEnds s with
  | case1 s ih | case2 s _ ih => simp [ih, hreturn, hfeed]
  | case3 d s _ _ ih => simp [ih]
  | case4 => rfl

end

/-! ### Texts -/

/-- A text with line feeds for the ends of its lines. -/
def withLineFeeds (s : String) : String := String.ofList (unifyLineEnds s.toList)

/-- Only carriage returns are changed. -/
theorem withLineFeeds_eq_self_iff {s : String} :
  withLineFeeds s = s ↔ '\r' ∉ s.toList
  := by
  constructor
  · intro h hreturn
    rw [← h, withLineFeeds, String.toList_ofList] at hreturn
    exact return_notMem_unifyLineEnds _ hreturn
  · intro h
    have hsame := unifyLineEnds_append_of_notMem h []
    rw [List.append_nil, unifyLineEnds, List.append_nil] at hsame
    rw [withLineFeeds, hsame, String.ofList_toList]

theorem mem_withLineFeeds_iff {c : Char} (hreturn : c ≠ '\r') (hfeed : c ≠ '\n') {s : String} :
  c ∈ (withLineFeeds s).toList ↔ c ∈ s.toList
  := by rw [withLineFeeds, String.toList_ofList, mem_unifyLineEnds_iff hreturn hfeed]

/-- Wherever a text stands, it becomes another one with line feeds for the ends of its lines,
and what follows is treated on its own. -/
def Unifies (s s' : String) : Prop :=
  ∀ rest, unifyLineEnds (s.toList ++ rest) = s'.toList ++ unifyLineEnds rest

namespace Unifies

variable {s s' t t' : String}

theorem withLineFeeds_eq (h : Unifies s s') :
  withLineFeeds s = s'
  := by
  have hall := h []
  rw [List.append_nil, unifyLineEnds, List.append_nil] at hall
  rw [withLineFeeds, hall, String.ofList_toList]

theorem append (h : Unifies s s') (ht : Unifies t t') :
  Unifies (s ++ t) (s' ++ t')
  := by
  intro rest
  rw [String.toList_append, String.toList_append, List.append_assoc, h, ht, List.append_assoc]

theorem eq_empty_iff (h : Unifies s s') :
  s = "" ↔ s' = ""
  := by
  rw [← h.withLineFeeds_eq, ← String.toList_eq_nil_iff, ← String.toList_eq_nil_iff, withLineFeeds,
    String.toList_ofList, unifyLineEnds_eq_nil_iff]

/-- A text without carriage returns stays as it is. -/
theorem of_notMem (h : '\r' ∉ s.toList) :
  Unifies s s
  := unifyLineEnds_append_of_notMem h

/-- A text between quotes, or whatever is no line end. -/
theorem between {c : Char} (hreturn : c ≠ '\r') (hfeed : c ≠ '\n') (s : String) :
  Unifies (String.singleton c ++ s ++ String.singleton c)
    (String.singleton c ++ withLineFeeds s ++ String.singleton c)
  := by
  intro rest
  have hback : ∀ d ∈ (c :: rest).head?, d ≠ '\n' := by
    rintro _ ⟨⟩
    exact hfeed
  simp only [String.toList_append, String.toList_singleton, withLineFeeds, String.toList_ofList,
    List.append_assoc, List.singleton_append]
  rw [List.cons_append, unifyLineEnds_cons hreturn, unifyLineEnds_append hback,
    unifyLineEnds_cons hreturn, List.cons_append]

end Unifies

end Letter
