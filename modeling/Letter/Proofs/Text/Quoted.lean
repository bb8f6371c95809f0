import Letter.Token.Basic
import Mathlib.Tactic.SplitIfs

/-!
# Quoted texts stand on one line

Between its quotes a text is shown without line breaks: each is escaped, whatever the text
holds.  So a list of tokens fills one line.
-/

namespace Letter

/-! ### Quoted texts -/

theorem hexDigit_ne_newline :
  ∀ n < 16, hexDigit n ≠ '\n'
  := by decide

theorem newline_notMem_hexDigits (width n : Nat) :
  '\n' ∉ hexDigits width n
  := by
  induction width generalizing n with
  | zero => exact List.not_mem_nil
  | succ width ih =>
    rw [hexDigits, List.mem_append, List.mem_singleton, not_or]
    exact ⟨ih _, (hexDigit_ne_newline _ (Nat.mod_lt _ (by decide))).symm⟩

/-- A character is shown without a line break. -/
theorem newline_notMem_showChar {quote : Char} (hquote : quote ≠ '\n') (c : Char) :
  '\n' ∉ showChar quote c
  := by
  have hhex (width : Nat) : '\n' ∉ hexDigits width c.toNat := newline_notMem_hexDigits _ _
  rw [showChar]
  split_ifs with hescaped hnewline
  · have hc : c ≠ '\n' := by
      rintro rfl
      simp [hquote.symm] at hescaped
    simp [hc.symm]
  · decide
  · decide
  · decide
  · simpa using Ne.symm hnewline
  all_goals simp [hhex]

theorem enclosingQuote_ne_newline (s : List Char) :
  enclosingQuote s ≠ '\n'
  := by
  rw [enclosingQuote]
  split
  · decide
  · decide

/-- A text is shown on one line. -/
theorem newline_notMem_quoted (s : String) :
  '\n' ∉ (quoted s).toList
  := by
  have hquote := enclosingQuote_ne_newline s.toList
  simp [quoted, hquote.symm, newline_notMem_showChar hquote]

/-! ### Lists of tokens -/

theorem newline_notMem_label (k : TokenKind) :
  '\n' ∉ k.label.toList
  := by
  cases k with
  | delimiter d => cases d <;> decide
  | keyword k => cases k <;> decide
  | operators c =>
    cases c with
    | binary level => cases level <;> decide
    | _ => decide
  | _ => decide

/-- A token is shown on one line. -/
theorem newline_notMem_shown (t : Token) :
  '\n' ∉ t.shown.toList
  := by simp [Token.shown, newline_notMem_label, newline_notMem_quoted]

theorem newline_notMem_intercalate {items : List String} (h : ∀ s ∈ items, '\n' ∉ s.toList) :
  '\n' ∉ (", ".intercalate items).toList
  := by
  induction items with
  | nil => exact List.not_mem_nil
  | cons s items ih =>
    obtain ⟨hs, hitems⟩ := List.forall_mem_cons.1 h
    cases items with
    | nil => rwa [String.intercalate_singleton]
    | cons s' items =>
      rw [String.intercalate_cons_cons, String.toList_append, String.toList_append,
        List.mem_append, List.mem_append, not_or, not_or]
      exact ⟨⟨hs, by decide⟩, ih hitems⟩

/-- A list of tokens is shown on one line. -/
theorem newline_notMem_bracketed (ts : List Token) :
  '\n' ∉ (bracketed (ts.map Token.shown)).toList
  := by
  have hitems : ∀ s ∈ ts.map Token.shown, '\n' ∉ s.toList := by
    intro s hs
    obtain ⟨t, -, rfl⟩ := List.mem_map.1 hs
    exact newline_notMem_shown t
  have h := newline_notMem_intercalate hitems
  rw [bracketed, String.toList_append, String.toList_append, List.mem_append, List.mem_append,
    not_or, not_or]
  exact ⟨⟨by decide, h⟩, by decide⟩

end Letter
