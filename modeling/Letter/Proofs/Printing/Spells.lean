import Letter.Proofs.Printing.Tokens
import Mathlib.Data.List.Forall2

/-!
# Texts that spell tokens

A text spells tokens if it is cut into them wherever it stands, as long as no word character
follows it, and if nothing before it is made longer by its first character.  The pieces
which the standard form is put together from spell the tokens that they are meant for.
-/

namespace Letter

/-- The text is cut into the tokens whatever stands behind it, if that is no word character. -/
def CutsOff (s : String) (ts : List Token) : Prop :=
  ∀ rest us, EndsWord rest → Cut rest us → Cut (s.toList ++ rest) (ts ++ us)

/-- The text is cut into the tokens wherever it stands. -/
structure Spells (s : String) (ts : List Token) : Prop where
  /-- The first character makes no operator longer and begins no comment. -/
  start : ∃ c r, s.toList = c :: r ∧ c ≠ '=' ∧ c ≠ '/' ∧ c ≠ '*'
  cut : ∀ rest us, EndsWord rest → Cut rest us → Cut (s.toList ++ rest) (ts ++ us)

namespace Cut

variable {rest : List Char} {us : List Token}

/-- A delimiter in front of a text is cut off as a token of its own. -/
theorem delimiter (d : Delimiter) (h : Cut rest us) :
  Cut (d.char :: rest) (.delimiter d :: us)
  := by
  have hd := Cut.text (t := .delimiter d) trivial trivial h
  rwa [Token.text, String.toList_singleton] at hd

theorem space (h : Cut rest us) :
  Cut (' ' :: rest) us
  := (blank_iff (by decide)).2 h

/-- An operator between blanks. -/
theorem operator (o : Operator) (h : Cut rest us) :
  Cut (' ' :: (o.text.toList ++ ' ' :: rest)) (.operator o :: us)
  := by
  apply space
  apply Cut.text (t := .operator o) trivial _ (space h)
  intro c hc
  obtain rfl := Option.some.inj hc
  decide

end Cut

theorem endsWord_delimiter (d : Delimiter) (rest : List Char) :
  EndsWord (d.char :: rest)
  := by
  rw [endsWord_cons]
  exact d.isWordChar_char

theorem endsWord_space (rest : List Char) :
  EndsWord (' ' :: rest)
  := by
  rw [endsWord_cons]
  decide

/-- Texts separated by commas. -/
theorem CutsOff.separated {ss : List String} {tss : List (List Token)}
    (h : List.Forall₂ CutsOff ss tss) :
  CutsOff (", ".intercalate ss) ([.delimiter .comma].intercalate tss)
  := by
  intro rest us hends hcut
  induction h with
  | nil => simpa using hcut
  | @cons s ts ss tss hs hss ih =>
    cases hss with
    | nil => simpa using hs _ _ hends hcut
    | cons hs' hss =>
      have hcomma := hs _ _ (endsWord_delimiter .comma _) ((Cut.space ih).delimiter .comma)
      rw [String.intercalate_cons_cons, List.intercalate_cons_cons]
      simpa [Delimiter.char] using hcomma

namespace Spells

variable {s s' : String} {ts ts' : List Token}

theorem start_of_isWordChar {c : Char} (h : isWordChar c = true) :
  c ≠ '=' ∧ c ≠ '/' ∧ c ≠ '*'
  := by
  refine ⟨?_, ?_, ?_⟩ <;>
  · rintro rfl
    exact absurd h (by decide)

/-- A word starts no comment and continues no operator. -/
theorem start_of_word (hne : s.toList ≠ []) (hword : ∀ c ∈ s.toList, isWordChar c = true) :
  ∃ c r, s.toList = c :: r ∧ c ≠ '=' ∧ c ≠ '/' ∧ c ≠ '*'
  := by
  obtain ⟨c, r, hs⟩ := List.exists_cons_of_ne_nil hne
  exact ⟨c, r, hs, start_of_isWordChar (hword c (by rw [hs]; exact List.mem_cons_self))⟩

/-- A token that is no operator is spelled by its text. -/
theorem token {t : Token} (hvalid : t.Valid) (hoperator : ∀ o, t ≠ .operator o) :
  Spells t.text [t]
  := by
  constructor
  · cases t with
    | operator o => exact absurd rfl (hoperator o)
    | delimiter d =>
      exact ⟨d.char, [], String.toList_singleton _, by cases d <;> decide⟩
    | keyword k =>
      apply start_of_word (by cases k <;> decide) fun _ => Keyword.isWordChar_of_mem
    | number digits =>
      apply start_of_word hvalid.1 fun c hc => isWordChar_of_isDecimalDigit (hvalid.2 c hc)
    | string q contents =>
      exact ⟨q.char, contents.toList ++ [q.char], by simp [Token.text], by cases q <;> decide⟩
    | identifier name => apply start_of_word hvalid.nonempty hvalid.word
  · intro rest us hends hcut
    refine Cut.text hvalid ?_ hcut
    cases t with
    | operator o => exact absurd rfl (hoperator o)
    | delimiter _ | string _ _ => trivial
    | _ => exact hends

theorem append_start (h : Spells s ts) (t : String) :
  ∃ c r, (s ++ t).toList = c :: r ∧ c ≠ '=' ∧ c ≠ '/' ∧ c ≠ '*'
  := by
  obtain ⟨c, r, hs, hc⟩ := h.start
  exact ⟨c, r ++ t.toList, by rw [String.toList_append, hs, List.cons_append], hc⟩

theorem ne_empty (h : Spells s ts) :
  s ≠ ""
  := by
  rintro rfl
  obtain ⟨c, r, hs, -⟩ := h.start
  cases hs

/-- One text after another, with a blank between them. -/
theorem spaced (h : Spells s ts) (h' : Spells s' ts') :
  Spells (s ++ " " ++ s') (ts ++ ts')
  := by
  constructor
  · simpa [String.append_assoc] using h.append_start (" " ++ s')
  · intro rest us hends hcut
    have hright := Cut.space (h'.cut _ _ hends hcut)
    simpa using h.cut _ _ (endsWord_space _) hright

/-- A text in parentheses spells its tokens between them. -/
theorem parens (h : Spells s ts) :
  Spells ("(" ++ s ++ ")") (Token.inParens ts)
  := by
  constructor
  · exact ⟨'(', s.toList ++ [')'], by simp, by decide⟩
  · intro rest us _ hcut
    have hinside := h.cut _ _ (endsWord_delimiter .rightParen rest) (hcut.delimiter .rightParen)
    have houtside := hinside.delimiter .leftParen
    simpa [Token.inParens, Token.enclosed, Delimiter.char] using houtside

/-- An operator between operands. -/
theorem between (o : Operator) (h : Spells s ts) (h' : Spells s' ts') :
  Spells (s ++ " " ++ o.text ++ " " ++ s') (ts ++ .operator o :: ts')
  := by
  constructor
  · simpa [String.append_assoc] using h.append_start (" " ++ o.text ++ " " ++ s')
  · intro rest us hends hcut
    have hright := (h'.cut _ _ hends hcut).operator o
    have hleft := h.cut _ _ (endsWord_space _) hright
    simpa using hleft

/-- An operator before an operand. -/
theorem unary (op : UnaryOp) (h : Spells s ts) :
  Spells (op.text ++ s) (.operator op.operator :: ts)
  := by
  constructor
  · cases op <;> exact ⟨_, s.toList, by simp [UnaryOp.text]; rfl, by decide⟩
  · intro rest us hends hcut
    have hinside := h.cut _ _ hends hcut
    obtain ⟨c, r, hs, hc⟩ := h.start
    have hoperator := Cut.text (t := .operator op.operator) trivial
      (by simpa [Token.Apart, hs] using hc) hinside
    simpa [Token.text, UnaryOp.text_operator] using hoperator

/-- A member that is taken by its name. -/
theorem member {name : String} (h : Spells s ts) (hname : IsName name) :
  Spells (s ++ "." ++ name) (ts ++ [.delimiter .dot, .identifier name])
  := by
  constructor
  · simpa [String.append_assoc] using h.append_start ("." ++ name)
  · intro rest us hends hcut
    have hright := Cut.text (t := .identifier name) hname hends hcut
    have hleft := h.cut _ _ (endsWord_delimiter .dot _) (hright.delimiter .dot)
    simpa [Token.text, Delimiter.char] using hleft

/-- A member that is taken by the value of an expression. -/
theorem index (h : Spells s ts) (h' : Spells s' ts') :
  Spells (s ++ "[" ++ s' ++ "]") (ts ++ Token.inBrackets ts')
  := by
  constructor
  · simpa [String.append_assoc] using h.append_start ("[" ++ s' ++ "]")
  · intro rest us _ hcut
    have hinside := h'.cut _ _ (endsWord_delimiter .rightBracket rest)
      (hcut.delimiter .rightBracket)
    have hleft := h.cut _ _ (endsWord_delimiter .leftBracket _)
      (hinside.delimiter .leftBracket)
    simpa [Token.inBrackets, Token.enclosed, Delimiter.char] using hleft

/-- Texts with commas and blanks between spell their tokens with commas between. -/
theorem separated {ss : List String} {tss : List (List Token)}
    (h : List.Forall₂ Spells ss tss) (hne : tss ≠ []) :
  Spells (", ".intercalate ss) ([.delimiter .comma].intercalate tss)
  := by
  refine ⟨?_, CutsOff.separated (h.imp fun _ _ hs => hs.cut)⟩
  cases h with
  | nil => exact absurd rfl hne
  | cons hs hss =>
    cases hss with
    | nil => simpa using hs.start
    | cons hs' hss =>
      rw [String.intercalate_cons_cons, String.append_assoc]
      apply hs.append_start

/-- A delimiter behind a text. -/
theorem delimited (h : Spells s ts) (d : Delimiter) :
  Spells (s ++ String.singleton d.char) (ts ++ [.delimiter d])
  := by
  constructor
  · apply h.append_start
  · intro rest us _ hcut
    simpa using h.cut _ _ (endsWord_delimiter d rest) (hcut.delimiter d)

/-- The arguments of a call. -/
theorem call {ss : List String} {tss : List (List Token)} (h : Spells s ts)
    (hss : List.Forall₂ Spells ss tss) :
  Spells (s ++ "(" ++ ", ".intercalate ss ++ ")")
    (ts ++ Token.inParens ([.delimiter .comma].intercalate tss))
  := by
  constructor
  · simpa [String.append_assoc] using h.append_start ("(" ++ ", ".intercalate ss ++ ")")
  · intro rest us _ hcut
    have hinside := CutsOff.separated (hss.imp fun _ _ hs => hs.cut) _ _
      (endsWord_delimiter .rightParen rest) (hcut.delimiter .rightParen)
    have hleft := h.cut _ _ (endsWord_delimiter .leftParen _) (hinside.delimiter .leftParen)
    simpa [Token.inParens, Token.enclosed, Delimiter.char] using hleft

end Spells

end Letter
