import Letter.Token.Rule

/-!
# Reading tokens from a text

A scanner is a place in a text.  Reading the next token passes over blanks and comments;
it ends at the end of the text, or where no rule applies.  In the latter case the scanner
is stuck: it stays at the offending character, and reading again meets it again.

`Scanner.next_token_length_lt` bounds reading: each token leaves less text than before.
-/

namespace Letter

/-- A character at which no rule applies, and its distance from the beginning. -/
structure Stuck where
  /-- The offending character. -/
  char : Char
  /-- The number of characters before it. -/
  offset : Nat
  deriving DecidableEq, Repr

/-- What is said of a character at which no rule applies, and of its distance from the
beginning. -/
def unexpectedAt (char : Char) (offset : Int) : String :=
  "Unexpected token: \"" ++ String.singleton char ++ "\" at offset " ++ toString offset

/-- The message of a scanner that is stuck. -/
def Stuck.message (e : Stuck) : String := unexpectedAt e.char e.offset

/-- A place in a text: what follows it, and its distance from the beginning. -/
structure Scanner where
  /-- The text that follows. -/
  rest : List Char
  /-- The number of characters before. -/
  offset : Nat
  deriving DecidableEq, Repr

namespace Scanner

/-- The place at distance `n` from the beginning of a text, past its end perhaps. -/
def seek (s : List Char) (n : Nat) : Scanner := ⟨s.drop n, n⟩

/-- The beginning of a text. -/
def ofList (s : List Char) : Scanner := ⟨s, 0⟩

/-- What reading the next token comes to: a token, the end of the text, or a character at
which no rule applies. -/
inductive Reading where
  | token (t : Token)
  | finished
  | stuck (e : Stuck)
  deriving DecidableEq, Repr

/-- Reads the next token, and gives the place where reading stopped. -/
def next (s : Scanner) : Reading × Scanner :=
  match s.rest with
  | [] => (.finished, s)
  | c :: _ =>
    match _h : Rule.first? s.rest with
    | none => (.stuck ⟨c, s.offset⟩, s)
    | some (.skipped text, rest) => next ⟨rest, s.offset + text.length⟩
    | some (.token t, rest) => (.token t, ⟨rest, s.offset + t.text.length⟩)
  termination_by s.rest.length
  decreasing_by exact Rule.first?_length_lt ‹_›

/-- A token leaves less text than there was before. -/
theorem next_token_length_lt {s s' : Scanner} {t : Token} (h : s.next = (.token t, s')) :
  s'.rest.length < s.rest.length
  := by
  fun_induction next s with
  | case1 => simp at h
  | case2 => simp at h
  | case3 s c r hs text rest hf ih =>
    exact Nat.lt_trans (ih h) (Rule.first?_length_lt hf)
  | case4 s c r hs t rest hf =>
    obtain ⟨-, rfl⟩ := Prod.mk.inj h
    exact Rule.first?_length_lt hf

/-- Reading never goes back. -/
theorem next_length_le (s : Scanner) :
  s.next.2.rest.length ≤ s.rest.length
  := by
  fun_induction next s with
  | case1 => exact Nat.le_refl _
  | case2 => exact Nat.le_refl _
  | case3 s c r hs text rest hf ih =>
    exact Nat.le_trans ih (Nat.le_of_lt (Rule.first?_length_lt hf))
  | case4 s c r hs t rest hf => exact Nat.le_of_lt (Rule.first?_length_lt hf)

/-- All that is still to be read: the tokens, and what ends them. -/
structure Remainder where
  /-- The tokens, in order. -/
  tokens : List Token
  /-- The character at which reading gets stuck, if it does. -/
  stuck? : Option Stuck
  /-- The place where reading ends. -/
  final : Scanner

/-- Reads all tokens up to the end of the text or to a character at which no rule
applies. -/
def remainder (s : Scanner) : Remainder :=
  match _h : s.next with
  | (.finished, s') => ⟨[], none, s'⟩
  | (.stuck e, s') => ⟨[], some e, s'⟩
  | (.token t, s') =>
    let later := remainder s'
    { later with tokens := t :: later.tokens }
  termination_by s.rest.length
  decreasing_by exact next_token_length_lt ‹_›

end Scanner

/-- The tokens of a text, or the character at which no rule applies. -/
def tokenize (source : String) : Except Stuck (List Token) :=
  let all := (Scanner.ofList source.toList).remainder
  match all.stuck? with
  | some e => .error e
  | none => .ok all.tokens

end Letter
