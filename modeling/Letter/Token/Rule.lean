import Letter.Text.Blank
import Letter.Text.DecimalDigit
import Letter.Text.WordChar
import Letter.Token.Basic

/-!
# Lexical rules

The source is cut into lexemes by an ordered list of rules.  At each place the first rule
that applies decides what is taken from the front of the text: either a stretch without
meaning (blanks or a comment) or a token.  `Rule.text_append` says that what a rule takes
and what it leaves make up the text it was applied to, and `Rule.length_lt` that it never
takes nothing.
-/

namespace Letter

/-- What a rule takes from the front of a text. -/
inductive Lexeme where
  /-- Blanks or a comment. -/
  | skipped (text : List Char)
  /-- A token. -/
  | token (t : Token)
  deriving DecidableEq, Repr

/-- The characters of a lexeme. -/
def Lexeme.text : Lexeme → List Char
  | skipped text => text
  | token t => t.text.toList

/-- What follows the text `s` at the front of a text, if `s` stands there. -/
def after? : List Char → List Char → Option (List Char)
  | [], rest => some rest
  | _ :: _, [] => none
  | c :: s, d :: rest => if c = d then after? s rest else none

/-- What stands before the end of a block comment, and what follows that end. -/
def blockEnd? : List Char → Option (List Char × List Char)
  | '*' :: '/' :: rest => some ([], rest)
  | c :: rest => (blockEnd? rest).map fun (inside, after) => (c :: inside, after)
  | [] => none

/-- A rule of the lexical grammar. -/
inductive Rule where
  /-- A run of blank characters. -/
  | blanks
  /-- `//` and what follows it on the line. -/
  | lineComment
  /-- `/*` and what follows it up to the next `*/`. -/
  | blockComment
  /-- A delimiter. -/
  | delimiter (d : Delimiter)
  /-- A reserved word that is not the beginning of a longer word. -/
  | keyword (k : Keyword)
  /-- An operator of a class. -/
  | operators (c : OperatorClass)
  /-- A run of decimal digits. -/
  | number
  /-- A text between two quotes of one form. -/
  | string (q : Quote)
  /-- A run of word characters. -/
  | word
  deriving DecidableEq, Repr

namespace Rule

/-- The rules, in the order in which they are tried. -/
def table : List Rule :=
  [blanks, lineComment, blockComment] ++ Delimiter.all.map delimiter
    ++ Keyword.all.map keyword ++ OperatorClass.all.map operators
    ++ [number, string .double, string .single, word]

/-- The kind of the tokens that a rule takes, and `none` for blanks and comments. -/
def kind? : Rule → Option TokenKind
  | blanks | lineComment | blockComment => none
  | delimiter d => some (.delimiter d)
  | keyword k => some (.keyword k)
  | operators c => some (.operators c)
  | number => some .number
  | string _ => some .string
  | word => some .identifier

/-- A nonempty run of characters at the front of a text, and what follows it. -/
def run? (p : Char → Bool) (s : List Char) : Option (List Char × List Char) :=
  if (s.takeWhile p).isEmpty then none else some (s.takeWhile p, s.dropWhile p)

/-- The operator of a list that stands at the front of a text, and what follows it. -/
def operator? (s : List Char) : List Operator → Option (Operator × List Char)
  | [] => none
  | o :: later =>
    match after? o.text.toList s with
    | some rest => some (o, rest)
    | none => operator? s later

/-- What a rule takes from the front of a text, and what it leaves. -/
def lexeme? (rule : Rule) (s : List Char) : Option (Lexeme × List Char) :=
  match rule with
  | blanks => (run? isBlank s).map fun (text, rest) => (.skipped text, rest)
  | lineComment =>
    (after? ['/', '/'] s).map fun rest =>
      (.skipped ('/' :: '/' :: rest.takeWhile (· ≠ '\n')), rest.dropWhile (· ≠ '\n'))
  | blockComment => do
    let (inside, rest) ← blockEnd? (← after? ['/', '*'] s)
    return (.skipped ('/' :: '*' :: inside ++ ['*', '/']), rest)
  | delimiter d => (after? [d.char] s).map fun rest => (.token (.delimiter d), rest)
  | keyword k => do
    let rest ← after? k.text.toList s
    if (rest.head?.map isWordChar).getD false then none
    else return (.token (.keyword k), rest)
  | operators c =>
    (operator? s c.operators).map fun (o, rest) => (.token (.operator o), rest)
  | number =>
    (run? isDecimalDigit s).map fun (digits, rest) =>
      (.token (.number (String.ofList digits)), rest)
  | string q => do
    let inside ← after? [q.char] s
    let rest ← after? [q.char] (inside.dropWhile (· ≠ q.char))
    return (.token (.string q (String.ofList (inside.takeWhile (· ≠ q.char)))), rest)
  | word =>
    (run? isWordChar s).map fun (name, rest) =>
      (.token (.identifier (String.ofList name)), rest)

/-- What the first applicable rule takes from the front of a text, and what it leaves. -/
def first? (s : List Char) : Option (Lexeme × List Char) :=
  table.findSome? fun rule => rule.lexeme? s

/-! ### What a rule takes and leaves -/

theorem after?_eq_some {p s rest : List Char} (h : after? p s = some rest) :
  p ++ rest = s
  := by
  fun_induction after? p s with
  | case1 s => simpa using h.symm
  | case2 => simp at h
  | case3 p d s ih => simpa using ih h
  | case4 => simp at h

theorem blockEnd?_eq_some {s inside rest : List Char}
    (h : blockEnd? s = some (inside, rest)) :
  inside ++ '*' :: '/' :: rest = s
  := by
  fun_induction blockEnd? s generalizing inside with
  | case1 => simp_all
  | case2 c s _ ih =>
    obtain ⟨⟨i, r⟩, hr, he⟩ := Option.map_eq_some_iff.1 h
    obtain ⟨rfl, rfl⟩ := Prod.mk.inj he
    simpa using ih hr
  | case3 => simp at h

theorem run?_eq_some {p : Char → Bool} {s text rest : List Char}
    (h : run? p s = some (text, rest)) :
  text ++ rest = s ∧ text ≠ []
  := by
  unfold run? at h
  split at h
  · simp at h
  · next hne =>
    obtain ⟨rfl, rfl⟩ := Prod.mk.inj (Option.some.inj h)
    exact ⟨List.takeWhile_append_dropWhile, by simpa using hne⟩

/-- The operator that is read is one of those given, and the rest stands behind it. -/
theorem operator?_eq_some {s rest : List Char} {o : Operator} {os : List Operator}
    (h : operator? s os = some (o, rest)) :
  o ∈ os ∧ o.text.toList ++ rest = s
  := by
  induction os with
  | nil => simp [operator?] at h
  | cons o' os ih =>
    unfold operator? at h
    split at h
    · next rest' ha =>
      obtain ⟨rfl, rfl⟩ := Prod.mk.inj (Option.some.inj h)
      exact ⟨by simp, after?_eq_some ha⟩
    · exact ⟨List.mem_cons_of_mem _ (ih h).1, (ih h).2⟩

/-- A rule takes a stretch from the front of the text and leaves the rest unchanged. -/
theorem text_append {rule : Rule} {s rest : List Char} {l : Lexeme}
    (h : rule.lexeme? s = some (l, rest)) :
  l.text ++ rest = s
  := by
  cases rule with
  | blanks | number | word =>
    obtain ⟨⟨t, r⟩, hr, he⟩ := Option.map_eq_some_iff.1 h
    obtain ⟨rfl, rfl⟩ := Prod.mk.inj he
    simpa [Lexeme.text, Token.text] using (run?_eq_some hr).1
  | lineComment =>
    obtain ⟨r, hr, he⟩ := Option.map_eq_some_iff.1 h
    obtain ⟨rfl, rfl⟩ := Prod.mk.inj he
    simpa [Lexeme.text] using after?_eq_some hr
  | blockComment =>
    simp only [lexeme?, Option.bind_eq_bind, Option.bind_eq_some_iff, Option.pure_def,
      Option.some.injEq, Prod.mk.injEq] at h
    obtain ⟨r, hr, ⟨i, r'⟩, hi, rfl, rfl⟩ := h
    have := blockEnd?_eq_some hi
    simpa [Lexeme.text, this] using after?_eq_some hr
  | delimiter d =>
    obtain ⟨r, hr, he⟩ := Option.map_eq_some_iff.1 h
    obtain ⟨rfl, rfl⟩ := Prod.mk.inj he
    simpa [Lexeme.text, Token.text] using after?_eq_some hr
  | keyword k =>
    simp only [lexeme?, Option.bind_eq_bind, Option.bind_eq_some_iff] at h
    obtain ⟨r, hr, h⟩ := h
    split at h
    · simp at h
    · obtain ⟨rfl, rfl⟩ := Prod.mk.inj (Option.some.inj h)
      exact after?_eq_some hr
  | operators c =>
    obtain ⟨⟨o, r⟩, hr, he⟩ := Option.map_eq_some_iff.1 h
    obtain ⟨rfl, rfl⟩ := Prod.mk.inj he
    exact (operator?_eq_some hr).2
  | string q =>
    simp only [lexeme?, Option.bind_eq_bind, Option.bind_eq_some_iff, Option.pure_def,
      Option.some.injEq, Prod.mk.injEq] at h
    obtain ⟨i, hi, r, hr, rfl, rfl⟩ := h
    have hq := after?_eq_some hi
    have he := after?_eq_some hr
    rw [← hq]
    simp only [Lexeme.text, Token.text, String.toList_append, String.toList_singleton,
      String.toList_ofList, List.append_assoc, he, List.takeWhile_append_dropWhile]

theorem operator_text_ne_nil (o : Operator) :
  o.text.toList ≠ []
  := by
  obtain o | o | _ := o
  · cases o <;> simp [Operator.text, BinaryOp.text]
  · cases o <;> simp [Operator.text, AssignOp.text]
  · simp [Operator.text]

/-- A rule never takes nothing. -/
theorem text_ne_nil {rule : Rule} {s rest : List Char} {l : Lexeme}
    (h : rule.lexeme? s = some (l, rest)) :
  l.text ≠ []
  := by
  cases rule with
  | blanks | number | word =>
    obtain ⟨⟨t, r⟩, hr, he⟩ := Option.map_eq_some_iff.1 h
    obtain ⟨rfl, rfl⟩ := Prod.mk.inj he
    simpa [Lexeme.text, Token.text] using (run?_eq_some hr).2
  | lineComment =>
    obtain ⟨r, hr, he⟩ := Option.map_eq_some_iff.1 h
    obtain ⟨rfl, rfl⟩ := Prod.mk.inj he
    simp [Lexeme.text]
  | blockComment =>
    simp only [lexeme?, Option.bind_eq_bind, Option.bind_eq_some_iff, Option.pure_def,
      Option.some.injEq, Prod.mk.injEq] at h
    obtain ⟨r, hr, ⟨i, r'⟩, hi, rfl, rfl⟩ := h
    simp [Lexeme.text]
  | delimiter d =>
    obtain ⟨r, hr, he⟩ := Option.map_eq_some_iff.1 h
    obtain ⟨rfl, rfl⟩ := Prod.mk.inj he
    simp [Lexeme.text, Token.text]
  | keyword k =>
    simp only [lexeme?, Option.bind_eq_bind, Option.bind_eq_some_iff] at h
    obtain ⟨r, hr, h⟩ := h
    split at h
    · simp at h
    · obtain ⟨rfl, rfl⟩ := Prod.mk.inj (Option.some.inj h)
      cases k <;> simp [Lexeme.text, Token.text, Keyword.text]
  | operators c =>
    obtain ⟨⟨o, r⟩, hr, he⟩ := Option.map_eq_some_iff.1 h
    obtain ⟨rfl, rfl⟩ := Prod.mk.inj he
    exact operator_text_ne_nil o
  | string q =>
    simp only [lexeme?, Option.bind_eq_bind, Option.bind_eq_some_iff, Option.pure_def,
      Option.some.injEq, Prod.mk.injEq] at h
    obtain ⟨i, hi, r, hr, rfl, rfl⟩ := h
    simp [Lexeme.text, Token.text]

/-- A rule leaves less than it was given. -/
theorem length_lt {rule : Rule} {s rest : List Char} {l : Lexeme}
    (h : rule.lexeme? s = some (l, rest)) :
  rest.length < s.length
  := by
  have hpos := List.length_pos_iff.2 (text_ne_nil h)
  rw [← text_append h, List.length_append]
  omega

/-- What is taken first is what some rule takes. -/
theorem exists_of_first? {s rest : List Char} {l : Lexeme}
    (h : first? s = some (l, rest)) :
  ∃ rule ∈ table, rule.lexeme? s = some (l, rest)
  := List.exists_of_findSome?_eq_some h

/-- The first applicable rule leaves less than it was given. -/
theorem first?_length_lt {s rest : List Char} {l : Lexeme}
    (h : first? s = some (l, rest)) :
  rest.length < s.length
  := by
  obtain ⟨_, _, hr⟩ := exists_of_first? h
  exact length_lt hr

end Rule

end Letter
