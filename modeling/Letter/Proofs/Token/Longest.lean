import Letter.Proofs.Token.Gap

/-!
# The first rule takes the longest text

Where a rule of the table applies, the first one that does decides what is taken.  Most rules
decide wherever they apply, whichever they are: no rule before them applies there as well.
This is not so of the rule of words, which reserved words and numerals precede, and of operators
of one character, which comments and longer operators precede.  Neither takes more than what
precedes it, with one exception: a word may begin with a numeral and go on behind it.

Main statement: `firstRule_longest`.
-/

namespace Letter.Rule

/-- The first rule of the table that applies to a text. -/
def firstRule? (s : List Char) : Option Rule := table.find? fun rule => (rule.lexeme? s).isSome

variable {rule : Rule} {s rest : List Char} {l : Lexeme}

/-- The first rule that applies is the one that decides. -/
theorem exists_of_firstRule? (h : firstRule? s = some rule) :
  ∃ l rest, rule.lexeme? s = some (l, rest) ∧ first? s = some (l, rest)
  := by
  obtain ⟨happlies, before, after, htable, hnone⟩ := List.find?_eq_some_iff_append.1 h
  obtain ⟨⟨l, rest⟩, hl⟩ := Option.isSome_iff_exists.1 happlies
  refine ⟨l, rest, hl, ?_⟩
  apply List.findSome?_eq_some_iff.2
  exact ⟨before, rule, after, htable, hl, fun rule' hrule => by simpa using hnone rule' hrule⟩

/-! ### Rules that decide wherever they apply -/

/-- A blank begins nothing but a run of blanks. -/
theorem first?_of_blanks (h : blanks.lexeme? s = some (l, rest)) :
  first? s = some (l, rest)
  := by
  rw [first?, table]
  simp only [List.cons_append, List.findSome?_cons, h]

/-- A comment to the end of its line is what the first rule that applies takes. -/
theorem first?_of_lineComment (h : lineComment.lexeme? s = some (l, rest)) :
  first? s = some (l, rest)
  := by
  obtain ⟨r, hr, -⟩ := Option.map_eq_some_iff.1 h
  obtain rfl := after?_eq_some hr
  rw [List.cons_append] at h ⊢
  rw [first?_eq_ofOperator '/' (by decide), ofOperator, List.findSome?_cons, h]
  all_goals decide

theorem first?_of_blockComment (h : blockComment.lexeme? s = some (l, rest)) :
  first? s = some (l, rest)
  := by
  obtain ⟨r, hr⟩ := after?_of_blockComment (s := s) (by simp [h])
  obtain rfl := after?_eq_some hr
  have hline : lineComment.lexeme? (['/', '*'] ++ r) = none := rfl
  rw [List.cons_append] at h hline ⊢
  rw [first?_eq_ofOperator '/' (by decide), ofOperator, List.findSome?_cons, hline,
    List.findSome?_cons, h]
  all_goals decide

theorem first?_of_delimiter {d : Delimiter} (h : (delimiter d).lexeme? s = some (l, rest)) :
  first? s = some (l, rest)
  := by
  obtain ⟨r, hr, he⟩ := Option.map_eq_some_iff.1 h
  obtain rfl := after?_eq_some hr
  cases he
  apply first?_delimiter

/-- A reserved word is followed by no word character. -/
theorem first?_of_keyword {k : Keyword} (h : (keyword k).lexeme? s = some (l, rest)) :
  first? s = some (l, rest)
  := by
  simp only [lexeme?, Option.bind_eq_bind, Option.bind_eq_some_iff] at h
  obtain ⟨r, hr, h⟩ := h
  obtain rfl := after?_eq_some hr
  split at h
  · cases h
  · next hends =>
    cases h
    apply first?_text (t := .keyword k) trivial
    intro c hc
    rw [Option.mem_def] at hc
    simpa [hc] using hends

/-- A string literal is all that a quote begins. -/
theorem first?_of_string {q : Quote} (h : (string q).lexeme? s = some (l, rest)) :
  first? s = some (l, rest)
  := by
  have h' := h
  simp only [lexeme?, Option.bind_eq_bind, Option.bind_eq_some_iff] at h'
  obtain ⟨inside, hinside, -⟩ := h'
  obtain rfl := after?_eq_some hinside
  rw [List.singleton_append] at h ⊢
  rwa [first?_quote]

/-- An operator of two characters is read as such, whatever follows it. -/
theorem first?_of_longOperator {o : Operator} (h : 2 ≤ o.text.toList.length) (rest : List Char) :
  first? (o.text.toList ++ rest) = some (.token (.operator o), rest)
  := by
  have hcomment : lineComment.lexeme? ('/' :: '=' :: rest) = none
      ∧ blockComment.lexeme? ('/' :: '=' :: rest) = none := lexeme?_comment_eq_none (by simp)
  cases o with
  | binary o =>
    cases o <;> simp [Operator.text, BinaryOp.text, first?_eq_ofOperator, ofOperator,
      lexeme?_operators, OperatorClass.operators, operator?, after?] at h ⊢
  | assign o =>
    cases o <;> simp [Operator.text, AssignOp.text, first?_eq_ofOperator, ofOperator, hcomment,
      lexeme?_operators, OperatorClass.operators, operator?, after?] at h ⊢
  | not => simp [Operator.text] at h

/-- What a rule takes decides wherever it is no word and has more than one character. -/
theorem first?_of_lexeme? (h : rule.lexeme? s = some (l, rest)) (hword : rule ≠ word)
    (hlong : 2 ≤ l.text.length) :
  first? s = some (l, rest)
  := by
  cases rule with
  | blanks => apply first?_of_blanks h
  | lineComment => apply first?_of_lineComment h
  | blockComment => apply first?_of_blockComment h
  | delimiter d => apply first?_of_delimiter h
  | keyword k => apply first?_of_keyword h
  | operators c =>
    obtain ⟨⟨o, r⟩, hr, he⟩ := Option.map_eq_some_iff.1 h
    obtain ⟨-, rfl⟩ := operator?_eq_some hr
    cases he
    apply first?_of_longOperator hlong
  | number =>
    obtain ⟨⟨digits, r⟩, hr, -⟩ := Option.map_eq_some_iff.1 h
    cases s with
    | nil => cases hr
    | cons c s => rwa [first?_digit (head_of_run? hr)]
  | string q => apply first?_of_string h
  | word => exact absurd rfl hword

/-! ### The longest text -/

/-- The token that a rule takes is of the kind of the rule. -/
theorem kind?_of_lexeme? {t : Token} (h : rule.lexeme? s = some (.token t, rest)) :
  rule.kind? = some t.kind
  := by
  cases rule with
  | blanks | lineComment =>
    obtain ⟨_, _, he⟩ := Option.map_eq_some_iff.1 h
    cases he
  | blockComment =>
    simp [lexeme?, Option.bind_eq_some_iff] at h
  | delimiter d =>
    obtain ⟨_, _, he⟩ := Option.map_eq_some_iff.1 h
    cases he
    rfl
  | number | word =>
    obtain ⟨_, _, he⟩ := Option.map_eq_some_iff.1 h
    cases he
    rfl
  | keyword k =>
    simp only [lexeme?, Option.bind_eq_bind, Option.bind_eq_some_iff] at h
    obtain ⟨r, -, h⟩ := h
    split at h
    · cases h
    · cases h
      rfl
  | operators c =>
    obtain ⟨⟨o, r⟩, hr, he⟩ := Option.map_eq_some_iff.1 h
    cases he
    have hclass : ∀ o ∈ c.operators, o.operatorClass = c := by
      cases c with
      | binary level => cases level <;> decide
      | _ => decide
    rw [Token.kind, hclass o (operator?_eq_some hr).1, kind?]
  | string q =>
    simp only [lexeme?, Option.bind_eq_bind, Option.bind_eq_some_iff, Option.pure_def,
      Option.some.injEq, Prod.mk.injEq] at h
    obtain ⟨_, _, _, _, he, -⟩ := h
    cases he
    rfl

/-- Where a digit stands, the first rule that applies is that of numerals. -/
theorem eq_number_of_firstRule? {c : Char} (h : firstRule? (c :: s) = some rule)
    (hc : isDecimalDigit c = true) :
  rule = number
  := by
  obtain ⟨l, rest, hl, hfirst⟩ := exists_of_firstRule? h
  rw [first?_digit hc] at hfirst
  obtain ⟨_, _, he⟩ := Option.map_eq_some_iff.1 hfirst
  cases he
  have hkind := kind?_of_lexeme? hl
  cases rule <;> first | rfl | cases hkind

/-- A word that begins with a numeral goes on with the word characters behind it. -/
theorem word_of_number (h : number.lexeme? s = some (l, rest)) :
  ∃ l' rest', word.lexeme? s = some (l', rest')
    ∧ l'.text = l.text ++ rest.takeWhile isWordChar
  := by
  obtain ⟨⟨digits, r⟩, hr, he⟩ := Option.map_eq_some_iff.1 h
  cases he
  obtain ⟨rfl, hne, hdigits, -⟩ := run?_eq_some_iff.1 hr
  have hword : ∀ c ∈ digits, isWordChar c = true :=
    fun c hc => isWordChar_of_isDecimalDigit (hdigits c hc)
  have hrun : run? isWordChar (digits ++ rest)
      = some (digits ++ rest.takeWhile isWordChar, rest.dropWhile isWordChar) := by
    rw [run?, List.takeWhile_append_of_pos hword, List.dropWhile_append_of_pos hword,
      if_neg (by simp [hne])]
  refine ⟨_, _, by rw [lexeme?, hrun, Option.map_some], ?_⟩
  simp [Lexeme.text, Token.text]

/-- A word that does not begin with a digit is taken, as a name or as a reserved word. -/
theorem first?_of_word_of_head (h : word.lexeme? s = some (l, rest))
    (hhead : ∀ c ∈ s.head?, isDecimalDigit c = false) :
  ∃ l', first? s = some (l', rest) ∧ l'.text = l.text
  := by
  obtain ⟨⟨name, r⟩, hr, he⟩ := Option.map_eq_some_iff.1 h
  cases he
  refine ⟨_, first?_of_word hr hhead, ?_⟩
  rw [Lexeme.text, Token.text_ofWord]
  rfl

/-- The first rule of the table that applies to a text takes at least as much of it as any other
rule that applies, except that the rule of words may take more where that of numerals is the first:
it does exactly if a word character follows the numeral. -/
theorem firstRule_longest (h : firstRule? s = some rule) :
  ∃ l rest, rule.lexeme? s = some (l, rest) ∧ first? s = some (l, rest)
    ∧ (∀ rule' ∈ table, ∀ l' rest', rule'.lexeme? s = some (l', rest') →
        l'.text.length ≤ l.text.length ∨ rule = number ∧ rule' = word)
    ∧ (rule = number → ∃ l' rest', word.lexeme? s = some (l', rest')
        ∧ (l.text.length < l'.text.length ↔ ∃ c ∈ rest.head?, isWordChar c = true))
  := by
  obtain ⟨l, rest, hl, hfirst⟩ := exists_of_firstRule? h
  refine ⟨l, rest, hl, hfirst, fun rule' _ l' rest' hl' => ?_, ?_⟩
  · by_cases hword : rule' = word
    · subst hword
      by_cases hhead : ∀ c ∈ s.head?, isDecimalDigit c = false
      · obtain ⟨l'', hfirst', htext⟩ := first?_of_word_of_head hl' hhead
        rw [hfirst] at hfirst'
        cases hfirst'
        exact .inl (Nat.le_of_eq (congrArg List.length htext.symm))
      · right
        cases s with
        | nil => simp at hhead
        | cons c s =>
          simp only [List.head?_cons, Option.mem_some_iff, forall_eq', Bool.not_eq_false] at hhead
          exact ⟨eq_number_of_firstRule? h hhead, rfl⟩
    · left
      by_cases hlong : 2 ≤ l'.text.length
      · have hsame := first?_of_lexeme? hl' hword hlong
        rw [hfirst] at hsame
        cases hsame
        apply Nat.le_refl
      · have hpos := List.length_pos_iff.2 (text_ne_nil hl)
        omega
  · rintro rfl
    obtain ⟨l', rest', hl', htext⟩ := word_of_number hl
    refine ⟨l', rest', hl', ?_⟩
    cases rest with
    | nil => simp [htext]
    | cons c r => by_cases hc : isWordChar c = true <;> simp [htext, hc]

/-- A digit before a letter, of which the rule for words would take more. -/
theorem firstRule_longest_samples :
  firstRule? "1a".toList = some number
    ∧ ∃ l rest, number.lexeme? "1a".toList = some (l, rest) ∧ first? "1a".toList = some (l, rest)
      ∧ (∀ rule' ∈ table, ∀ l' rest', rule'.lexeme? "1a".toList = some (l', rest') →
          l'.text.length ≤ l.text.length ∨ number = number ∧ rule' = word)
      ∧ (number = number → ∃ l' rest', word.lexeme? "1a".toList = some (l', rest')
          ∧ (l.text.length < l'.text.length ↔ ∃ c ∈ rest.head?, isWordChar c = true))
  := ⟨by decide, firstRule_longest (by decide)⟩

end Letter.Rule
