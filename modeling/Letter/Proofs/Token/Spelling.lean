import Letter.Proofs.Text.CharClass
import Letter.Proofs.Token.Cut
import Mathlib.Data.List.TakeWhile

/-!
# The spelling of tokens

A token is valid if its text is of the form that its kind asks for.  The text of a valid
token, followed by something that does not make it longer, is read as that token, and every
token that is read is valid.
-/

namespace Letter

/-! ### Valid tokens -/

/-- Whether a text is the spelling of a name: word characters, at least one, of which the
first is no decimal digit, and no reserved word. -/
structure IsName (name : String) : Prop where
  /-- There is a character. -/
  nonempty : name.toList ≠ []
  /-- All characters are word characters. -/
  word : ∀ c ∈ name.toList, isWordChar c = true
  /-- The first character is no decimal digit. -/
  head : ∀ c ∈ name.toList.head?, isDecimalDigit c = false
  /-- The text is no reserved word. -/
  notReserved : ∀ k : Keyword, k.text ≠ name

/-- Whether the text of a token is of the form that its kind asks for. -/
def Token.Valid : Token → Prop
  | delimiter _ | keyword _ | operator _ => True
  | number digits => digits.toList ≠ [] ∧ ∀ c ∈ digits.toList, isDecimalDigit c = true
  | string q contents => q.char ∉ contents.toList
  | identifier name => IsName name

/-- Whether a text does not begin with a word character. -/
def EndsWord (rest : List Char) : Prop := ∀ c ∈ rest.head?, isWordChar c = false

theorem endsWord_nil :
  EndsWord []
  := by simp [EndsWord]

theorem endsWord_cons {c : Char} {rest : List Char} :
  EndsWord (c :: rest) ↔ isWordChar c = false
  := by simp [EndsWord]

/-- Whether a token is not made longer by the text that follows it. -/
def Token.Apart (rest : List Char) : Token → Prop
  | delimiter _ | string _ _ => True
  | keyword _ | number _ | identifier _ => EndsWord rest
  | operator _ => ∀ c ∈ rest.head?, c ≠ '=' ∧ c ≠ '/' ∧ c ≠ '*'

/-- A blank makes no token longer. -/
theorem Token.apart_blank {c : Char} (h : isBlank c = true) (t : Token) (rest : List Char) :
  t.Apart (c :: rest)
  := by
  cases t with
  | operator o =>
    intro d hd
    obtain rfl := Option.some.inj hd
    refine ⟨?_, ?_, ?_⟩
    all_goals
      rintro rfl
      revert h
      decide
  | delimiter _ | string _ _ => trivial
  | _ => exact endsWord_cons.2 (isWordChar_eq_false_of_isBlank h)

/-! ### Rules that may apply -/

theorem Keyword.mem_all (k : Keyword) :
  k ∈ Keyword.all
  := by cases k <;> decide

theorem Keyword.isWordChar_of_mem {k : Keyword} {c : Char} (h : c ∈ k.text.toList) :
  isWordChar c = true
  := by
  have hall : k.text.toList.all isWordChar = true := by cases k <;> decide
  apply List.all_eq_true.1 hall c h

theorem Keyword.isDecimalDigit_of_mem_head {k : Keyword} {c : Char}
    (h : c ∈ k.text.toList.head?) :
  isDecimalDigit c = false
  := by
  have hany : k.text.toList.head?.any isDecimalDigit = false := by cases k <;> decide
  apply (Option.any_eq_false _ _).1 hany c h

theorem Delimiter.isWordChar_char (d : Delimiter) :
  isWordChar d.char = false
  := by cases d <;> decide

theorem Operator.isWordChar_of_mem_head {o : Operator} {c : Char}
    (h : c ∈ o.text.toList.head?) :
  isWordChar c = false
  := by
  have hany : o.text.toList.head?.any isWordChar = false := by
    cases o with
    | binary o => cases o <;> decide
    | assign o => cases o <;> decide
    | not => decide
  apply (Option.any_eq_false _ _).1 hany c h

namespace Rule

/-- Whether a rule may apply to a text that begins with a character. -/
def mayTake (rule : Rule) (c : Char) : Bool :=
  match rule with
  | blanks => isBlank c
  | lineComment | blockComment => c = '/'
  | delimiter d => c = d.char
  | keyword k => k.text.toList.head? = some c
  | operators cl => cl.operators.any fun o => o.text.toList.head? = some c
  | number => isDecimalDigit c
  | string q => c = q.char
  | word => isWordChar c

theorem head_of_run? {p : Char → Bool} {c : Char} {s text rest : List Char}
    (h : run? p (c :: s) = some (text, rest)) :
  p c = true
  := by
  by_contra hc
  rw [run?, List.takeWhile_cons_of_neg hc] at h
  cases h

theorem head_of_after? {p s rest : List Char} {c d : Char}
    (h : after? (d :: p) (c :: s) = some rest) :
  c = d
  := by
  rw [after?] at h
  split at h
  · next hd => exact hd.symm
  · cases h

/-- A rule applies only where it may apply. -/
theorem mayTake_of_lexeme? {rule : Rule} {c : Char} {s rest : List Char} {l : Lexeme}
    (h : rule.lexeme? (c :: s) = some (l, rest)) :
  rule.mayTake c = true
  := by
  have happend := text_append h
  have hne := text_ne_nil h
  cases rule with
  | blanks | number | word =>
    obtain ⟨⟨t, r⟩, hr, -⟩ := Option.map_eq_some_iff.1 h
    apply head_of_run? hr
  | lineComment =>
    obtain ⟨r, hr, -⟩ := Option.map_eq_some_iff.1 h
    apply decide_eq_true
    apply head_of_after? hr
  | blockComment =>
    simp only [lexeme?, Option.bind_eq_bind, Option.bind_eq_some_iff] at h
    obtain ⟨r, hr, -⟩ := h
    apply decide_eq_true
    apply head_of_after? hr
  | delimiter d =>
    obtain ⟨r, hr, -⟩ := Option.map_eq_some_iff.1 h
    apply decide_eq_true
    apply head_of_after? hr
  | keyword k =>
    simp only [lexeme?, Option.bind_eq_bind, Option.bind_eq_some_iff] at h
    obtain ⟨r, hr, h⟩ := h
    have hk := after?_eq_some hr
    cases htext : k.text.toList with
    | nil => cases k <;> simp [Keyword.text] at htext
    | cons d p =>
      rw [htext] at hr
      simp [mayTake, htext, head_of_after? hr]
  | operators cl =>
    obtain ⟨⟨o, r⟩, hr, -⟩ := Option.map_eq_some_iff.1 h
    obtain ⟨ho, hs⟩ := operator?_eq_some hr
    apply List.any_eq_true.2
    refine ⟨o, ho, ?_⟩
    cases htext : o.text.toList with
    | nil => exact absurd htext (operator_text_ne_nil o)
    | cons d p =>
      rw [htext] at hs
      simp [(List.cons.inj hs).1]
  | string q =>
    simp only [lexeme?, Option.bind_eq_bind, Option.bind_eq_some_iff] at h
    obtain ⟨i, hi, -⟩ := h
    apply decide_eq_true
    apply head_of_after? hi

theorem lexeme?_eq_none {rule : Rule} {c : Char} {s : List Char}
    (h : rule.mayTake c = false) :
  rule.lexeme? (c :: s) = none
  := by
  cases hl : rule.lexeme? (c :: s) with
  | none => rfl
  | some x =>
    rw [mayTake_of_lexeme? hl] at h
    cases h

/-- Only the rules that may apply decide what is taken. -/
theorem first?_cons (c : Char) (s : List Char) :
  first? (c :: s) = (table.filter fun rule => rule.mayTake c).findSome? fun rule =>
    rule.lexeme? (c :: s)
  := by
  rw [first?]
  induction table with
  | nil => rfl
  | cons rule rules ih =>
    cases hm : rule.mayTake c with
    | true =>
      rw [List.filter_cons_of_pos (p := fun rule => mayTake rule c) hm, List.findSome?_cons,
        List.findSome?_cons, ih]
    | false =>
      rw [List.filter_cons_of_neg (p := fun rule => mayTake rule c) (by simp [hm]),
        List.findSome?_cons, lexeme?_eq_none hm, ih]

/-- Only reserved words, numerals and names begin with a word character. -/
theorem mayTake_eq_false_of_isWordChar {rule : Rule} {c : Char} (h : isWordChar c = true)
    (hkeyword : rule ∉ Keyword.all.map keyword) (hnumber : rule ≠ number)
    (hword : rule ≠ word) :
  rule.mayTake c = false
  := by
  by_contra hm
  rw [Bool.not_eq_false] at hm
  suffices hc : isWordChar c = false by
    rw [h] at hc
    cases hc
  cases rule with
  | blanks => apply isWordChar_eq_false_of_isBlank hm
  | lineComment | blockComment =>
    obtain rfl := of_decide_eq_true hm
    decide
  | delimiter d =>
    obtain rfl := of_decide_eq_true hm
    exact d.isWordChar_char
  | keyword k => exact absurd (List.mem_map_of_mem (Keyword.mem_all k)) hkeyword
  | operators cl =>
    obtain ⟨o, -, ho⟩ := List.any_eq_true.1 hm
    apply Operator.isWordChar_of_mem_head
    apply of_decide_eq_true ho
  | number => exact absurd rfl hnumber
  | string q =>
    obtain rfl := of_decide_eq_true hm
    cases q <;> decide
  | word => exact absurd rfl hword

/-! ### Blanks -/

/-- Where a blank character stands, all blanks up to another character are passed over. -/
theorem first?_of_isBlank {c : Char} {s : List Char} (h : isBlank c = true) :
  first? (c :: s) = some (.skipped (c :: s.takeWhile isBlank), s.dropWhile isBlank)
  := by
  have hrun : lexeme? blanks (c :: s)
      = some (.skipped (c :: s.takeWhile isBlank), s.dropWhile isBlank) := by
    simp [lexeme?, run?, h]
  rw [first?, table]
  simp only [List.cons_append, List.findSome?_cons, hrun]

/-! ### Words and numerals -/

theorem after?_append (p rest : List Char) :
  after? p (p ++ rest) = some rest
  := by
  induction p with
  | nil => rfl
  | cons c p ih => rw [List.cons_append, after?, if_pos rfl, ih]

/-- Characters of a class up to one that is not in it are the run of the class at the front
of a text. -/
theorem takeWhile_run {p : Char → Bool} {w rest : List Char} (hw : ∀ c ∈ w, p c = true)
    (hrest : ∀ c ∈ rest.head?, p c = false) :
  (w ++ rest).takeWhile p = w
  := by
  rw [List.takeWhile_append_of_pos hw]
  cases rest with
  | nil => simp
  | cons c rest => rw [List.takeWhile_cons_of_neg (by simp [hrest c rfl]), List.append_nil]

theorem dropWhile_run {p : Char → Bool} {w rest : List Char} (hw : ∀ c ∈ w, p c = true)
    (hrest : ∀ c ∈ rest.head?, p c = false) :
  (w ++ rest).dropWhile p = rest
  := by
  rw [List.dropWhile_append_of_pos hw]
  cases rest with
  | nil => rfl
  | cons c rest => rw [List.dropWhile_cons_of_neg (by simp [hrest c rfl])]

theorem after?_eq_some_iff {p s rest : List Char} :
  after? p s = some rest ↔ p ++ rest = s
  := by
  constructor
  · exact after?_eq_some
  · rintro rfl
    apply after?_append

theorem forall_head?_dropWhile (p : Char → Bool) (s : List Char) :
  ∀ c ∈ (s.dropWhile p).head?, p c = false
  := by
  intro c hc
  have hnot := List.head?_dropWhile_not p s
  rw [Option.mem_def.1 hc] at hnot
  exact hnot

/-- A run goes on up to a character that is not in the class. -/
theorem run?_eq_some_iff {p : Char → Bool} {s text rest : List Char} :
  run? p s = some (text, rest)
    ↔ text ++ rest = s ∧ text ≠ [] ∧ (∀ c ∈ text, p c = true) ∧ ∀ c ∈ rest.head?, p c = false
  := by
  constructor
  · intro h
    obtain ⟨happend, hne⟩ := run?_eq_some h
    rw [run?] at h
    split at h
    · cases h
    · cases h
      exact ⟨happend, hne, fun c hc => List.mem_takeWhile_imp hc, forall_head?_dropWhile p s⟩
  · rintro ⟨rfl, hne, htext, hrest⟩
    rw [run?, takeWhile_run htext hrest, dropWhile_run htext hrest, if_neg (by simpa using hne)]

theorem run?_eq_none_iff {p : Char → Bool} {s : List Char} :
  run? p s = none ↔ ∀ c ∈ s.head?, p c = false
  := by
  cases s with
  | nil => simp [run?]
  | cons c s => by_cases hc : p c = true <;> simp [run?, hc]

/-- The rule of a reserved word applies to a word exactly if it is that one. -/
theorem lexeme?_keyword {k : Keyword} {w : String} {rest : List Char}
    (hw : ∀ c ∈ w.toList, isWordChar c = true) (hrest : EndsWord rest) :
  lexeme? (keyword k) (w.toList ++ rest)
    = if k.text == w then some (.token (.keyword k), rest) else none
  := by
  split
  · next hk =>
    obtain rfl := eq_of_beq hk
    have hhead : ((rest.head?.map isWordChar).getD false) = false := by
      cases rest with
      | nil => rfl
      | cons c rest => simpa using hrest c
    simp [lexeme?, after?_append, hhead]
  · next hk =>
    cases hl : lexeme? (keyword k) (w.toList ++ rest) with
    | none => rfl
    | some x =>
      simp only [lexeme?, Option.bind_eq_bind, Option.bind_eq_some_iff] at hl
      obtain ⟨r, hr, hl⟩ := hl
      have hends : EndsWord r := by
        intro c hc
        rw [Option.mem_def] at hc
        by_contra hword
        simp [hc, hword] at hl
      have htake := congrArg (List.takeWhile isWordChar) (after?_eq_some hr)
      rw [takeWhile_run hw hrest,
        takeWhile_run (fun _ => Keyword.isWordChar_of_mem) hends] at htake
      exact absurd (beq_iff_eq.2 (String.toList_inj.1 htake)) hk

end Rule

/-- The token that a word is: a reserved word or a name. -/
def Token.ofWord (w : String) : Token :=
  match Keyword.all.find? fun k => k.text == w with
  | some k => .keyword k
  | none => .identifier w

theorem Token.text_ofWord (w : String) :
  (Token.ofWord w).text = w
  := by
  unfold Token.ofWord
  split
  · next k hk =>
    have htext := List.find?_some hk
    exact eq_of_beq htext
  · rfl

theorem Token.ofWord_keyword (k : Keyword) :
  Token.ofWord k.text = .keyword k
  := by cases k <;> rfl

theorem Token.ofWord_of_notReserved {w : String} (h : ∀ k : Keyword, k.text ≠ w) :
  Token.ofWord w = .identifier w
  := by
  have hnone : (Keyword.all.find? fun k => k.text == w) = none := by
    apply List.find?_eq_none.2
    intro k _ hk
    apply h k
    apply eq_of_beq hk
  rw [Token.ofWord, hnone]

theorem Token.ofWord_name {name : String} (h : IsName name) :
  Token.ofWord name = .identifier name
  := Token.ofWord_of_notReserved h.notReserved

namespace Rule

theorem findSome?_ite {α β : Type} (p : α → Bool) (f : α → β) (as : List α) :
  (as.findSome? fun a => if p a then some (f a) else none) = (as.find? p).map f
  := by
  induction as with
  | nil => rfl
  | cons a as ih =>
    rw [List.findSome?_cons, List.find?_cons]
    cases p a with
    | true => rfl
    | false => exact ih

/-- A word that does not begin with a digit, and that ends before the rest of a text, is
read as one token. -/
theorem first?_word {w : String} {rest : List Char} (hne : w.toList ≠ [])
    (hw : ∀ c ∈ w.toList, isWordChar c = true)
    (hhead : ∀ c ∈ w.toList.head?, isDecimalDigit c = false) (hrest : EndsWord rest) :
  first? (w.toList ++ rest) = some (.token (Token.ofWord w), rest)
  := by
  have hnone : ∀ rules : List Rule,
      (∀ rule ∈ rules, rule ∉ Keyword.all.map keyword ∧ rule ≠ word) →
      (rules.findSome? fun rule => rule.lexeme? (w.toList ++ rest)) = none := by
    intro rules hrules
    apply List.findSome?_eq_none_iff.2
    intro rule hrule
    obtain ⟨hkeyword, hword⟩ := hrules rule hrule
    cases htext : w.toList with
    | nil => exact absurd htext hne
    | cons c s =>
      rw [htext] at hhead hw
      apply lexeme?_eq_none
      by_cases hnumber : rule = number
      · subst hnumber
        apply hhead c rfl
      · apply mayTake_eq_false_of_isWordChar (hw c List.mem_cons_self) hkeyword hnumber hword
  have hword : lexeme? word (w.toList ++ rest) = some (.token (.identifier w), rest) := by
    simp [lexeme?, run?, takeWhile_run hw hrest, dropWhile_run hw hrest, hne]
  -- the reserved words stand between rules that do not apply, and before that of words
  have htable : table = ([blanks, lineComment, blockComment] ++ Delimiter.all.map delimiter)
      ++ (Keyword.all.map keyword
        ++ ((OperatorClass.all.map operators ++ [number, string .double, string .single])
          ++ [word])) := rfl
  have hkeywords : ((Keyword.all.map keyword).findSome? fun rule =>
        rule.lexeme? (w.toList ++ rest))
      = (Keyword.all.find? fun k => k.text == w).map fun k => (.token (.keyword k), rest) := by
    rw [List.findSome?_map, ← findSome?_ite]
    congr 1
    funext k
    apply lexeme?_keyword hw hrest
  rw [first?, htable, List.findSome?_append, hnone _ (by decide), Option.none_or,
    List.findSome?_append, hkeywords, List.findSome?_append, hnone _ (by decide),
    Option.none_or, List.findSome?_cons, hword, Token.ofWord]
  cases Keyword.all.find? fun k => k.text == w with
  | none => rfl
  | some k => rfl

/-- Where a digit stands, the rule of numerals decides. -/
theorem first?_digit {c : Char} {s : List Char} (hc : isDecimalDigit c = true) :
  first? (c :: s) = number.lexeme? (c :: s)
  := by
  have hkeyword (k : Keyword) : mayTake (keyword k) c = false := by
    by_contra hk
    rw [Bool.not_eq_false] at hk
    rw [Keyword.isDecimalDigit_of_mem_head (of_decide_eq_true hk)] at hc
    cases hc
  have hnone : ∀ rules : List Rule, (∀ rule ∈ rules, rule ≠ number ∧ rule ≠ word) →
      (rules.findSome? fun rule => rule.lexeme? (c :: s)) = none := by
    intro rules hrules
    apply List.findSome?_eq_none_iff.2
    intro rule hrule
    apply lexeme?_eq_none
    by_cases hk : rule ∈ Keyword.all.map keyword
    · obtain ⟨k, -, rfl⟩ := List.mem_map.1 hk
      apply hkeyword k
    · obtain ⟨hnumber, hword⟩ := hrules rule hrule
      apply mayTake_eq_false_of_isWordChar (isWordChar_of_isDecimalDigit hc) hk hnumber hword
  have hnumber : number.lexeme? (c :: s) = some (.token (.number (String.ofList
      (c :: s.takeWhile isDecimalDigit))), s.dropWhile isDecimalDigit) := by
    simp [lexeme?, run?, hc]
  have htable : table = ([blanks, lineComment, blockComment] ++ Delimiter.all.map delimiter
        ++ Keyword.all.map keyword ++ OperatorClass.all.map operators)
      ++ (number :: [string .double, string .single, word]) := rfl
  rw [first?, htable, List.findSome?_append, hnone _ (by decide), Option.none_or,
    List.findSome?_cons, hnumber]

/-- A run of decimal digits that no other digit follows is read as one token. -/
theorem first?_digits {digits rest : List Char} (hne : digits ≠ [])
    (hd : ∀ c ∈ digits, isDecimalDigit c = true)
    (hrest : ∀ c ∈ rest.head?, isDecimalDigit c = false) :
  first? (digits ++ rest) = some (.token (.number (String.ofList digits)), rest)
  := by
  obtain ⟨c, s, rfl⟩ := List.exists_cons_of_ne_nil hne
  rw [List.cons_append, first?_digit (hd c List.mem_cons_self), ← List.cons_append]
  simp only [lexeme?, run?, takeWhile_run hd hrest, dropWhile_run hd hrest]
  rfl

/-- What begins with no word character begins with no decimal digit. -/
theorem isDecimalDigit_of_endsWord {rest : List Char} (h : EndsWord rest) :
  ∀ c ∈ rest.head?, isDecimalDigit c = false
  := by
  intro c hc
  by_contra hdigit
  rw [Bool.not_eq_false] at hdigit
  have hword := h c hc
  rw [isWordChar_of_isDecimalDigit hdigit] at hword
  cases hword

/-- A numeral that no word character follows is read as one token. -/
theorem first?_number {digits rest : List Char} (hne : digits ≠ [])
    (hd : ∀ c ∈ digits, isDecimalDigit c = true) (hrest : EndsWord rest) :
  first? (digits ++ rest) = some (.token (.number (String.ofList digits)), rest)
  := first?_digits hne hd (isDecimalDigit_of_endsWord hrest)

/-! ### Delimiters, operators and quoted texts -/

theorem first?_delimiter (d : Delimiter) (rest : List Char) :
  first? (d.char :: rest) = some (.token (.delimiter d), rest)
  := by
  have htable : (table.filter fun rule => rule.mayTake d.char) = [delimiter d] := by
    cases d <;> decide
  rw [first?_cons, htable]
  simp [lexeme?, after?]

theorem first?_string {q : Quote} {contents : String} (h : q.char ∉ contents.toList)
    (rest : List Char) :
  first? ((Token.string q contents).text.toList ++ rest)
    = some (.token (.string q contents), rest)
  := by
  have htable : (table.filter fun rule => rule.mayTake q.char) = [string q] := by
    cases q <;> decide
  have hinside : ∀ c ∈ contents.toList, (decide (c ≠ q.char)) = true := by
    intro c hc
    simp only [decide_eq_true_eq]
    rintro rfl
    apply h hc
  have hquote : ∀ c ∈ (q.char :: rest).head?, (decide (c ≠ q.char)) = false := by simp
  have hclose : after? [q.char] (q.char :: rest) = some rest := after?_append [q.char] rest
  have htext : (Token.string q contents).text.toList ++ rest
      = [q.char] ++ (contents.toList ++ q.char :: rest) := by simp [Token.text]
  have hlexeme : lexeme? (string q) ([q.char] ++ (contents.toList ++ q.char :: rest))
      = some (.token (.string q contents), rest) := by
    simp only [lexeme?, Option.bind_eq_bind]
    rw [after?_append, Option.bind_some, takeWhile_run hinside hquote,
      dropWhile_run hinside hquote, hclose, Option.bind_some, String.ofList_toList]
    rfl
  rw [htext, List.singleton_append, first?_cons, htable, List.findSome?_cons,
    ← List.singleton_append, hlexeme]

/-- The rules that may apply to an operator, given its first character. -/
def ofOperator : Char → List Rule
  | '|' => [operators (.binary .disjunction)]
  | '&' => [operators (.binary .conjunction)]
  | '=' => [operators (.binary .equality), operators .simpleAssign]
  | '!' => [operators (.binary .equality), operators .not]
  | '<' | '>' => [operators (.binary .relation)]
  | '+' | '-' => [operators .compoundAssign, operators (.binary .sum)]
  | '*' => [operators .compoundAssign, operators (.binary .product)]
  | _ => [lineComment, blockComment, operators .compoundAssign, operators (.binary .product)]

theorem filter_mayTake_operator :
  ∀ c ∈ ['|', '&', '=', '!', '<', '>', '+', '-', '*', '/'],
    (table.filter fun rule => rule.mayTake c) = ofOperator c
  := by
  simp only [List.forall_mem_cons, List.not_mem_nil, false_implies, implies_true, and_true]
  decide

/-- At the first character of an operator only these rules are tried. -/
theorem first?_eq_ofOperator :
  ∀ c ∈ ['|', '&', '=', '!', '<', '>', '+', '-', '*', '/'], ∀ s,
    first? (c :: s) = (ofOperator c).findSome? fun rule => rule.lexeme? (c :: s)
  := by
  intro c hc s
  rw [first?_cons, filter_mayTake_operator c hc]

theorem lexeme?_operators (cl : OperatorClass) (s : List Char) :
  lexeme? (operators cl) s
    = (operator? s cl.operators).map fun (o, rest) => (.token (.operator o), rest)
  := rfl

/-- No comment begins where a slash is not followed by a slash or an asterisk. -/
theorem lexeme?_comment_eq_none {s : List Char} (h : ∀ c ∈ s.head?, c ≠ '/' ∧ c ≠ '*') :
  lexeme? lineComment ('/' :: s) = none ∧ lexeme? blockComment ('/' :: s) = none
  := by
  cases s with
  | nil => exact ⟨rfl, rfl⟩
  | cons c s =>
    obtain ⟨hdiv, hmul⟩ := h c rfl
    simp [lexeme?, after?, hdiv.symm, hmul.symm]

/-- What follows an operator does not matter if it does not make the operator longer. -/
theorem first?_operator {o : Operator} {rest : List Char}
    (h : Token.Apart rest (.operator o)) :
  first? (o.text.toList ++ rest) = some (.token (.operator o), rest)
  := by
  have hlonger : ∀ c ∈ ['=', '/', '*'], ∀ s, after? (c :: s) rest = none := by
    intro c hc s
    cases rest with
    | nil => rfl
    | cons d rest =>
      obtain ⟨heq, hdiv, hmul⟩ := h d rfl
      rw [after?, if_neg]
      rintro rfl
      simp [heq, hdiv, hmul] at hc
  have hcomment := lexeme?_comment_eq_none fun c hc => (h c hc).2
  have hcomment' : lexeme? lineComment ('/' :: '=' :: rest) = none
      ∧ lexeme? blockComment ('/' :: '=' :: rest) = none :=
    lexeme?_comment_eq_none (by simp)
  cases o with
  | binary o =>
    cases o <;> simp [Operator.text, BinaryOp.text, AssignOp.text, first?_eq_ofOperator,
      ofOperator, hcomment, lexeme?_operators, OperatorClass.operators, operator?, after?, hlonger]
  | assign o =>
    cases o <;> simp [Operator.text, BinaryOp.text, AssignOp.text, first?_eq_ofOperator,
      ofOperator, hcomment', lexeme?_operators, OperatorClass.operators, operator?, after?,
      hlonger]
  | not =>
    simp [Operator.text, BinaryOp.text, first?_eq_ofOperator, ofOperator, lexeme?_operators,
      OperatorClass.operators, operator?, after?, hlonger]

/-- The text of a valid token is read as the token, if what follows does not make it
longer. -/
theorem first?_text {t : Token} {rest : List Char} (hvalid : t.Valid) (h : t.Apart rest) :
  first? (t.text.toList ++ rest) = some (.token t, rest)
  := by
  cases t with
  | delimiter d => simpa [Token.text] using first?_delimiter d rest
  | keyword k =>
    have hne : k.text.toList ≠ [] := by cases k <;> decide
    have hfirst := first?_word hne (fun _ => Keyword.isWordChar_of_mem)
      (fun _ => Keyword.isDecimalDigit_of_mem_head) h
    rwa [Token.ofWord_keyword] at hfirst
  | operator o => apply first?_operator h
  | number digits => simpa [Token.text] using first?_number hvalid.1 hvalid.2 h
  | string q contents => apply first?_string hvalid rest
  | identifier name =>
    have hfirst := first?_word hvalid.nonempty hvalid.word hvalid.head h
    rwa [Token.ofWord_name hvalid] at hfirst

/-! ### What is read is valid -/

theorem valid_of_lexeme? {rule : Rule} {s rest : List Char} {t : Token}
    (hword : rule ≠ word) (h : rule.lexeme? s = some (.token t, rest)) :
  t.Valid
  := by
  cases rule with
  | blanks | lineComment =>
    obtain ⟨_, _, he⟩ := Option.map_eq_some_iff.1 h
    cases he
  | blockComment =>
    simp only [lexeme?, Option.bind_eq_bind, Option.bind_eq_some_iff, Option.pure_def,
      Option.some.injEq, Prod.mk.injEq] at h
    obtain ⟨_, _, _, _, he, -⟩ := h
    cases he
  | delimiter d =>
    obtain ⟨_, _, he⟩ := Option.map_eq_some_iff.1 h
    cases he
    trivial
  | keyword k =>
    simp only [lexeme?, Option.bind_eq_bind, Option.bind_eq_some_iff] at h
    obtain ⟨r, -, h⟩ := h
    split at h
    · cases h
    · cases h
      trivial
  | operators cl =>
    obtain ⟨_, _, he⟩ := Option.map_eq_some_iff.1 h
    cases he
    trivial
  | number =>
    obtain ⟨⟨digits, r⟩, hr, he⟩ := Option.map_eq_some_iff.1 h
    cases he
    obtain ⟨-, hne, hdigits, -⟩ := run?_eq_some_iff.1 hr
    rw [Token.Valid, String.toList_ofList]
    exact ⟨hne, hdigits⟩
  | string q =>
    simp only [lexeme?, Option.bind_eq_bind, Option.bind_eq_some_iff, Option.pure_def,
      Option.some.injEq, Prod.mk.injEq] at h
    obtain ⟨inside, -, r, -, he, -⟩ := h
    cases he
    rw [Token.Valid, String.toList_ofList]
    intro hq
    simpa using List.mem_takeWhile_imp hq
  | word => exact absurd rfl hword

/-- A run of word characters is a name if no other rule applies to it. -/
theorem isName_of_lexeme?_word {s rest : List Char} {t : Token}
    (hnumber : number.lexeme? s = none) (hkeyword : ∀ k, (keyword k).lexeme? s = none)
    (h : word.lexeme? s = some (.token t, rest)) :
  t.Valid
  := by
  obtain ⟨⟨name, r⟩, hr, he⟩ := Option.map_eq_some_iff.1 h
  cases he
  obtain ⟨happend, hne, hchars, hends⟩ := run?_eq_some_iff.1 hr
  rw [Token.Valid]
  constructor
  · simpa using hne
  · simpa using hchars
  · rw [String.toList_ofList]
    intro c hc
    by_contra hdigit
    rw [Bool.not_eq_false] at hdigit
    rw [← happend] at hnumber
    cases name with
    | nil => cases hc
    | cons d name =>
      obtain rfl := Option.some.inj hc
      simp [lexeme?, run?, hdigit] at hnumber
  · intro k hk
    have hnone := lexeme?_keyword (k := k) (w := String.ofList name)
      (by simpa using hchars) hends
    rw [String.toList_ofList, happend, hkeyword, if_pos (beq_iff_eq.2 hk)] at hnone
    cases hnone

/-- Every token that is read is valid. -/
theorem valid_of_first? {s rest : List Char} {t : Token}
    (h : first? s = some (.token t, rest)) :
  t.Valid
  := by
  have htable : table = table.dropLast ++ [word] := rfl
  rw [first?, htable, List.findSome?_append, Option.or_eq_some_iff] at h
  obtain h | ⟨hnone, h⟩ := h
  · obtain ⟨rule, hrule, hl⟩ := List.exists_of_findSome?_eq_some h
    have hword : ∀ rule ∈ table.dropLast, rule ≠ word := by decide
    apply valid_of_lexeme? (hword rule hrule) hl
  · rw [List.findSome?_eq_none_iff] at hnone
    rw [List.findSome?_singleton] at h
    refine isName_of_lexeme?_word (hnone number (by decide)) (fun k => hnone _ ?_) h
    cases k <;> decide

end Rule

/-! ### Texts of tokens -/

namespace Cut

/-- A blank before a text has no part in its tokens. -/
theorem blank_iff {c : Char} {s : List Char} {ts : List Token} (hc : isBlank c = true) :
  Cut (c :: s) ts ↔ Cut s ts
  := by
  have hskip {d : Char} {r : List Char} (hd : isBlank d = true) :
      Cut (d :: r) ts ↔ Cut (r.dropWhile isBlank) ts := skip_iff (Rule.first?_of_isBlank hd)
  rw [hskip hc]
  cases s with
  | nil => rfl
  | cons d s =>
    by_cases hd : isBlank d = true
    · rw [List.dropWhile_cons_of_pos hd, hskip hd]
    · rw [List.dropWhile_cons_of_neg hd]

/-- Blanks before a text have no part in its tokens. -/
theorem blanks {b s : List Char} {ts : List Token} (hb : ∀ c ∈ b, isBlank c = true)
    (h : Cut s ts) :
  Cut (b ++ s) ts
  := by
  induction b with
  | nil => exact h
  | cons c b ih =>
    apply (blank_iff (hb c List.mem_cons_self)).2
    apply ih fun d hd => hb d (List.mem_cons_of_mem _ hd)

/-- The text of a valid token is cut off as the token. -/
theorem text {t : Token} {rest : List Char} {ts : List Token} (hvalid : t.Valid)
    (hapart : t.Apart rest) (h : Cut rest ts) :
  Cut (t.text.toList ++ rest) (t :: ts)
  := token (Rule.first?_text hvalid hapart) h

/-- The tokens into which a text is cut are valid. -/
theorem valid {s : List Char} {ts : List Token} (h : Cut s ts) :
  ∀ t ∈ ts, t.Valid
  := by
  induction h with
  | nil => simp
  | skip first later ih => exact ih
  | token first later ih => apply List.forall_mem_cons.2 ⟨Rule.valid_of_first? first, ih⟩

end Cut

end Letter
