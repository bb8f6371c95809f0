import Letter.Proofs.Grammar.Compose
import Letter.Proofs.Printing.RoundTrip
import Letter.Proofs.Token.Gap

/-!
# Expressions in their contexts

An expression means the same wherever it stands: as a value, an argument, a property, a test, or
in parentheses as an operand, a callee, an object or all there is.  Each of these places belongs
to a production of its own and ends at another token, yet the text of the expression is cut into
the same tokens everywhere, and these are derived as the same expression.

Main statement: `parse_context`.
-/

namespace Letter

/-! ### Texts in front of a new line -/

namespace Rule

variable {c : Char} {s later rest : List Char} {l : Lexeme}

/-- Whether a character may end a block comment or a quoted text. -/
def closes (c : Char) : Prop := c = '/' ∨ c = '"' ∨ c = '\''

/-- What is taken over the end of a line, and does not begin with a blank, is closed: it is a block
comment or a quoted text. -/
theorem closes_of_newline_mem (h : first? s = some (l, rest)) (hmem : '\n' ∈ l.text)
    (hhead : ∀ c ∈ l.text.head?, isBlank c = false) :
  ∃ text d, l.text = text ++ [d] ∧ closes d
  := by
  cases l with
  | skipped text =>
    obtain ⟨_, -, hl⟩ := exists_of_first? h
    have hne : text ≠ [] := text_ne_nil hl
    obtain hblanks | ⟨inside, rfl, hline, -⟩ | ⟨inside, rfl, -⟩ := first?_eq_some_skipped h
    · obtain ⟨c, text, rfl⟩ := List.exists_cons_of_ne_nil hne
      have hblank := hhead c rfl
      rw [hblanks c List.mem_cons_self] at hblank
      cases hblank
    · simp [Lexeme.text, hline] at hmem
    · exact ⟨'/' :: '*' :: inside ++ ['*'], '/', by simp [Lexeme.text], .inl rfl⟩
  | token t =>
    have hvalid := valid_of_first? h
    rw [Lexeme.text] at hmem
    cases t with
    | string q contents =>
      refine ⟨q.char :: contents.toList, q.char, by simp [Lexeme.text, Token.text], .inr ?_⟩
      cases q with
      | double => exact .inl rfl
      | single => exact .inr rfl
    | delimiter d => cases d <;> simp [Token.text, Delimiter.char] at hmem
    | keyword k => cases Keyword.isWordChar_of_mem hmem
    | operator o =>
      cases o with
      | binary o => cases o <;> simp [Token.text, Operator.text, BinaryOp.text] at hmem
      | assign o => cases o <;> simp [Token.text, Operator.text, AssignOp.text] at hmem
      | not => simp [Token.text, Operator.text] at hmem
    | number digits => cases hvalid.2 _ hmem
    | identifier name => cases hvalid.word _ hmem

/-- What is taken in front of a new line is taken from the text up to there, unless it is a blank or
goes on to something that closes it behind the new line. -/
theorem exists_rest_of_newline (hc : isBlank c = false) (hlater : ∀ d ∈ later, ¬ closes d)
    (h : first? (c :: s ++ '\n' :: later) = some (l, rest)) :
  ∃ r, rest = r ++ '\n' :: later ∧ first? (c :: s) = some (l, r)
  := by
  obtain ⟨_, -, hl⟩ := exists_of_first? h
  obtain ⟨r, -, rfl⟩ | ⟨further, htext, hfurther⟩ := List.append_eq_append_iff.1 (text_append hl)
  · exact ⟨r, rfl, first?_of_append h⟩
  · cases further with
    | nil =>
      rw [List.nil_append] at hfurther
      subst hfurther
      exact ⟨[], rfl, first?_of_append h⟩
    | cons d further =>
      -- the last character of what is taken is the end of the line or stands behind it
      obtain ⟨rfl, rfl⟩ := List.cons.inj hfurther
      obtain ⟨text, d, hlast, hd⟩ := closes_of_newline_mem h (by simp [htext]) (by simpa [htext])
      have hmem : d ∈ '\n' :: further := by
        apply List.mem_of_getLast?
        rw [← List.getLast?_append_of_ne_nil (c :: s) (List.cons_ne_nil _ _), ← htext, hlast,
          List.getLast?_concat]
      obtain rfl | hmem := List.mem_cons.1 hmem
      · simp [closes] at hd
      · exact absurd hd (hlater d (List.mem_append_left _ hmem))

end Rule

/-- The tokens of a text with a new line in it are those in front of the new line and those behind
it, if nothing behind it could close what is begun in front of it. -/
theorem Cut.of_newline {s later : List Char} {us : List Token}
    (hlater : ∀ d ∈ later, ¬ Rule.closes d) (h : Cut (s ++ '\n' :: later) us) :
  ∃ ts vs, us = ts ++ vs ∧ Cut s ts ∧ Cut later vs
  := by
  induction hlength : s.length using Nat.strongRecOn generalizing s us with
  | _ n ih =>
  subst hlength
  cases s with
  | nil => exact ⟨[], us, rfl, .nil, (blank_iff (by decide)).1 h⟩
  | cons c s =>
    by_cases hc : isBlank c = true
    · obtain ⟨ts, vs, rfl, hts, hvs⟩ := ih s.length (Nat.lt_succ_self _) ((blank_iff hc).1 h) rfl
      exact ⟨ts, vs, rfl, (blank_iff hc).2 hts, hvs⟩
    · rw [Bool.not_eq_true] at hc
      cases h with
      | skip first others =>
        obtain ⟨r, rfl, hfirst⟩ := Rule.exists_rest_of_newline hc hlater first
        obtain ⟨ts, vs, rfl, hts, hvs⟩ := ih _ (Rule.first?_length_lt hfirst) others rfl
        exact ⟨ts, vs, rfl, skip hfirst hts, hvs⟩
      | token first others =>
        obtain ⟨r, rfl, hfirst⟩ := Rule.exists_rest_of_newline hc hlater first
        obtain ⟨ts, vs, rfl, hts, hvs⟩ := ih _ (Rule.first?_length_lt hfirst) others rfl
        exact ⟨_ :: ts, vs, rfl, token hfirst hts, hvs⟩

/-! ### Contexts -/

/-- An expression that can be written, and its text. -/
structure Written where
  /-- The expression. -/
  expr : Expr
  /-- The text of the expression. -/
  text : String
  /-- The expression can be written. -/
  valid : expr.Valid
  /-- The text is the one that it has as a part of a longer one. -/
  text_eq : expr.toTree.exprText = .ok text

/-- The text of an expression as an operand, where a binding strength is asked for. -/
def Written.operand (minimum : Nat) (w : Written) : String :=
  if w.expr.layer.strength < minimum then "(" ++ w.text ++ ")" else w.text

/-- A place for an expression in a statement. -/
inductive Context where
  /-- The first value of a variable. -/
  | initializer (name : String) (h : IsName name)
  /-- What is assigned to a variable. -/
  | value (name : String) (h : IsName name) (op : AssignOp)
  /-- An argument of a call, among others before and behind it. -/
  | argument (name : String) (h : IsName name) (before behind : List Written)
  /-- The value by which a member is taken. -/
  | property (name : String) (h : IsName name)
  /-- The test of a condition. -/
  | test
  /-- All there is, in parentheses. -/
  | whole
  /-- The operand of a unary operator, in parentheses. -/
  | unary (op : UnaryOp)
  /-- The operand before a binary operator, in parentheses. -/
  | left (op : BinaryOp) (other : Written)
  /-- The operand behind a binary operator, in parentheses. -/
  | right (op : BinaryOp) (other : Written)
  /-- What is called, in parentheses. -/
  | callee
  /-- What a member is taken of, in parentheses. -/
  | object (name : String) (h : IsName name)

namespace Context

/-- The text of a statement, given that of the expression at a place in it. -/
def text (e : String) : Context → String
  | initializer name _ => "let " ++ name ++ " = " ++ e ++ ";"
  | value name _ op => name ++ " " ++ op.text ++ " " ++ e ++ ";"
  | argument name _ before behind =>
    name ++ "(" ++ ", ".intercalate (before.map Written.text ++ e :: behind.map Written.text)
      ++ ");"
  | property name _ => name ++ "[" ++ e ++ "];"
  | test => "if (" ++ e ++ ") ;"
  | whole => "(" ++ e ++ ");"
  | unary op => op.text ++ "(" ++ e ++ ");"
  | left op other => "(" ++ e ++ ") " ++ op.text ++ " " ++ other.operand (op.strength + 1) ++ ";"
  | right op other => other.operand op.strength ++ " " ++ op.text ++ " (" ++ e ++ ");"
  | callee => "(" ++ e ++ ")();"
  | object name _ => "(" ++ e ++ ")." ++ name ++ ";"

/-- A statement with an expression at a place in it. -/
def fill (e : Expr) : Context → Stmt
  | initializer name _ => .declare [⟨name, some e⟩]
  | value name _ op => .expression (.assign op (.identifier name) e)
  | argument name _ before behind =>
    .expression (.call (.identifier name)
      (before.map Written.expr ++ e :: behind.map Written.expr))
  | property name _ => .expression (.index (.identifier name) e)
  | test => .ifThen e .empty
  | whole => .expression e
  | unary op => .expression (.unary op e)
  | left op other => .expression (.binary op e other.expr)
  | right op other => .expression (.binary op other.expr e)
  | callee => .expression (.call e [])
  | object name _ => .expression (.member e name)

/-- The tokens of a statement, given those of the expression at a place in it. -/
def tokens (ts : List Token) : Context → List Token
  | initializer name _ =>
    .keyword .letWord :: (.identifier name :: .operator (.assign .set) :: ts
      ++ [.delimiter .semicolon])
  | value name _ op =>
    [.identifier name] ++ .operator (.assign op) :: ts ++ [.delimiter .semicolon]
  | argument name _ before behind =>
    [.identifier name] ++ Token.inParens ([.delimiter .comma].intercalate
        (before.map (fun w => w.expr.tokens) ++ ts :: behind.map fun w => w.expr.tokens))
      ++ [.delimiter .semicolon]
  | property name _ => [.identifier name] ++ Token.inBrackets ts ++ [.delimiter .semicolon]
  | test => .keyword .ifWord :: (Token.inParens ts ++ [.delimiter .semicolon])
  | whole => Token.inParens ts ++ [.delimiter .semicolon]
  | unary op => .operator op.operator :: Token.inParens ts ++ [.delimiter .semicolon]
  | left op other =>
    Token.inParens ts
      ++ .operator (.binary op) :: other.expr.operand (op.strength + 1) other.expr.tokens
      ++ [.delimiter .semicolon]
  | right op other =>
    other.expr.operand op.strength other.expr.tokens
      ++ .operator (.binary op) :: Token.inParens ts ++ [.delimiter .semicolon]
  | callee => Token.inParens ts ++ Token.inParens [] ++ [.delimiter .semicolon]
  | object name _ =>
    Token.inParens ts ++ [.delimiter .dot, .identifier name] ++ [.delimiter .semicolon]

end Context

/-- The text of an operand spells the tokens of its expression. -/
theorem Written.spells (w : Written) :
  Spells w.text w.expr.tokens
  := by
  obtain ⟨text, htext, hspells⟩ := w.valid.exprText_spells
  cases w.text_eq.symm.trans htext
  exact hspells

theorem Written.operand_spells (w : Written) (minimum : Nat) :
  Spells (w.operand minimum) (w.expr.operand minimum w.expr.tokens)
  := by
  rw [operand, Expr.operand]
  split
  · apply w.spells.parens
  · exact w.spells

theorem Written.short_operand (w : Written) (minimum : Nat) :
  ∀ u ∈ w.expr.operand minimum w.expr.tokens, u.Short
  := Expr.short_operand w.valid.short

/-- What holds of expressions that can be written holds of them with something among them. -/
theorem forall₂_among {α β : Type} {R : α → β → Prop} {f : Written → α} {g : Written → β} {a : α}
    {b : β} (h : ∀ w, R (f w) (g w)) (hab : R a b) (before behind : List Written) :
  List.Forall₂ R (before.map f ++ a :: behind.map f) (before.map g ++ b :: behind.map g)
  := by
  have hmap (ws : List Written) : List.Forall₂ R (ws.map f) (ws.map g) := by
    rw [List.forall₂_map_left_iff, List.forall₂_map_right_iff, List.forall₂_same]
    exact fun w _ => h w
  apply List.rel_append (hmap before) (.cons hab (hmap behind))

/-! ### The tokens of an expression in its context -/

namespace Context

variable {e : String} {t : Expr} {ts : List Token}

/-- Wherever an expression stands, the tokens are derived with it in its place. -/
theorem derives (c : Context) (h : Derives ts (.expression .assignment t)) :
  Derives (c.tokens ts) (.statement (c.fill t))
  := by
  have hparens (layer : Layer) : Derives (Token.inParens ts) (.expression layer t) :=
    (Derives.parenthesized h).loosen layer.strength_le_primary
  have hname (name : String) (layer : Layer) :
      Derives [.identifier name] (.expression layer (.identifier name)) :=
    Derives.identifier.loosen layer.strength_le_primary
  -- all but the first value of a variable and the test of a condition are expressions
  cases c with
  | initializer name _ => exact .declare (.lastDeclaration (.initialized h))
  | value name _ op => exact .expressionStatement (.assignment (hname name _) (.identifier name) h)
  | argument name _ before behind =>
    have hlist := forall₂_among (R := fun ts e => Derives ts (.expression .assignment e))
      (fun w => w.valid.derives.loosen (Expr.one_le_strength _)) h before behind
    have hne := List.append_ne_nil_of_right_ne_nil (before.map Written.expr)
      (List.cons_ne_nil t (behind.map Written.expr))
    have hcall := Derives.call (hname name _) (.someArguments (Expr.derives_separated hne hlist))
    exact .expressionStatement (hcall.loosen (by decide))
  | property name _ =>
    have hindex := Derives.index (hname name _) h
    exact .expressionStatement (hindex.loosen (by decide))
  | test => exact .ifThen h .empty
  | whole => exact .expressionStatement (hparens _)
  | unary op =>
    have hunary : Derives _ (.expression .unary (.unary op t)) := .unary (hparens _)
    exact .expressionStatement (hunary.loosen (by decide))
  | left op other =>
    have hother := Expr.derives_operand other.valid.derives
      (Nat.le_of_eq (Layer.strength_tighter_level op))
    have hbinary := Derives.binary (hparens _) op.mem_operators_level hother
    exact .expressionStatement (hbinary.loosen (Expr.one_le_strength _))
  | right op other =>
    have hother : Derives (other.expr.operand op.strength other.expr.tokens)
        (.expression (.binary op.level) other.expr) :=
      Expr.derives_operand other.valid.derives (Nat.le_of_eq (Layer.strength_binary op))
    have hbinary := Derives.binary hother op.mem_operators_level (hparens op.level.tighter)
    exact .expressionStatement (hbinary.loosen (Expr.one_le_strength _))
  | callee =>
    have hcall := Derives.call (hparens _) .noArguments
    exact .expressionStatement (hcall.loosen (by decide))
  | object name _ =>
    have hmember : Derives (Token.inParens ts ++ [.delimiter .dot, .identifier name])
        (.expression .member (.member t name)) := .member (hparens _)
    exact .expressionStatement (hmember.loosen (by decide))

/-- Wherever an expression stands, the text is cut into the tokens with its own in their place. -/
theorem cut (c : Context) (h : CutsOff e ts) :
  Cut (c.text e).toList (c.tokens ts)
  := by
  have hend : Cut [';'] [.delimiter .semicolon] := Cut.nil.delimiter .semicolon
  have hparens {rest : List Char} {us : List Token} (hrest : Cut rest us) :
      Cut ('(' :: (e.toList ++ ')' :: rest)) (Token.inParens ts ++ us) := by
    have hinside := h _ _ (endsWord_delimiter .rightParen rest) (hrest.delimiter .rightParen)
    simpa [Token.inParens, Token.enclosed, Delimiter.char] using hinside.delimiter .leftParen
  have hname {name : String} (hname : IsName name) {rest : List Char} {us : List Token}
      (hends : EndsWord rest) (hrest : Cut rest us) :
      Cut (name.toList ++ rest) (.identifier name :: us) :=
    Cut.text (t := .identifier name) hname hends hrest
  cases c with
  | initializer name h' =>
    have hvalue := (h _ _ (endsWord_delimiter .semicolon []) hend).operator (.assign .set)
    have hlet := Cut.text (t := .keyword .letWord) trivial (endsWord_space _)
      (Cut.space (hname h' (endsWord_space _) hvalue))
    simpa [text, tokens, Token.text, Keyword.text, Operator.text, AssignOp.text, Delimiter.char]
      using hlet
  | value name h' op =>
    have hvalue := (h _ _ (endsWord_delimiter .semicolon []) hend).operator (.assign op)
    simpa [text, tokens, Operator.text, Delimiter.char] using hname h' (endsWord_space _) hvalue
  | argument name h' before behind =>
    have hlist := CutsOff.separated (forall₂_among (fun w => w.spells.cut) h before behind)
    have harguments := hlist _ _ (endsWord_delimiter .rightParen _) (hend.delimiter .rightParen)
    have hcall := hname h' (endsWord_delimiter .leftParen _) (harguments.delimiter .leftParen)
    simpa [text, tokens, Token.inParens, Token.enclosed, Delimiter.char] using hcall
  | property name h' =>
    have hinside := h _ _ (endsWord_delimiter .rightBracket _) (hend.delimiter .rightBracket)
    have hindex := hname h' (endsWord_delimiter .leftBracket _) (hinside.delimiter .leftBracket)
    simpa [text, tokens, Token.inBrackets, Token.enclosed, Delimiter.char] using hindex
  | test =>
    have hif := Cut.text (t := .keyword .ifWord) trivial (endsWord_space _)
      (Cut.space (hparens (Cut.space hend)))
    simpa [text, tokens, Token.text, Keyword.text] using hif
  | whole => simpa [text, tokens] using hparens hend
  | unary op =>
    have hunary := Cut.text (t := .operator op.operator) trivial
      (by simp [Token.Apart]) (hparens hend)
    simpa [text, tokens, Token.text, UnaryOp.text_operator] using hunary
  | left op other =>
    have hright := (other.operand_spells (op.strength + 1)).cut _ _
      (endsWord_delimiter .semicolon []) hend
    simpa [text, tokens, Operator.text, Delimiter.char]
      using hparens (hright.operator (.binary op))
  | right op other =>
    have hright := (hparens hend).operator (.binary op)
    have hleft := (other.operand_spells op.strength).cut _ _ (endsWord_space _) hright
    simpa [text, tokens, Operator.text] using hleft
  | callee =>
    have hcall := (hend.delimiter .rightParen).delimiter .leftParen
    simpa [text, tokens, Token.inParens, Token.enclosed, Delimiter.char] using hparens hcall
  | object name h' =>
    have hmember := (hname h' (endsWord_delimiter .semicolon []) hend).delimiter .dot
    simpa [text, tokens, Delimiter.char] using hparens hmember

/-- No numeral is too long if none is in the expression. -/
theorem short (c : Context) (h : ∀ u ∈ ts, u.Short) :
  ∀ u ∈ c.tokens ts, u.Short
  := by
  have hdelimiter (d : Delimiter) : (Token.delimiter d).Short := trivial
  have hkeyword (k : Keyword) : (Token.keyword k).Short := trivial
  have hoperator (o : Operator) : (Token.operator o).Short := trivial
  have hname (name : String) : (Token.identifier name).Short := trivial
  cases c with
  | argument name _ before behind =>
    have hlist : ∀ us ∈ before.map (fun w => w.expr.tokens)
        ++ ts :: behind.map fun w => w.expr.tokens, ∀ u ∈ us, u.Short := by
      rw [List.forall_mem_append, List.forall_mem_cons, List.forall_mem_map, List.forall_mem_map]
      exact ⟨fun w _ => w.valid.short, h, fun w _ => w.valid.short⟩
    have harguments : ∀ u ∈ Token.inParens _, u.Short :=
      Token.forall_short_enclosed.2 (short_intercalate hlist)
    simpa only [tokens, List.forall_mem_append, List.forall_mem_singleton, hname, hdelimiter,
      true_and, and_true] using harguments
  | left op other =>
    have hother := other.short_operand (op.strength + 1)
    simpa [tokens, Token.inParens, Token.enclosed, or_imp, forall_and, hdelimiter, hoperator]
      using ⟨h, hother⟩
  | right op other =>
    have hother := other.short_operand op.strength
    simpa [tokens, Token.inParens, Token.enclosed, or_imp, forall_and, hdelimiter, hoperator]
      using ⟨hother, h⟩
  | _ =>
    simpa [tokens, Token.inParens, Token.inBrackets, Token.enclosed, or_imp, forall_and, hdelimiter,
      hkeyword, hoperator, hname] using h

end Context

/-- The tokens of an expression are those in front of the semicolon that ends it on a new line. -/
theorem exists_expression_of_parse {e : String} {t : Expr}
    (h : parse (e ++ "\n" ++ ";") = .ok ⟨[.expression t]⟩) :
  ∃ ts, Cut e.toList ts ∧ Derives ts (.expression .assignment t) ∧ ∀ u ∈ ts, u.Short
  := by
  obtain ⟨us, hcut, hus, hshort⟩ := parse_eq_ok_iff.1 h
  obtain ⟨ts, rfl, hts⟩ : ∃ ts, us = ts ++ [.delimiter .semicolon]
      ∧ Derives ts (.expression .assignment t) := by
    cases hus with | program body =>
    cases body with
    | lastStatement statement =>
      cases statement with | expressionStatement expression => exact ⟨_, rfl, expression⟩
    | nextStatement _ later => cases later
  have hline : Cut (e.toList ++ '\n' :: [';']) (ts ++ [.delimiter .semicolon]) := by
    simpa using tokenize_eq_ok_iff.1 hcut
  obtain ⟨ts', vs, heq, hts', hvs⟩ := hline.of_newline (by simp [Rule.closes])
  obtain rfl := hvs.unique (Cut.nil.delimiter .semicolon)
  obtain rfl := List.append_cancel_right heq
  exact ⟨ts, hts', hts, (List.forall_mem_append.1 hshort).1⟩

/-- An expression that is read where it is all there is, up to a semicolon on a new line, is read as
the same expression wherever it stands, and what is around it as it would be around any other. -/
theorem parse_context {e : String} {t : Expr} (h : parse (e ++ "\n" ++ ";") = .ok ⟨[.expression t]⟩)
    (c : Context) :
  parse (c.text (e ++ "\n")) = .ok ⟨[c.fill t]⟩
  := by
  obtain ⟨ts, hcut, hts, hshort⟩ := exists_expression_of_parse h
  have hoff : CutsOff (e ++ "\n") ts := by
    intro rest us _ hrest
    simpa using hts.cut_newline hcut hrest
  apply parse_eq_ok_iff.2 ⟨c.tokens ts, tokenize_eq_ok_iff.2 (c.cut hoff),
    .program (.lastStatement (c.derives hts)), c.short hshort⟩

/-- An expression whose text ends in a comment, as a statement and as an operand. -/
theorem parse_context_samples :
  parse ("-null // )" ++ "\n" ++ ";") = .ok ⟨[.expression (.unary .minus .null)]⟩
    ∧ parse "!(-null // )\n);" = .ok ⟨[.expression (.unary .not (.unary .minus .null))]⟩
  := by
  have hread : parse ("-null // )" ++ "\n" ++ ";") = .ok ⟨[.expression (.unary .minus .null)]⟩ := by
    have hnull : Derives [.keyword .nullWord] (.expression .unary .null) :=
      Derives.nullWord.loosen (by decide)
    have hminus : Derives [.operator UnaryOp.minus.operator, .keyword .nullWord]
        (.expression .assignment (.unary .minus .null)) :=
      (Derives.unary hnull).loosen (by decide)
    refine parse_eq_ok_iff.2 ⟨_, tokenize_eq_ok_iff.2 ?_,
      .program (.lastStatement (.expressionStatement hminus)), ?_⟩
    · exact .token rfl (.token rfl (.skip rfl (.skip rfl (.skip rfl (.token rfl .nil)))))
    · simp [Token.Short]
  exact ⟨hread, parse_context hread (.unary .not)⟩

end Letter
