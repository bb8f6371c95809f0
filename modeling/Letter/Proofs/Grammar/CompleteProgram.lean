import Letter.Proofs.Grammar.Complete

/-!
# The grammar decides what is read

If tokens with numerals of at most `maxDigits` digits are derived as a program, then a text
that is cut into them is read as that program.  Together with what has been proved of what
is read, a text is read as a program exactly if its tokens are derived as that program.
-/

namespace Letter

namespace Parse

/-- A statement is read by the production that reads statements inside it in the same way. -/
theorem statement_apply (f : Front) :
  statement f = anyStatement statement f
  := congrFun statement_eq f

/-! ### Declarations -/

/-- A name that a comma or semicolon follows is read as a declaration without a value. -/
theorem declaration_of_bare {n : String} {f g : Front}
    (hview : f.next? = some (.identifier n)) (hadv : advance f = .ok () g)
    (hend : g.next? = some (.delimiter .comma) ∨ g.next? = some (.delimiter .semicolon)) :
  declaration f = .ok ⟨n, none⟩ g
  := by
  have hsees : sees [.delimiter .comma, .delimiter .semicolon] g = .ok true g := by
    obtain hend | hend := hend <;> rw [sees, hend] <;> rfl
  rw [declaration, bind_of_ok (name_eq_ok.2 ⟨hview, hadv⟩), bind_of_ok hsees]
  rfl

/-- A name, the sign for setting and an expression are read as a declaration with a value. -/
theorem declaration_of_initialized {n : String} {e : Expr} {f g g' h : Front}
    (hview : f.next? = some (.identifier n)) (hadv : advance f = .ok () g)
    (hview' : g.next? = some (.operator (.assign .set))) (hadv' : advance g = .ok () g')
    (he : expression g' = .ok e h) :
  declaration f = .ok ⟨n, some e⟩ h
  := by
  have hsees : sees [.delimiter .comma, .delimiter .semicolon] g = .ok false g := by
    rw [sees, hview']
    rfl
  have heat : eat (.operators .simpleAssign) g = .ok _ g' := eat_eq_ok.2 ⟨hview', rfl, hadv'⟩
  have hinit : initializer g = .ok e h := by rw [initializer, bind_of_ok heat, he]
  have hmap : (some <$> initializer) g = .ok (some e) h := map_eq_ok.2 ⟨e, hinit, rfl⟩
  rw [declaration, bind_of_ok (name_eq_ok.2 ⟨hview, hadv⟩), bind_of_ok hsees]
  apply bind_of_ok hmap

/-- Declarations behind their word and before a semicolon are read as a statement. -/
theorem declare_of_declarations {ds : List Declaration} {f f' g g' : Front}
    (hview : f.next? = some (.keyword .letWord)) (hadv : advance f = .ok () f')
    (hds : declarations f' = .ok ds g') (hsemi : skip .semicolon g' = .ok () g) :
  statement f = .ok (.declare ds) g
  := by
  rw [statement_apply f, anyStatement, bind_of_ok (get_eq_ok f), hview]
  change declare f = _
  rw [declare, bind_of_ok (skipWord_eq_ok.2 ⟨hview, hadv⟩), bind_of_ok hds, bind_of_ok hsemi]
  rfl

/-! ### Statements -/

/-- A statement that begins as an expression does is one with a semicolon behind it. -/
theorem statement_of_mayStart {t : Token} {f : Front} (hview : f.next? = some t)
    (ht : Layer.assignment.mayStart t = true) :
  statement f = expressionStatement f
  := by
  rw [statement_apply f, anyStatement, bind_of_ok (get_eq_ok f), hview]
  cases t with
  | delimiter d => cases d <;> first | rfl | exact absurd ht (by decide)
  | keyword k => cases k <;> first | rfl | exact absurd ht (by decide)
  | _ => rfl

theorem statement_of_expression {t : Token} {e : Expr} {f g g' : Front}
    (hview : f.next? = some t) (ht : Layer.assignment.mayStart t = true)
    (he : expression f = .ok e g') (hsemi : skip .semicolon g' = .ok () g) :
  statement f = .ok (.expression e) g
  := by
  rw [statement_of_mayStart hview ht, expressionStatement, bind_of_ok he, bind_of_ok hsemi]
  rfl

theorem statement_of_empty {f g : Front} (hsemi : skip .semicolon f = .ok () g) :
  statement f = .ok .empty g
  := by
  rw [statement_apply f, anyStatement, bind_of_ok (get_eq_ok f), (skip_eq_ok.1 hsemi).1]
  apply bind_of_ok hsemi

theorem statement_of_emptyBlock {f g g' : Front} (hleft : skip .leftBrace f = .ok () g)
    (hright : skip .rightBrace g = .ok () g') :
  statement f = .ok (.block []) g'
  := by
  have hsees : sees [.delimiter .rightBrace] g = .ok true g := by
    rw [sees_delimiter, decide_eq_true (skip_eq_ok.1 hright).1]
  rw [statement_apply f, anyStatement, bind_of_ok (get_eq_ok f), (skip_eq_ok.1 hleft).1]
  change block _ f = _
  rw [block, bind_of_ok hleft, bind_of_ok hsees]
  apply bind_of_ok hright

theorem statement_of_block {ss : List Stmt} {f f' g g' : Front}
    (hleft : skip .leftBrace f = .ok () f')
    (hview : f'.next? ≠ some (.delimiter .rightBrace))
    (hss : statements statement (some (.delimiter .rightBrace)) f' = .ok ss g')
    (hright : skip .rightBrace g' = .ok () g) :
  statement f = .ok (.block ss) g
  := by
  have hsees : sees [.delimiter .rightBrace] f' = .ok false f' := by
    rw [sees_delimiter, decide_eq_false hview]
  rw [statement_apply f, anyStatement, bind_of_ok (get_eq_ok f), (skip_eq_ok.1 hleft).1]
  change block _ f = _
  rw [block, bind_of_ok hleft, bind_of_ok hsees]
  change (statements statement _ >>= _) f' = _
  rw [bind_of_ok hss]
  apply bind_of_ok hright

/-- The head of a condition and its consequent; whether an alternative follows is decided
by the token behind them. -/
theorem statement_of_condition {e : Expr} {c : Stmt} {f f₁ f₂ f₃ f₄ g : Front}
    (hview : f.next? = some (.keyword .ifWord)) (hadv : advance f = .ok () f₁)
    (hleft : skip .leftParen f₁ = .ok () f₂) (he : expression f₂ = .ok e f₃)
    (hright : skip .rightParen f₃ = .ok () f₄) (hc : statement f₄ = .ok c g) :
  statement f = (if g.next? = some (.keyword .elseWord) then
    (do skipWord .elseWord; return .ifElse e c (← statement) : Parse Stmt)
    else pure (.ifThen e c)) g
  := by
  rw [statement_apply f, anyStatement, bind_of_ok (get_eq_ok f), hview]
  change condition statement f = _
  rw [condition, bind_of_ok (skipWord_eq_ok.2 ⟨hview, hadv⟩), bind_of_ok hleft, bind_of_ok he,
    bind_of_ok hright, bind_of_ok hc]
  by_cases helse : g.next? = some (.keyword .elseWord)
  · have hsees : sees [.keyword .elseWord] g = .ok true g := by
      rw [sees_keyword, decide_eq_true helse]
    rw [bind_of_ok hsees, if_pos helse]
    rfl
  · have hsees : sees [.keyword .elseWord] g = .ok false g := by
      rw [sees_keyword, decide_eq_false helse]
    rw [bind_of_ok hsees, if_neg helse]
    rfl

/-! ### Statements one after another -/

/-- Whether statements end at a front: at the end of the text, or at a closing brace. -/
def Stops (stop : Option TokenKind) (f : Front) : Prop :=
  (stop = none ∧ f.next? = none)
    ∨ (stop = some (.delimiter .rightBrace) ∧ f.next? = some (.delimiter .rightBrace))

theorem Stops.ne_elseWord {stop : Option TokenKind} {f : Front} (h : Stops stop f) :
  f.next? ≠ some (.keyword .elseWord)
  := by
  obtain ⟨-, hview⟩ | ⟨-, hview⟩ := h <;> simp [hview]

theorem statements_one {stop : Option TokenKind} {s : Stmt} {f g : Front}
    (hs : statement f = .ok s g) (hstop : Stops stop g) :
  statements statement stop f = .ok [s] g
  := by
  have hnone : (g.next?.bind fun t => if some t.kind = stop then none else some ()) = none := by
    obtain ⟨rfl, hview⟩ | ⟨rfl, hview⟩ := hstop <;> simp [hview, Token.kind]
  rw [statements, bind_of_ok hs, bind_of_ok (manyWhile_of_none hnone)]
  rfl

theorem statements_cons {stop : Option TokenKind} {s : Stmt} {ss : List Stmt} {t : Token}
    {f g h : Front} (hs : statement f = .ok s g) (hview : g.next? = some t)
    (ht : some t.kind ≠ stop) (hss : statements statement stop g = .ok ss h) :
  statements statement stop f = .ok (s :: ss) h
  := by
  obtain ⟨s', g', hs', hss⟩ := bind_eq_ok.1 hss
  obtain ⟨ss', _, hss', hss⟩ := bind_eq_ok.1 hss
  cases hss
  have hsome : (g.next?.bind fun t => if some t.kind = stop then none else some ())
      = some () := by simp [hview, ht]
  have hconsumes : Consumes (fun t => if some t.kind = stop then none else some ())
      fun _ => statement := fun _ _ _ _ _ h => readsStatement_statement.reads.size_lt h
  have hlater := manyWhile_of_some hconsumes hsome hs' hss'
  rw [statements, bind_of_ok hs, bind_of_ok hlater]
  rfl

end Parse

open Parse Token

/-- What is read of tokens that are derived as the phrase, given what may stand behind
them. -/
def Phrase.Completes : Phrase → Front → Front → Prop
  | program p, f, g => g.next? = none → Parse.program f = .ok p g
  | statements ss, f, g => ∀ stop, Stops stop g → Parse.statements Parse.statement stop f = .ok ss g
  | statement s, f, g =>
    (s.isOpen = true → g.next? ≠ some (.keyword .elseWord)) → Parse.statement f = .ok s g
  | declarations ds, f, g =>
    g.next? = some (.delimiter .semicolon) → Parse.declarations f = .ok ds g
  | declaration d, f, g =>
    g.next? = some (.delimiter .comma) ∨ g.next? = some (.delimiter .semicolon) →
      Parse.declaration f = .ok d g
  | expression layer e, f, g => Parse.Completes layer e f g
  | arguments es, f, g => Parse.arguments Parse.expression f = .ok es g
  | expressions es, f, g =>
    g.next? = some (.delimiter .rightParen) →
      Parse.argumentList Parse.expression f = .ok es g

/-- The productions read along every derivation. -/
theorem Derives.completes {ts : List Token} {p : Phrase} (h : Derives ts p) {f g : Front}
    (hreach : f.Reach ts g) (hshort : ∀ t ∈ ts, t.Short) :
  p.Completes f g
  := by
  induction h generalizing f g with
  | program _ ih =>
    intro hend
    have hss := ih hreach hshort none (.inl ⟨rfl, hend⟩)
    apply bind_of_ok hss
  | lastStatement _ ih =>
    intro stop hstop
    apply statements_one (ih hreach hshort fun _ => hstop.ne_elseWord) hstop
  | nextStatement _ later ih ih' =>
    intro stop hstop
    rw [List.forall_mem_append] at hshort
    obtain ⟨f', hs, hss⟩ := hreach.split
    have hs := ih hs hshort.1 fun _ => later.view_ne hss rfl
    obtain ⟨t, hview, -⟩ := later.exists_view hss
    have hgoes : some t.kind ≠ stop := by
      obtain ⟨rfl, -⟩ | ⟨rfl, -⟩ := hstop
      · exact Option.some_ne_none _
      · have hbrace : f'.next? ≠ some (.delimiter .rightBrace) := later.view_ne hss rfl
        simpa [hview, kind_eq_delimiter] using hbrace
    apply statements_cons hs hview hgoes
    apply ih' hss hshort.2 stop hstop
  | empty => exact fun _ => statement_of_empty (skip_eq_ok.2 hreach.last)
  | emptyBlock =>
    obtain ⟨f', g', hleft, hnil, -, hright⟩ := hreach.enclosed
    cases hnil
    exact fun _ => statement_of_emptyBlock hleft hright
  | block body ih =>
    obtain ⟨f', g', hleft, hinside, hview, hright⟩ := hreach.enclosed
    have hss := ih hinside (forall_short_enclosed.1 hshort) _ (.inr ⟨rfl, hview⟩)
    exact fun _ => statement_of_block hleft (body.view_ne hinside rfl) hss hright
  | declare _ ih =>
    rw [List.forall_mem_cons, List.forall_mem_append] at hshort
    obtain ⟨f', hview, hadv, hlater⟩ := hreach.uncons
    obtain ⟨g', hds, hlast⟩ := hlater.split
    have hlist := ih hds hshort.2.1 hlast.last.1
    exact fun _ => declare_of_declarations hview hadv hlist (skip_eq_ok.2 hlast.last)
  | ifThen _ _ ih ih' =>
    rw [List.forall_mem_cons, List.forall_mem_append, inParens, forall_short_enclosed] at hshort
    obtain ⟨f₁, hview, hadv, hlater⟩ := hreach.uncons
    obtain ⟨f₄, htest, hc⟩ := hlater.split
    obtain ⟨f₂, f₃, hleft, he, hview', hright⟩ := htest.enclosed
    intro hopen
    have he := (ih he hshort.2.1).expression (Front.joins_of_some hview')
    have hc := ih' hc hshort.2.2 fun _ => hopen rfl
    rw [statement_of_condition hview hadv hleft he hright hc, if_neg (hopen rfl)]
    rfl
  | ifElse _ _ closed _ ih ih' ih'' =>
    rw [List.forall_mem_cons, List.forall_mem_append, List.forall_mem_append, inParens,
      forall_short_enclosed, List.forall_mem_cons] at hshort
    obtain ⟨f₁, hview, hadv, hlater⟩ := hreach.uncons
    obtain ⟨f₅, hhead, hlater⟩ := hlater.split
    obtain ⟨f₄, htest, hc⟩ := hhead.split
    obtain ⟨f₂, f₃, hleft, he, hview', hright⟩ := htest.enclosed
    obtain ⟨f₆, helse, hadv', ha⟩ := hlater.uncons
    intro hopen
    have he := (ih he hshort.2.1.1).expression (Front.joins_of_some hview')
    have hc := ih' hc hshort.2.1.2 fun h => by simp [closed] at h
    have ha := ih'' ha hshort.2.2.2 hopen
    rw [Parse.statement_of_condition hview hadv hleft he hright hc, if_pos helse,
      bind_of_ok (skipWord_eq_ok.2 ⟨helse, hadv'⟩), bind_of_ok ha]
    rfl
  | expressionStatement expression ih =>
    rw [List.forall_mem_append] at hshort
    obtain ⟨g', he, hlast⟩ := hreach.split
    have hexpr := (ih he hshort.1).expression (Front.joins_of_some hlast.last.1)
    obtain ⟨t, hview, ht⟩ := expression.exists_view he
    exact fun _ => statement_of_expression hview ht hexpr (skip_eq_ok.2 hlast.last)
  | lastDeclaration _ ih =>
    intro hend
    have hd := ih hreach hshort (.inr hend)
    apply separated_one hd
    simp [hend]
  | nextDeclaration _ _ ih ih' =>
    rw [List.forall_mem_append, List.forall_mem_cons] at hshort
    obtain ⟨g', hd, hlater⟩ := hreach.split
    obtain ⟨h', hview, hadv, hds⟩ := hlater.uncons
    intro hend
    have hd := ih hd hshort.1 (.inl hview)
    apply separated_cons reads_declaration hd hview hadv
    apply ih' hds hshort.2.2 hend
  | bareName =>
    obtain ⟨hview, hadv⟩ := hreach.last
    exact fun hend => declaration_of_bare hview hadv hend
  | initialized _ ih =>
    rw [List.forall_mem_cons, List.forall_mem_cons] at hshort
    obtain ⟨f', hview, hadv, hlater⟩ := hreach.uncons
    obtain ⟨g', hview', hadv', he⟩ := hlater.uncons
    intro hend
    have hjoins : g.joins = 0 := by
      obtain hend | hend := hend <;> exact Front.joins_of_some hend
    have he := (ih he hshort.2.2).expression hjoins
    apply declaration_of_initialized hview hadv hview' hadv' he
  | noAssignment _ ih =>
    apply completes_noAssignment
    apply ih hreach hshort
  | assignment _ valid _ ih ih' =>
    rw [List.forall_mem_append, List.forall_mem_cons] at hshort
    obtain ⟨g', hl, hlater⟩ := hreach.split
    obtain ⟨h', hview, hadv, hr⟩ := hlater.uncons
    apply completes_assignment (ih hl hshort.1) (isTarget_iff.1 valid) hview hadv
    apply ih' hr hshort.2.2
  | noBinary _ ih =>
    apply completes_noBinary
    apply ih hreach hshort
  | binary _ known _ ih ih' =>
    obtain rfl := Level.mem_operators_iff.1 known
    rw [List.forall_mem_append, List.forall_mem_cons] at hshort
    obtain ⟨g', hl, hlater⟩ := hreach.split
    obtain ⟨h', hview, hadv, hr⟩ := hlater.uncons
    apply completes_binary (ih hl hshort.1) hview hadv
    apply ih' hr hshort.2.2
  | noUnary operand ih =>
    obtain ⟨t, hview, ht⟩ := operand.exists_view hreach
    apply completes_noUnary hview (Layer.unaryOp?_of_mayStart_call ht)
    apply ih hreach hshort
  | unary _ ih =>
    rw [List.forall_mem_cons] at hshort
    obtain ⟨f', hview, hadv, hlater⟩ := hreach.uncons
    apply completes_unary hview hadv
    apply ih hlater hshort.2
  | noCall member ih =>
    apply completes_noCall (member.view_ne hreach rfl)
    apply ih hreach hshort
  | call _ arguments ih ih' =>
    rw [List.forall_mem_append] at hshort
    obtain ⟨g', hc, hlater⟩ := hreach.split
    obtain ⟨t, hview, ht⟩ := arguments.exists_view hlater
    obtain rfl := of_decide_eq_true ht
    apply completes_call (ih hc hshort.1) hview
    apply ih' hlater hshort.2
  | superCall _ ih =>
    rw [List.forall_mem_cons] at hshort
    obtain ⟨f', hview, hadv, hlater⟩ := hreach.uncons
    apply completes_superCall hview hadv
    apply ih hlater hshort.2
  | noArguments => apply arguments_of_nil hreach
  | someArguments list ih =>
    obtain ⟨f', g', hleft, hinside, hview, hright⟩ := hreach.enclosed
    have hes := ih hinside (forall_short_enclosed.1 hshort) hview
    apply arguments_of_list hleft (list.view_ne hinside rfl) hes hright
  | lastExpression _ ih =>
    intro hend
    have he := (ih hreach hshort).expression (Front.joins_of_some hend)
    apply separated_one he
    simp [hend]
  | nextExpression _ _ ih ih' =>
    rw [List.forall_mem_append, List.forall_mem_cons] at hshort
    obtain ⟨g', he, hlater⟩ := hreach.split
    obtain ⟨h', hview, hadv, hes⟩ := hlater.uncons
    intro hend
    have he := (ih he hshort.1).expression (Front.joins_of_some hview)
    apply separated_cons reads_expression he hview hadv
    apply ih' hes hshort.2.2 hend
  | noMember _ ih =>
    apply completes_noMember
    apply ih hreach hshort
  | member _ ih =>
    rw [List.forall_mem_append] at hshort
    obtain ⟨g', ho, hlater⟩ := hreach.split
    obtain ⟨g₁, hview, hadv, hname⟩ := hlater.uncons
    apply completes_member (ih ho hshort.1) hview rfl
    rw [access, bind_of_ok (skip_eq_ok.2 ⟨hview, hadv⟩),
      bind_of_ok (name_eq_ok.2 hname.last)]
    rfl
  | index _ _ ih ih' =>
    rw [List.forall_mem_append, inBrackets, forall_short_enclosed] at hshort
    obtain ⟨g', ho, hlater⟩ := hreach.split
    obtain ⟨g₁, g₂, hleft, hinside, hview, hright⟩ := hlater.enclosed
    have hproperty := (ih' hinside hshort.2).expression (Front.joins_of_some hview)
    apply completes_member (ih ho hshort.1) (skip_eq_ok.1 hleft).1 rfl
    change (skip .leftBracket >>= _) g' = _
    rw [bind_of_ok hleft, bind_of_ok hproperty, bind_of_ok hright]
    rfl
  | parenthesized _ ih =>
    obtain ⟨f', g', hleft, hinside, hview, hright⟩ := hreach.enclosed
    apply completes_parenthesized hleft (ih hinside (forall_short_enclosed.1 hshort)) hview hright
  | identifier =>
    obtain ⟨hview, hadv⟩ := hreach.last
    apply completes_identifier hview hadv
  | number =>
    obtain ⟨hview, hadv⟩ := hreach.last
    apply completes_literal rfl hview
    apply number_of_short hview hadv
    apply hshort _ List.mem_cons_self
  | string =>
    obtain ⟨hview, hadv⟩ := hreach.last
    apply completes_literal rfl hview (take_eq_ok.2 ⟨_, hview, rfl, hadv⟩)
  | trueWord | falseWord | nullWord =>
    obtain ⟨hview, hadv⟩ := hreach.last
    apply completes_literal rfl hview
    apply bind_of_ok (skipWord_eq_ok.2 ⟨hview, hadv⟩)

/-- A text is read as a program exactly if its tokens are derived as that program and have
no numeral that is too long. -/
theorem parse_eq_ok_iff {source : String} {p : Program} :
  parse source = .ok p ↔ ∃ ts, tokenize source = .ok ts ∧ Derives ts (.program p)
    ∧ ∀ t ∈ ts, t.Short
  := by
  refine ⟨exists_derives_of_parse, ?_⟩
  rintro ⟨ts, hcut, hts, hshort⟩
  rw [tokenize_eq_ok_iff] at hcut
  obtain ⟨f, hload, g, hreach, hend⟩ := (exists_load_iff .empty).2 hcut
  have hprogram : Parse.program f = .ok p g := hts.completes hreach hshort hend
  rw [parse, Parse.source, bind_of_ok hload, hprogram]

/-- A text whose tokens have no numeral that is too long is read as exactly those programs
that its tokens are derived as; and its tokens are derived as at most one program. -/
theorem parse_eq_ok_iff_derives {source : String} {ts : List Token}
    (hcut : tokenize source = .ok ts) (hshort : ∀ t ∈ ts, t.Short) :
  (∀ p, parse source = .ok p ↔ Derives ts (.program p))
    ∧ ∀ p q, Derives ts (.program p) → Derives ts (.program q) → p = q
  := by
  have hread (p : Program) : parse source = .ok p ↔ Derives ts (.program p) := by
    rw [parse_eq_ok_iff]
    constructor
    · rintro ⟨ts', hcut', hts, -⟩
      rw [hcut] at hcut'
      cases hcut'
      exact hts
    · exact fun hts => ⟨ts, hcut, hts, hshort⟩
  refine ⟨hread, fun p q hp hq => ?_⟩
  have hsame := ((hread p).2 hp).symm.trans ((hread q).2 hq)
  cases hsame
  rfl

/-- A source with parentheses and with a numeral that are not in standard form. -/
def sampleSource : String := "x = ((01));"

/-- The tokens of the sample. -/
def sampleTokens : List Token :=
  [.identifier "x"] ++ .operator (.assign .set) :: inParens (inParens [.number "01"])
    ++ [.delimiter .semicolon]

/-- The program of the sample. -/
def sampleProgram : Program :=
  ⟨[.expression (.assign .set (.identifier "x") (.number 1))]⟩

theorem tokenize_sampleSource :
  tokenize sampleSource = .ok sampleTokens
  := tokenize_eq_ok_iff.2 (.token rfl (.skip rfl (.token rfl (.skip rfl (.token rfl (.token rfl
    (.token rfl (.token rfl (.token rfl (.token rfl .nil))))))))))

theorem short_sampleTokens :
  ∀ t ∈ sampleTokens, t.Short
  := by
  have hshort : "01".length ≤ maxDigits := by decide
  simpa [sampleTokens, inParens, enclosed, Short] using hshort

theorem derives_sampleTokens :
  Derives sampleTokens (.program sampleProgram)
  := by
  have hnumber : Derives [.number "01"] (.expression .primary (.number 1)) := .number
  have hinner := Derives.parenthesized (hnumber.loosen (by decide))
  have houter := Derives.parenthesized (hinner.loosen (by decide))
  have htarget : Derives [.identifier "x"] (.expression .primary (.identifier "x")) :=
    .identifier
  exact .program (.lastStatement (.expressionStatement
    (.assignment (htarget.loosen (by decide)) (.identifier "x") (houter.loosen (by decide)))))

/-- An assignment with parentheses to spare, and what its tokens are derived as. -/
theorem parse_eq_ok_iff_derives_sampleSource :
  tokenize sampleSource = .ok sampleTokens ∧ (∀ t ∈ sampleTokens, t.Short)
    ∧ (∀ p, parse sampleSource = .ok p ↔ Derives sampleTokens (.program p))
    ∧ ∀ p q, Derives sampleTokens (.program p) → Derives sampleTokens (.program q) → p = q
  := ⟨tokenize_sampleSource, short_sampleTokens,
    parse_eq_ok_iff_derives tokenize_sampleSource short_sampleTokens⟩

theorem parse_sampleSource :
  parse sampleSource = .ok sampleProgram
  := parse_eq_ok_iff.2
    ⟨sampleTokens, tokenize_sampleSource, derives_sampleTokens, short_sampleTokens⟩

end Letter
