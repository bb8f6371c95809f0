import Letter.Proofs.Grammar.Predictive

/-!
# The grammar looks one token ahead

Every production of the grammar is predictive, so that a program is read without ever going
back in the text.  The way to read nested phrases is an argument of the productions; what is
nested stands behind a token of what is around it, so that only smaller fronts matter.

Main statements: `predictive_expression`, `predictive_statement`, `predictive_program`.
-/

namespace Letter.Parse

/-! ### Literals and names -/

/-- A numeral is refused by what it is, or by its length once it has been taken. -/
theorem predictive_number (f : Front) :
  Predictive number f
  := by
  by_cases hlong : ∃ digits, f.next? = some (.number digits) ∧ maxDigits < digits.length
  · obtain ⟨digits, hview, hlt⟩ := hlong
    refine .refused (e := .numeralTooLong digits.length) hview ⟨digits, rfl, rfl, hlt⟩
      fun g hg => ?_
    apply (bind_congr_left (take_of_some (a := digits) hg _) _).trans
    · rw [bind_assoc]
      apply bind_congr_ok
      intro _ g' _
      rw [pure_bind, if_pos hlt]
      rfl
    · rfl
  · apply (Predictive.take _ _ f).bind
    intro digits g htake
    obtain ⟨t, hview, hsel, -⟩ := take_eq_ok.1 htake
    split at hsel
    · obtain rfl := Option.some.inj hsel
      rw [if_neg fun hlt => hlong ⟨_, hview, hlt⟩]
      exact .pure _ g
    · cases hsel

theorem predictive_literal {kind : TokenKind} (hkind : kind.isLiteral = true) (f : Front) :
  Predictive (literal kind) f
  := by
  unfold literal
  split
  · apply predictive_number f
  · apply Predictive.take
  · exact (Predictive.skipWord _ f).bind fun _ g _ => .pure _ g
  · exact (Predictive.skipWord _ f).bind fun _ g _ => .pure _ g
  · exact (Predictive.skipWord _ f).bind fun _ g _ => .pure _ g
  · simp_all [TokenKind.isLiteral]

theorem predictive_name (f : Front) :
  Predictive name f
  := .take _ _ f

theorem predictive_identifier (f : Front) :
  Predictive identifier f
  := (predictive_name f).bind fun _ g _ => .pure _ g

/-! ### Productions, given the way to read nested expressions -/

section

variable {X : Parse Expr} (hX : Reads X (.expression .assignment)) {n : Nat}
  (hpredictive : ∀ g, g.size < n → Predictive X g) {f : Front} (h : f.size ≤ n)

include hpredictive h

theorem predictive_parenthesized :
  Predictive (parenthesized X) f
  := by
  apply (Predictive.skip .leftParen f).bind
  intro _ g hleft
  have := size_lt_of_skip hleft
  apply (hpredictive g (by omega)).bind
  intro e g' _
  exact (Predictive.skip .rightParen g').bind fun _ g'' _ => .pure e g''

/-- A primary expression is predictive, for its first token decides which kind it is. -/
theorem predictive_primary :
  Predictive (primary X) f
  := by
  cases hview : f.next? with
  | none => exact .told .missingOperand hview fun g hg => primary_of_none (hg.trans hview)
  | some t =>
    by_cases hliteral : t.kind.isLiteral = true
    · apply (predictive_literal hliteral f).congr
      intro g hg
      rw [primary_of_some t (hg.trans hview), if_pos hliteral]
    · refine Predictive.congr ?_ fun g hg =>
        (primary_of_some t (hg.trans hview)).trans (congrFun (if_neg hliteral) g)
      split
      · apply predictive_parenthesized hpredictive h
      · apply predictive_identifier f
      · exact .told (.unexpectedOperand t) hview fun _ _ => rfl

theorem predictive_access (object : Expr) (d : Delimiter) :
  Predictive (access X object d) f
  := by
  unfold access
  split
  · apply (Predictive.skip .dot f).bind
    intro _ g _
    exact (predictive_name g).bind fun _ g' _ => .pure _ g'
  · apply (Predictive.skip .leftBracket f).bind
    intro _ g hleft
    have := size_lt_of_skip hleft
    apply (hpredictive g (by omega)).bind
    intro p g' _
    exact (Predictive.skip .rightBracket g').bind fun _ g'' _ => .pure _ g''

include hX

theorem predictive_member :
  Predictive (member X) f
  := by
  apply (predictive_primary hpredictive h).bind
  intro e g he
  have := (reads_primary hX).size_lt he
  apply Predictive.foldWhile (consumes_access hX)
    (fun e d _ hg _ => predictive_access hpredictive hg e d) e (by omega)

theorem predictive_arguments :
  Predictive (arguments X) f
  := by
  apply (Predictive.skip .leftParen f).bind
  intro _ g hleft
  have := size_lt_of_skip hleft
  apply (Predictive.sees _ g).bind
  intro b g' hsees
  cases hsees
  have hlist : Predictive (argumentList X) g :=
    .separated hX (n := g.size) (fun g' hg' => hpredictive g' (by omega)) (Nat.le_refl _)
  dsimp only
  split
  · exact (Predictive.skip .rightParen g).bind fun _ g' _ => .pure _ g'
  · apply hlist.bind
    intro es g' _
    exact (Predictive.skip .rightParen g').bind fun _ g'' _ => .pure _ g''

theorem predictive_calls (callee : Expr) :
  Predictive (calls X callee) f
  := by
  refine .foldWhile (consumes_call hX) ?_ callee h
  intro callee _ g hg _
  exact (predictive_arguments hX hpredictive hg).bind fun _ g' _ => .pure _ g'

theorem predictive_callMember :
  Predictive (callMember X) f
  := by
  apply (Predictive.sees _ f).bind
  intro b g hsees
  cases hsees
  dsimp only
  split
  · apply (Predictive.skipWord .superWord f).bind
    intro _ g hsuper
    have := size_lt_of_skipWord hsuper
    apply (predictive_arguments hX hpredictive (by omega)).bind
    intro es g' hes
    have := (reads_arguments hX).size_lt hes
    apply predictive_calls hX hpredictive (by omega)
  · apply (predictive_member hX hpredictive h).bind
    intro e g he
    have := (reads_member hX).size_lt he
    apply predictive_calls hX hpredictive (by omega)

theorem predictive_unary :
  Predictive (unary X) f
  := by
  have hops : Predictive (manyWhile unaryOp? fun op => advance >>= fun _ => pure op) f := by
    refine .manyWhile consumes_unary ?_ (Nat.le_refl _)
    intro op g _ hview
    obtain ⟨t, ht, -⟩ := Option.bind_eq_some_iff.1 hview
    exact (Predictive.advance ht).bind fun _ g' _ => .pure op g'
  apply hops.bind
  intro ops g hg
  have := hops.size_le hg
  exact (predictive_callMember hX hpredictive (by omega)).bind fun _ g' _ => .pure _ g'

/-- An assignment is predictive if what stands on its left is. -/
theorem predictive_assignment (hleft : Predictive (disjunction X) f) :
  Predictive (assignment X) f
  := by
  apply hleft.bind
  intro l g hl
  have := (reads_layer hX (.binary .disjunction)).size_lt hl
  apply (Predictive.peek _ g).bind
  intro o g' hpeek
  obtain ⟨hview, rfl⟩ := peek_eq_ok.1 hpeek
  cases o with
  | none => exact .pure l g
  | some op =>
    obtain ⟨t, ht, hop⟩ := Option.bind_eq_some_iff.1 hview
    obtain rfl := assignOp?_eq_some.1 hop
    by_cases hvalid : l.isTarget = true
    · apply (Predictive.take _ _ g).bind
      intro op' g₁ htake
      obtain ⟨_, -, -, hadv⟩ := take_eq_ok.1 htake
      have := Front.size_advance ht hadv
      rw [if_pos hvalid]
      exact (hpredictive g₁ (by omega)).bind fun _ g₂ _ => .pure _ g₂
    · refine .refused (e := .invalidTarget) ht ⟨op, rfl⟩ fun g₁ hg₁ => ?_
      have htake : assignOp g₁ = (advance >>= fun _ => pure op) g₁ := take_of_some hg₁ rfl
      change (assignOp >>= _) g₁ = _
      rw [bind_congr_left htake, bind_assoc]
      apply bind_congr_ok
      intro _ g₂ _
      rw [pure_bind, if_neg hvalid]

/-- The production of each layer is predictive. -/
theorem predictive_layer (layer : Layer) :
  Predictive (layer.production X) f
  := by
  have hbinary := Layer.binary_of_tighter (P := fun layer =>
    ∀ f, f.size ≤ n → Predictive (layer.production X) f)
    (fun f h => predictive_unary hX hpredictive h) fun level hoperand f h => by
      rw [Layer.production_binary]
      exact .chain (reads_layer hX level.tighter) hoperand h
  cases layer with
  | assignment => apply predictive_assignment hX hpredictive h (hbinary .disjunction f h)
  | binary level => apply hbinary level f h
  | unary => apply predictive_unary hX hpredictive h
  | call => apply predictive_callMember hX hpredictive h
  | member => apply predictive_member hX hpredictive h
  | primary => apply predictive_primary hpredictive h

end

/-! ### Expressions -/

/-- Expressions are predictive on every front. -/
theorem predictive_expression (f : Front) :
  Predictive expression f
  := by
  induction hn : f.size using Nat.strongRecOn generalizing f with
  | _ n ih =>
    have hlayer : Predictive (assignment expression) f :=
      predictive_layer reads_expression (fun g hg => ih g.size hg g rfl) (Nat.le_of_eq hn)
        .assignment
    rwa [← expression_eq] at hlayer

/-! ### Declarations -/

/-- A declaration is predictive, for what follows its name decides whether it has a value. -/
theorem predictive_declaration (f : Front) :
  Predictive declaration f
  := by
  apply (predictive_name f).bind
  intro n g _
  apply (Predictive.sees _ g).bind
  intro b g' hsees
  cases hsees
  have hinit : Predictive initializer g :=
    (Predictive.eat _ g).bind fun _ g' _ => predictive_expression g'
  split
  · exact .pure _ g
  · exact (hinit.map some).bind fun _ g' _ => .pure _ g'

theorem predictive_declare (f : Front) :
  Predictive declare f
  := by
  apply (Predictive.skipWord .letWord f).bind
  intro _ g _
  have hlist : Predictive declarations g :=
    .separated reads_declaration (fun g _ => predictive_declaration g) (Nat.le_refl _)
  apply hlist.bind
  intro ds g' _
  exact (Predictive.skip .semicolon g').bind fun _ g'' _ => .pure _ g''

/-! ### Statements -/

theorem predictive_expressionStatement (f : Front) :
  Predictive expressionStatement f
  := by
  apply (predictive_expression f).bind
  intro e g _
  exact (Predictive.skip .semicolon g).bind fun _ g' _ => .pure _ g'

section

variable {S : Parse Stmt} (hS : ReadsStatement S) {n : Nat}
  (hpredictive : ∀ g, g.size < n → Predictive S g) {f : Front}

include hS hpredictive

theorem predictive_statements (h : f.size < n) (stop : Option TokenKind) :
  Predictive (statements S stop) f
  := by
  apply (hpredictive f h).bind
  intro s g hs
  have := hS.reads.size_lt hs
  refine .bind (.manyWhile (n := g.size) ?_ ?_ (Nat.le_refl _)) fun _ g' _ => .pure _ g'
  · exact fun _ _ _ _ _ h => hS.reads.size_lt h
  · exact fun _ g' hg' _ => hpredictive g' (by omega)

theorem predictive_block (h : f.size ≤ n) :
  Predictive (block S) f
  := by
  apply (Predictive.skip .leftBrace f).bind
  intro _ g hleft
  have := size_lt_of_skip hleft
  apply (Predictive.sees _ g).bind
  intro b g' hsees
  cases hsees
  split
  · exact (Predictive.skip .rightBrace g).bind fun _ g' _ => .pure _ g'
  · apply (predictive_statements hS hpredictive (by omega) _).bind
    intro ss g' _
    exact (Predictive.skip .rightBrace g').bind fun _ g'' _ => .pure _ g''

theorem predictive_condition (h : f.size ≤ n) :
  Predictive (condition S) f
  := by
  apply (Predictive.skipWord .ifWord f).bind
  intro _ f₁ hword
  have := size_lt_of_skipWord hword
  apply (Predictive.skip .leftParen f₁).bind
  intro _ f₂ hleft
  have := size_lt_of_skip hleft
  apply (predictive_expression f₂).bind
  intro e f₃ htest
  have := reads_expression.size_lt htest
  apply (Predictive.skip .rightParen f₃).bind
  intro _ f₄ hright
  have := size_lt_of_skip hright
  apply (hpredictive f₄ (by omega)).bind
  intro c f₅ hc
  have := hS.reads.size_lt hc
  apply (Predictive.sees _ f₅).bind
  intro b _ hsees
  cases hsees
  split
  · apply (Predictive.skipWord .elseWord f₅).bind
    intro _ f₆ helse
    have := size_lt_of_skipWord helse
    exact (hpredictive f₆ (by omega)).bind fun _ g _ => .pure _ g
  · exact .pure _ f₅

theorem predictive_anyStatement (h : f.size ≤ n) :
  Predictive (anyStatement S) f
  := by
  refine Predictive.congr ?_ fun g hg => anyStatement_of_view f.next? hg
  split
  · exact (Predictive.skip .semicolon f).bind fun _ g _ => .pure _ g
  · apply predictive_block hS hpredictive h
  · apply predictive_declare f
  · apply predictive_condition hS hpredictive h
  · apply predictive_expressionStatement f

end

/-- Statements are predictive on every front. -/
theorem predictive_statement (f : Front) :
  Predictive statement f
  := by
  induction hn : f.size using Nat.strongRecOn generalizing f with
  | _ n ih =>
    rw [statement_eq]
    apply predictive_anyStatement readsStatement_statement _ (Nat.le_of_eq hn)
    exact fun g hg => ih g.size hg g rfl

/-! ### Programs -/

/-- Programs are predictive on every front. -/
theorem predictive_program (f : Front) :
  Predictive program f
  := by
  have hstatements : Predictive (statements statement none) f :=
    predictive_statements readsStatement_statement (fun g _ => predictive_statement g)
      (Nat.lt_succ_self _) none
  exact hstatements.bind fun _ g _ => .pure _ g

end Letter.Parse
