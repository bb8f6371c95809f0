import Letter.Proofs.Grammar.SoundProgram

/-!
# Nested expressions and statements

A nested expression is read with a bound on the nesting, and so is a nested statement.  The
bounds are never met: an expression is what the production of the loosest layer reads when
it reads nested expressions as expressions, and a statement is what the production of
statements reads when it reads nested statements as statements.

The reason is the same for both.  What is nested stands behind a token of what is around
it, so that a production depends on what the reader of nested phrases does where a token has
been taken, and there the front is smaller.

Main statements: `expression_eq`, `statement_eq`.
-/

namespace Letter.Parse

variable {α : Type}

/-! ### Rounds of the loops -/

theorem precedes_of_skip {d : Delimiter} {f g : Front} (h : skip d f = .ok () g) :
  f.Precedes g
  := by
  obtain ⟨hview, hadv⟩ := skip_eq_ok.1 h
  apply Front.Precedes.of_advance hview hadv

theorem precedes_of_skipWord {k : Keyword} {f g : Front} (h : skipWord k f = .ok () g) :
  f.Precedes g
  := by
  obtain ⟨hview, hadv⟩ := skipWord_eq_ok.1 h
  apply Front.Precedes.of_advance hview hadv

theorem size_lt_of_skip {d : Delimiter} {f g : Front} (h : skip d f = .ok () g) :
  g.size < f.size
  := (precedes_of_skip h).size_lt

theorem size_lt_of_skipWord {k : Keyword} {f g : Front} (h : skipWord k f = .ok () g) :
  g.size < f.size
  := (precedes_of_skipWord h).size_lt

/-- A round that begins by advancing eats the token that selected it. -/
theorem eats_advance {β : Type} {select : Token → Option β} {round : β → Parse α}
    (hround : ∀ b f a g, round b f = .ok a g → ∃ ts, f.Reach ts g) :
  Eats select (fun b => advance >>= fun _ => round b)
  := by
  intro b f a h hview hp
  obtain ⟨_, g, hadv, hp⟩ := bind_eq_ok.1 hp
  obtain ⟨t, ht, -⟩ := Option.bind_eq_some_iff.1 hview
  obtain ⟨ts, hgh⟩ := hround _ _ _ _ hp
  exact (Front.Precedes.of_advance ht hadv).before hgh

theorem eats_unary :
  Eats (α := UnaryOp) unaryOp? fun op => do
    advance
    return op
  := by
  apply eats_advance
  intro op f _ g h
  cases h
  exact ⟨[], .refl f⟩

theorem consumes_unary :
  Consumes (α := UnaryOp) unaryOp? fun op => do
    advance
    return op
  := eats_unary.consumes

/-- A round of a chain eats the operator and takes what its operand takes. -/
theorem eats_chain {level : Level} {operand : Parse Expr}
    (hoperand : Reads operand (.expression level.tighter)) (left : Expr) :
  Eats (α := Expr) (binaryOp? level) fun op => do
    advance
    return .binary op left (← operand)
  := by
  apply eats_advance
  intro op f _ g h
  obtain ⟨r, _, hr, h⟩ := bind_eq_ok.1 h
  cases h
  obtain ⟨t, ts, hreach⟩ := hoperand.precedes hr
  exact ⟨_, hreach⟩

theorem consumes_chain {level : Level} {operand : Parse Expr}
    (hoperand : Reads operand (.expression level.tighter)) (left : Expr) :
  Consumes (α := Expr) (binaryOp? level) fun op => do
    advance
    return .binary op left (← operand)
  := (eats_chain hoperand left).consumes

theorem eats_item {item : Parse α} {one : α → Phrase} (hitem : Reads item one) :
  Eats (fun t => if t = .delimiter .comma then some () else none)
    (fun _ => do skip .comma; item)
  := by
  intro _ f a h _ hp
  obtain ⟨_, g, hcomma, hp⟩ := bind_eq_ok.1 hp
  exact (precedes_of_skip hcomma).trans (hitem.precedes hp)

theorem consumes_item {item : Parse α} {one : α → Phrase} (hitem : Reads item one) :
  Consumes (fun t => if t = .delimiter .comma then some () else none)
    (fun _ => do skip .comma; item)
  := (eats_item hitem).consumes

section

variable {X : Parse Expr} (hX : Reads X (.expression .assignment))

include hX

theorem eats_access (object : Expr) :
  Eats access? (access X object)
  := by
  intro d f e h _ hp
  unfold access at hp
  split at hp
  · obtain ⟨_, g, hdot, hp⟩ := bind_eq_ok.1 hp
    obtain ⟨n, g', hname, hp⟩ := bind_eq_ok.1 hp
    cases hp
    obtain ⟨hview, hadv⟩ := name_eq_ok.1 hname
    exact (precedes_of_skip hdot).trans (.of_advance hview hadv)
  · obtain ⟨_, g, hleft, hp⟩ := bind_eq_ok.1 hp
    obtain ⟨p, g', hinside, hp⟩ := bind_eq_ok.1 hp
    obtain ⟨_, _, hright, hp⟩ := bind_eq_ok.1 hp
    cases hp
    exact ((precedes_of_skip hleft).trans (hX.precedes hinside)).trans (precedes_of_skip hright)

theorem consumes_access (object : Expr) :
  Consumes access? (access X object)
  := (eats_access hX object).consumes

theorem eats_call (callee : Expr) :
  Eats (α := Expr) leftParen? fun _ => do return .call callee (← arguments X)
  := by
  intro _ f e h _ hp
  obtain ⟨es, _, hes, hp⟩ := bind_eq_ok.1 hp
  cases hp
  apply (reads_arguments hX).precedes hes

theorem consumes_call (callee : Expr) :
  Consumes (α := Expr) leftParen? fun _ => do return .call callee (← arguments X)
  := (eats_call hX callee).consumes

end

/-! ### The fronts behind one -/

/-- Two readers do the same wherever at least one token has been taken. -/
def AgreeBehind (X Y : Parse α) (f : Front) : Prop := ∀ g, f.Precedes g → X g = Y g

theorem AgreeBehind.of_reach {X Y : Parse α} {f g : Front} {ts : List Token}
    (h : AgreeBehind X Y f) (hfg : f.Reach ts g) :
  AgreeBehind X Y g
  := fun k hgk => h k (hgk.after hfg)

theorem AgreeBehind.eq_of_reach {X Y : Parse α} {f g h : Front} {ts : List Token}
    (hXY : AgreeBehind X Y f) (hfg : f.Precedes g) (hgh : g.Reach ts h) :
  X h = Y h
  := hXY h (hfg.before hgh)

/-! ### Sequences and chains -/

/-- A list depends on its item on the fronts alone that can be reached. -/
theorem separated_congr {item item' : Parse α} {one : α → Phrase} (hitem : Reads item one)
    {f : Front} (hsame : ∀ ts g, f.Reach ts g → item g = item' g) :
  separated item f = separated item' f
  := by
  unfold separated
  rw [← bind_congr_left (hsame [] f (.refl f))]
  apply bind_congr_ok
  intro a g ha
  obtain ⟨t, ts, hfg⟩ := hitem.precedes ha
  refine bind_congr_left (manyWhile_congr (eats_item hitem) ?_) _
  intro _ us h hgh _
  apply bind_congr_ok
  intro _ k hcomma
  obtain ⟨u, vs, hhk⟩ := precedes_of_skip hcomma
  exact hsame _ k (hfg.trans (hgh.trans hhk))

/-- A chain depends on its operand on the fronts alone that can be reached. -/
theorem chain_congr {level : Level} {operand operand' : Parse Expr}
    (hoperand : Reads operand (.expression level.tighter)) {f : Front}
    (hsame : ∀ ts g, f.Reach ts g → operand g = operand' g) :
  chain level operand f = chain level operand' f
  := by
  unfold chain
  rw [← bind_congr_left (hsame [] f (.refl f))]
  apply bind_congr_ok
  intro e g he
  obtain ⟨t, ts, hfg⟩ := hoperand.precedes he
  refine foldWhile_congr (eats_chain hoperand) ?_ e
  intro l op us h hgh hview
  obtain ⟨u, hu, -⟩ := Option.bind_eq_some_iff.1 hview
  apply bind_congr_ok
  intro _ k hadv
  exact bind_congr_left (hsame _ k (hfg.trans (hgh.trans (.one hu hadv)))) _

/-! ### Expressions -/

section

variable {X Y : Parse Expr} (hX : Reads X (.expression .assignment)) {f : Front}
  (hXY : AgreeBehind X Y f)

include hXY

/-- Parentheses depend on what expressions come to behind them alone. -/
theorem parenthesized_congr :
  parenthesized X f = parenthesized Y f
  := by
  apply bind_congr_ok
  intro _ g hleft
  apply bind_congr_left (hXY g (precedes_of_skip hleft))

theorem primary_congr :
  primary X f = primary Y f
  := by
  cases hview : f.next? with
  | none => rw [primary_of_none hview, primary_of_none hview]
  | some t =>
    rw [primary_of_some t hview, primary_of_some t hview]
    split
    · rfl
    · split
      · apply parenthesized_congr hXY
      · rfl
      · rfl

theorem access_congr (object : Expr) (d : Delimiter) :
  access X object d f = access Y object d f
  := by
  unfold access
  split
  · rfl
  · apply bind_congr_ok
    intro _ g hleft
    apply bind_congr_left (hXY g (precedes_of_skip hleft))

include hX

theorem member_congr :
  member X f = member Y f
  := by
  unfold member
  rw [← bind_congr_left (primary_congr hXY)]
  apply bind_congr_ok
  intro e g he
  obtain ⟨t, ts, hfg⟩ := (reads_primary hX).precedes he
  exact foldWhile_congr (eats_access hX)
    (fun e d us h hgh _ => access_congr (hXY.of_reach (hfg.trans hgh)) e d) e

theorem arguments_congr :
  arguments X f = arguments Y f
  := by
  apply bind_congr_ok
  intro _ g hleft
  have hfg := precedes_of_skip hleft
  apply bind_congr_ok
  intro b g' hsees
  cases hsees
  dsimp only
  split
  · rfl
  · exact bind_congr_left (separated_congr hX fun ts h hgh => hXY.eq_of_reach hfg hgh) _

theorem calls_congr (callee : Expr) :
  calls X callee f = calls Y callee f
  := by
  refine foldWhile_congr (eats_call hX) ?_ callee
  intro callee _ ts g hfg _
  exact bind_congr_left (arguments_congr hX (hXY.of_reach hfg)) _

theorem callMember_congr :
  callMember X f = callMember Y f
  := by
  apply bind_congr_ok
  intro b g hsees
  cases hsees
  dsimp only
  split
  · apply bind_congr_ok
    intro _ g hsuper
    obtain ⟨t, ts, hfg⟩ := precedes_of_skipWord hsuper
    rw [← bind_congr_left (arguments_congr hX (hXY.of_reach hfg))]
    apply bind_congr_ok
    intro es h hes
    obtain ⟨u, us, hgh⟩ := (reads_arguments hX).precedes hes
    apply calls_congr hX (hXY.of_reach (hfg.trans hgh))
  · rw [← bind_congr_left (member_congr hX hXY)]
    apply bind_congr_ok
    intro e g he
    obtain ⟨t, ts, hfg⟩ := (reads_member hX).precedes he
    apply calls_congr hX (hXY.of_reach hfg)

theorem unary_congr :
  unary X f = unary Y f
  := by
  apply bind_congr_ok
  intro ops g hops
  obtain ⟨ts, hfg⟩ := reach_of_manyWhile eats_unary hops
  apply bind_congr_left (callMember_congr hX (hXY.of_reach hfg))

/-- What a nested expression is read as matters only where a token has been taken. -/
theorem layer_congr (layer : Layer) :
  layer.production X f = layer.production Y f
  := by
  have hbinary := Layer.binary_of_tighter (P := fun layer =>
    ∀ f, AgreeBehind X Y f → layer.production X f = layer.production Y f)
    (fun f hXY => unary_congr hX hXY) fun level hoperand f hXY => by
      rw [Layer.production_binary, Layer.production_binary]
      exact chain_congr (reads_layer hX level.tighter) fun ts g hfg =>
        hoperand g (hXY.of_reach hfg)
  cases layer with
  | assignment =>
    change assignment X f = assignment Y f
    unfold assignment
    have hleft : disjunction X f = disjunction Y f := hbinary .disjunction f hXY
    rw [← bind_congr_left hleft]
    apply bind_congr_ok
    intro l g hl
    have hfg := (reads_layer hX (.binary .disjunction)).precedes hl
    apply bind_congr_ok
    intro o g' hpeek
    obtain ⟨-, rfl⟩ := peek_eq_ok.1 hpeek
    cases o with
    | none => rfl
    | some _ =>
      apply bind_congr_ok
      intro op g₁ hop
      obtain ⟨t, hview, -, hadv⟩ := take_eq_ok.1 hop
      split
      · apply bind_congr_left (hXY.eq_of_reach hfg (.one hview hadv))
      · rfl
  | binary level => apply hbinary level f hXY
  | unary => apply unary_congr hX hXY
  | call => apply callMember_congr hX hXY
  | member => apply member_congr hX hXY
  | primary => apply primary_congr hXY

end

/-- An error of the operand in front is one of every layer, where no operator and no call of the
overridden function stands in front. -/
theorem layer_of_primary {X : Parse Expr} {f g : Front} {e : SyntaxError}
    (hprimary : X.primary f = .error e g) (hsuper : f.next? ≠ some (.keyword .superWord))
    (hop : f.next?.bind unaryOp? = none) (layer : Layer) :
  layer.production X f = .error e g
  := by
  have hmember : X.member f = .error e g := bind_of_error hprimary _
  have hsees : sees [.keyword .superWord] f = .ok false f := by
    rw [sees_keyword, decide_eq_false hsuper]
  have hcall : X.callMember f = .error e g := by
    rw [callMember, bind_of_ok hsees]
    apply bind_of_error hmember
  have hops : manyWhile unaryOp? (fun op => advance >>= fun _ => pure op) f = .ok [] f :=
    manyWithin_of_none hop _
  have hunary : X.unary f = .error e g := by
    rw [unary, bind_of_ok hops]
    apply bind_of_error hcall
  have hbinary := Layer.binary_of_tighter (P := fun layer =>
    layer.production X f = .error e g) hunary fun level hoperand => by
      rw [Layer.production_binary]
      apply bind_of_error hoperand
  cases layer with
  | assignment => apply bind_of_error (hbinary .disjunction)
  | binary level => apply hbinary
  | unary => exact hunary
  | call => exact hcall
  | member => exact hmember
  | primary => exact hprimary

/-- An operand is missing where the text has ended. -/
theorem layer_of_none (X : Parse Expr) (layer : Layer) {f : Front} (h : f.next? = none) :
  layer.production X f = .error .missingOperand f
  := layer_of_primary (primary_of_none h) (by rw [h]; exact nofun) (by rw [h]; rfl) layer

/-- There is no expression at the end of the input. -/
theorem expression_of_none {f : Front} (h : f.next? = none) :
  expression f = .error .missingOperand f
  := by
  rw [expression]
  cases f.behind with
  | nil => apply layer_of_none _ .assignment h
  | cons c bound => apply layer_of_none _ .assignment h

/-- A bound that suffices for the tokens that are left makes no difference. -/
theorem expressionWithin_eq {bound : List Char} {f : Front}
    (h : f.size ≤ bound.length + 1) :
  expressionWithin bound f = assignment expression f
  := by
  induction hn : f.size using Nat.strongRecOn generalizing bound f with
  | _ n ih =>
    cases bound with
    | nil =>
      refine layer_congr (reads_throw _ _) (fun g hg => ?_) .assignment
      have hlt := hg.size_lt
      have hnone : g.next? = none :=
        Front.next?_of_size_zero (by rw [List.length_nil] at h; omega)
      rw [expression_of_none hnone]
      rfl
    | cons c bound =>
      refine layer_congr (reads_expressionWithin bound) (fun g hg => ?_) .assignment
      have hlt : g.size < n := hn ▸ hg.size_lt
      rw [ih g.size hlt (by rw [List.length_cons] at h; omega) rfl]
      apply (ih g.size hlt (size_le_behind g) rfl).symm

/-- An expression is read by reading nested expressions as expressions. -/
theorem expression_eq :
  expression = assignment expression
  := funext fun f => expressionWithin_eq (size_le_behind f)

/-! ### Statements -/

theorem anyStatement_of_none (S : Parse Stmt) {f : Front} (h : f.next? = none) :
  anyStatement S f = .error .missingOperand f
  := by
  rw [anyStatement, bind_of_ok (get_eq_ok f), h]
  apply bind_of_error (expression_of_none h)

/-- There is no statement at the end of the input. -/
theorem statement_of_none {f : Front} (h : f.next? = none) :
  statement f = .error .missingOperand f
  := by
  rw [statement]
  cases f.behind with
  | nil => apply anyStatement_of_none _ h
  | cons c bound => apply anyStatement_of_none _ h

section

variable {S T : Parse Stmt} (hS : ReadsStatement S) {f : Front}

include hS

/-- Statements depend on the production for one on the fronts alone that can be reached. -/
theorem statements_congr (hST : ∀ ts g, f.Reach ts g → S g = T g) (stop : Option TokenKind) :
  statements S stop f = statements T stop f
  := by
  unfold statements
  rw [← bind_congr_left (hST [] f (.refl f))]
  apply bind_congr_ok
  intro s g hs
  obtain ⟨t, ts, hfg⟩ := hS.reads.precedes hs
  refine bind_congr_left (manyWhile_congr ?_ ?_) _
  · exact fun _ _ _ _ _ h => hS.reads.precedes h
  · exact fun _ us h hgh _ => hST _ h (hfg.trans hgh)

variable (hST : AgreeBehind S T f)

include hST

theorem block_congr :
  block S f = block T f
  := by
  apply bind_congr_ok
  intro _ g hleft
  have hfg := precedes_of_skip hleft
  apply bind_congr_ok
  intro b g' hsees
  cases hsees
  split
  · rfl
  · exact bind_congr_left (statements_congr hS (fun ts h hgh => hST.eq_of_reach hfg hgh) _) _

theorem condition_congr :
  condition S f = condition T f
  := by
  apply bind_congr_ok
  intro _ f₁ hword
  have h₁ := precedes_of_skipWord hword
  apply bind_congr_ok
  intro _ f₂ hleft
  have h₂ := h₁.trans (precedes_of_skip hleft)
  apply bind_congr_ok
  intro e f₃ htest
  have h₃ := h₂.trans (reads_expression.precedes htest)
  apply bind_congr_ok
  intro _ f₄ hright
  have h₄ := h₃.trans (precedes_of_skip hright)
  rw [← bind_congr_left (hST f₄ h₄)]
  apply bind_congr_ok
  intro c f₅ hc
  have h₅ := h₄.trans (hS.reads.precedes hc)
  apply bind_congr_ok
  intro b _ hsees
  cases hsees
  split
  · apply bind_congr_ok
    intro _ f₆ helse
    apply bind_congr_left (hST f₆ (h₅.trans (precedes_of_skipWord helse)))
  · rfl

/-- What a nested statement is read as matters only where a token has been taken. -/
theorem anyStatement_congr :
  anyStatement S f = anyStatement T f
  := by
  rw [anyStatement, anyStatement, bind_of_ok (get_eq_ok f), bind_of_ok (get_eq_ok f)]
  generalize f.next? = next?
  split
  · rfl
  · apply block_congr hS hST
  · rfl
  · apply condition_congr hS hST
  · rfl

end

/-- A bound that suffices for the tokens that are left makes no difference. -/
theorem statementWithin_eq {bound : List Char} {f : Front} (h : f.size ≤ bound.length + 1) :
  statementWithin bound f = anyStatement statement f
  := by
  induction hn : f.size using Nat.strongRecOn generalizing bound f with
  | _ n ih =>
    cases bound with
    | nil =>
      have hnone : ReadsStatement (throw .missingOperand) := fun _ _ _ h => nomatch h
      refine anyStatement_congr hnone fun g hg => ?_
      have hlt := hg.size_lt
      rw [statement_of_none (Front.next?_of_size_zero (by rw [List.length_nil] at h; omega))]
      rfl
    | cons c bound =>
      refine anyStatement_congr (readsStatement_statementWithin bound) fun g hg => ?_
      have hlt : g.size < n := hn ▸ hg.size_lt
      rw [ih g.size hlt (by rw [List.length_cons] at h; omega) rfl]
      apply (ih g.size hlt (size_le_behind g) rfl).symm

/-- A statement is read by reading nested statements as statements. -/
theorem statement_eq :
  statement = anyStatement statement
  := funext fun f => statementWithin_eq (size_le_behind f)

end Letter.Parse
