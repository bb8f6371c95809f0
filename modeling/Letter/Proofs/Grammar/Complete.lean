import Letter.Proofs.Grammar.Knot
import Letter.Proofs.Grammar.Strength

/-!
# What is derived as an expression is read as one

If tokens are derived as an expression of a layer, and the token behind them does not go on
with it, then the production of the layer takes them all and gives the expression.

The layers of binary operators, calls and members are read by loops that begin with an
operand of the next tighter layer, whereas their derivations are nested to the left.  What
is proved by induction on the derivation is therefore that the production comes to the rest
of its loop, begun with the derived expression; see `Layer.further`.
-/

namespace Letter

/-! ### What goes on with an expression -/

/-- The binding strength with which a token goes on with the expression before it, if it
does. -/
def Token.joins : Token → Nat
  | operator (.binary o) => o.level.strength
  | operator (.assign _) => assignmentStrength
  | delimiter .leftParen => callStrength
  | delimiter .dot | delimiter .leftBracket => memberStrength
  | _ => 0

/-- The binding strength with which the token in view goes on with an expression. -/
def Front.joins (f : Front) : Nat :=
  match f.next? with
  | none => 0
  | some t => t.joins

theorem Front.joins_of_some {f : Front} {t : Token} (h : f.next? = some t) :
  f.joins = t.joins
  := by rw [joins, h]

namespace Layer

open Parse

/-- The greatest binding strength of a token that is left to the layer by the operand with
which an expression of the layer begins. -/
def leaves : Layer → Nat
  | assignment => 0
  | layer => layer.strength

/-- How the production of a layer goes on after an expression. -/
def further (X : Parse Expr) : Layer → Expr → Parse Expr
  | binary level, e => foldWhile (binaryOp? level) e fun l op => do
      advance
      return .binary op l (← level.tighter.production X)
  | call, e => X.calls e
  | member, e => foldWhile access? e X.access
  | _, e => pure e

theorem strength_lt_tighter (level : Level) :
  (binary level).strength < level.tighter.strength
  := by
  rw [strength_level_tighter]
  apply Nat.lt_succ_self

theorem binaryOp?_of_joins_lt {level : Level} {t : Token} (h : t.joins < level.strength) :
  binaryOp? level t = none
  := by
  cases hop : binaryOp? level t with
  | none => rfl
  | some op =>
    obtain ⟨rfl, rfl⟩ := binaryOp?_eq_some.1 hop
    exact absurd h (Nat.lt_irrefl _)

theorem leftParen?_of_joins_lt {t : Token} (h : t.joins < callStrength) :
  leftParen? t = none
  := by
  unfold leftParen?
  split
  · exact absurd h (Nat.lt_irrefl _)
  · rfl

theorem access?_of_joins_lt {t : Token} (h : t.joins < memberStrength) :
  access? t = none
  := by
  unfold access?
  split
  · exact absurd h (Nat.lt_irrefl _)
  · exact absurd h (Nat.lt_irrefl _)
  · rfl

/-- What selects only tokens that join tightly selects nothing in front of one that joins loosely.
-/
theorem bind_eq_none_of_joins {β : Type} {select : Token → Option β} {f : Front} {n : Nat}
    (hselect : ∀ t : Token, t.joins < n → select t = none) (h : f.joins < n) :
  f.next?.bind select = none
  := by
  rw [Front.joins] at h
  cases hview : f.next? with
  | none => rfl
  | some t =>
    rw [hview] at h
    apply hselect t h

/-- A layer goes on no further before a token of a looser one. -/
theorem further_of_lt {X : Parse Expr} {layer : Layer} {f : Front}
    (h : f.joins < layer.strength) (e : Expr) :
  layer.further X e f = .ok e f
  := by
  cases layer with
  | binary level =>
    apply foldWhile_of_none (bind_eq_none_of_joins (fun _ => binaryOp?_of_joins_lt) h) e
  | call => apply foldWhile_of_none (bind_eq_none_of_joins (fun _ => leftParen?_of_joins_lt) h) e
  | member => apply foldWhile_of_none (bind_eq_none_of_joins (fun _ => access?_of_joins_lt) h) e
  | _ => rfl

end Layer

/-! ### Sequences -/

namespace Parse

variable {α : Type}

theorem separated_one {item : Parse α} {f g : Front} {a : α} (ha : item f = .ok a g)
    (hend : g.next? ≠ some (.delimiter .comma)) :
  separated item f = .ok [a] g
  := by
  have hnone : (g.next?.bind fun t => if t = .delimiter .comma then some () else none)
      = none := by
    rw [Option.bind_eq_none_iff]
    intro t ht
    have hother : t ≠ .delimiter .comma := by
      rintro rfl
      apply hend ht
    apply if_neg hother
  rw [separated, bind_of_ok ha, bind_of_ok (manyWhile_of_none hnone)]
  rfl

theorem separated_cons {item : Parse α} {one : α → Phrase} (hitem : Reads item one)
    {f g h k : Front} {a : α} {as : List α} (ha : item f = .ok a g)
    (hview : g.next? = some (.delimiter .comma)) (hadv : advance g = .ok () h)
    (has : separated item h = .ok as k) :
  separated item f = .ok (a :: as) k
  := by
  obtain ⟨b, h₁, hb, has⟩ := bind_eq_ok.1 has
  obtain ⟨bs, _, hbs, has⟩ := bind_eq_ok.1 has
  cases has
  have hcomma := skip_eq_ok.2 ⟨hview, hadv⟩
  have hround : (skip .comma >>= fun _ => item) g = .ok b h₁ := by rw [bind_of_ok hcomma, hb]
  have hlater := manyWhile_of_some (consumes_item hitem) (b := ()) (by rw [hview]; rfl)
    hround hbs
  rw [separated, bind_of_ok ha, bind_of_ok hlater]
  rfl

end Parse

/-! ### First tokens -/

/-- Whether a token may be the first one of a primary expression. -/
def Token.startsPrimary (t : Token) : Bool :=
  t.kind.isLiteral || t.kind = .identifier || t = .delimiter .leftParen

/-- Whether a token may be the first one of an expression of a layer. -/
def Layer.mayStart : Layer → Token → Bool
  | primary, t | member, t => t.startsPrimary
  | call, t => t.startsPrimary || t = .keyword .superWord
  | _, t => t.startsPrimary || t = .keyword .superWord || (Parse.unaryOp? t).isSome

/-- Whether a token may be the first one of a statement. -/
def Token.startsStatement (t : Token) : Bool :=
  Layer.assignment.mayStart t || t = .delimiter .semicolon || t = .delimiter .leftBrace
    || t = .keyword .letWord || t = .keyword .ifWord

/-- Whether a token may be the first one of a phrase. -/
def Phrase.mayStart : Phrase → Token → Bool
  | program _, t | statements _, t | statement _, t => t.startsStatement
  | declarations _, t | declaration _, t => t.kind = .identifier
  | expression layer _, t => layer.mayStart t
  | arguments _, t => t = .delimiter .leftParen
  | expressions _, t => Layer.assignment.mayStart t

/-- What may start a tighter layer may start a looser one. -/
theorem Layer.mayStart_tighter {level : Level} {t : Token}
    (h : level.tighter.mayStart t = true) :
  (Layer.binary level).mayStart t = true
  := by
  cases level <;> exact h

/-- What is derived begins with a token that may stand there. -/
theorem Derives.exists_cons {ts : List Token} {p : Phrase} (h : Derives ts p) :
  ∃ t us, ts = t :: us ∧ p.mayStart t = true
  := by
  induction h with
  | program _ ih | lastStatement _ ih | lastDeclaration _ ih | lastExpression _ ih
  | noMember _ ih | noAssignment _ ih => exact ih
  | nextStatement _ _ ih | nextDeclaration _ _ ih | assignment _ _ _ ih | binary _ _ _ ih
  | call _ _ ih | nextExpression _ _ ih | member _ ih | index _ _ ih =>
    obtain ⟨t, us, rfl, ht⟩ := ih
    exact ⟨t, _, rfl, ht⟩
  | expressionStatement _ ih =>
    obtain ⟨t, us, rfl, ht⟩ := ih
    exact ⟨t, _, rfl, by simp [Phrase.mayStart, Token.startsStatement] at ht ⊢; simp [ht]⟩
  | noBinary _ ih =>
    obtain ⟨t, us, rfl, ht⟩ := ih
    exact ⟨t, _, rfl, Layer.mayStart_tighter ht⟩
  | noUnary _ ih | noCall _ ih =>
    obtain ⟨t, us, rfl, ht⟩ := ih
    exact ⟨t, _, rfl, by simp [Phrase.mayStart, Layer.mayStart] at ht ⊢; simp [ht]⟩
  | @unary op _ _ _ _ =>
    have hop := Parse.unaryOp?_eq_some.2 (Eq.refl (Token.operator op.operator))
    exact ⟨_, _, rfl, by simp [Phrase.mayStart, Layer.mayStart, hop]⟩
  | _ => exact ⟨_, _, rfl, rfl⟩

/-- No call starts with an operator that stands before its operand. -/
theorem Layer.unaryOp?_of_mayStart_call {t : Token} (h : Layer.call.mayStart t = true) :
  Parse.unaryOp? t = none
  := by
  cases t with
  | operator o => simp [mayStart, Token.startsPrimary, Token.kind, TokenKind.isLiteral] at h
  | _ => rfl

/-- Before what is derived, a token is in view that may stand there. -/
theorem Derives.exists_view {ts : List Token} {p : Phrase} {f g : Front} (h : Derives ts p)
    (hreach : f.Reach ts g) :
  ∃ t, f.next? = some t ∧ p.mayStart t = true
  := by
  obtain ⟨t, us, rfl, ht⟩ := h.exists_cons
  obtain ⟨-, hview, -, -⟩ := hreach.uncons
  exact ⟨t, hview, ht⟩

/-- A phrase that is derived does not start with a token that may not start it. -/
theorem Derives.view_ne {ts : List Token} {p : Phrase} {f g : Front} {t : Token}
    (h : Derives ts p) (hreach : f.Reach ts g) (ht : p.mayStart t = false) :
  f.next? ≠ some t
  := by
  obtain ⟨u, hview, hu⟩ := h.exists_view hreach
  rw [hview]
  rintro ⟨⟩
  rw [ht] at hu
  cases hu

/-! ### Reading along a derivation -/

/-- Tokens between delimiters are taken by skipping the delimiters around them. -/
theorem Front.Reach.enclosed {f g : Front} {left right : Delimiter} {ts : List Token}
    (h : f.Reach (Token.enclosed left right ts) g) :
  ∃ f' g', Parse.skip left f = .ok () f' ∧ f'.Reach ts g'
    ∧ g'.next? = some (.delimiter right) ∧ Parse.skip right g' = .ok () g
  := by
  obtain ⟨f', hview, hadv, hlater⟩ := h.uncons
  obtain ⟨g', hinside, hlast⟩ := hlater.split
  exact ⟨f', g', Parse.skip_eq_ok.2 ⟨hview, hadv⟩, hinside, hlast.last.1,
    Parse.skip_eq_ok.2 hlast.last⟩

namespace Parse

/-- What the production for an expression does with tokens that are derived as it, given
what stands behind them. -/
def Completes (layer : Layer) (e : Expr) (f g : Front) : Prop :=
  g.joins ≤ layer.leaves → layer.production expression f = layer.further expression e g

/-- If the next token joins nothing that the layer leaves, the production comes to the expression.
-/
theorem Completes.done {layer : Layer} {e : Expr} {f g : Front} (h : Completes layer e f g)
    (hle : g.joins ≤ layer.leaves) (hlt : g.joins < layer.strength) :
  layer.production expression f = .ok e g
  := by rw [h hle, Layer.further_of_lt hlt]

/-- An expression is complete where the next token joins nothing. -/
theorem Completes.expression {e : Expr} {f g : Front} (h : Completes .assignment e f g)
    (hg : g.joins = 0) :
  expression f = .ok e g
  := by
  rw [expression_eq]
  apply h.done (Nat.le_of_eq hg) (by rw [hg]; decide)

theorem completes_literal {t : Token} {e : Expr} {f g : Front} (ht : t.kind.isLiteral = true)
    (hview : f.next? = some t) (h : literal t.kind f = .ok e g) :
  Completes .primary e f g
  := by
  intro _
  change primary _ f = .ok e g
  rw [primary_of_some t hview, if_pos ht, h]

/-- A numeral of few enough digits is read as the number that it writes. -/
theorem number_of_short {digits : String} {f g : Front}
    (hview : f.next? = some (.number digits)) (hadv : advance f = .ok () g)
    (hshort : (Token.number digits).Short) :
  number f = .ok (.number (placeValue digits.toList)) g
  := by
  rw [← numeralValue_eq_placeValue]
  have hle : ¬ maxDigits < digits.length := Nat.not_lt_of_le hshort
  refine bind_eq_ok.2 ⟨digits, g, take_eq_ok.2 ⟨_, hview, rfl, hadv⟩, ?_⟩
  rw [if_neg hle]
  rfl

theorem completes_identifier {n : String} {f g : Front}
    (hview : f.next? = some (.identifier n)) (hadv : advance f = .ok () g) :
  Completes .primary (.identifier n) f g
  := by
  intro _
  change primary _ f = .ok _ g
  rw [primary_of_some _ hview]
  apply bind_of_ok (name_eq_ok.2 ⟨hview, hadv⟩)

/-- Parentheses around an expression that is complete make a primary one. -/
theorem completes_parenthesized {e : Expr} {f f' g g' : Front}
    (hleft : skip .leftParen f = .ok () f') (he : Completes .assignment e f' g')
    (hview' : g'.next? = some (.delimiter .rightParen))
    (hright : skip .rightParen g' = .ok () g) :
  Completes .primary e f g
  := by
  intro _
  obtain ⟨hview, -⟩ := skip_eq_ok.1 hleft
  have hinside := he.expression (Front.joins_of_some hview')
  change primary _ f = .ok e g
  rw [primary_of_some _ hview]
  change parenthesized _ f = _
  rw [parenthesized, bind_of_ok hleft, bind_of_ok hinside, bind_of_ok hright]
  rfl

theorem completes_noMember {e : Expr} {f g : Front} (he : Completes .primary e f g) :
  Completes .member e f g
  := by
  intro hg
  have hprimary := he.done (Nat.le_succ_of_le hg) (Nat.lt_succ_of_le hg)
  apply bind_of_ok hprimary

/-- A member may follow an object that is complete. -/
theorem completes_member {o e : Expr} {d : Delimiter} {f g h : Front}
    (ho : Completes .member o f g) (hview : g.next? = some (.delimiter d))
    (hd : access? (.delimiter d) = some d) (haccess : access expression o d g = .ok e h) :
  Completes .member e f h
  := by
  intro _
  have hjoins : g.joins = memberStrength := by
    rw [Front.joins_of_some hview]
    cases d <;> simp_all [access?, Token.joins]
  rw [ho (Nat.le_of_eq hjoins)]
  apply foldWhile_of_some (consumes_access reads_expression) (by rw [hview]; exact hd) haccess

theorem completes_noCall {e : Expr} {f g : Front}
    (hview : f.next? ≠ some (.keyword .superWord)) (he : Completes .member e f g) :
  Completes .call e f g
  := by
  intro hg
  have hmember := he.done (Nat.le_succ_of_le hg) (Nat.lt_succ_of_le hg)
  have hsees : sees [.keyword .superWord] f = .ok false f := by
    rw [sees_keyword, decide_eq_false hview]
  change callMember _ f = _
  rw [callMember, bind_of_ok hsees]
  apply bind_of_ok hmember

theorem completes_call {c : Expr} {es : List Expr} {f g h : Front}
    (hc : Completes .call c f g) (hview : g.next? = some (.delimiter .leftParen))
    (hes : arguments expression g = .ok es h) :
  Completes .call (.call c es) f h
  := by
  intro _
  rw [hc (Nat.le_of_eq (Front.joins_of_some hview))]
  apply foldWhile_of_some (b := ()) (consumes_call reads_expression) (by rw [hview]; rfl)
  apply bind_of_ok hes

theorem completes_superCall {es : List Expr} {f g h : Front}
    (hview : f.next? = some (.keyword .superWord)) (hadv : advance f = .ok () g)
    (hes : arguments expression g = .ok es h) :
  Completes .call (.superCall es) f h
  := by
  intro _
  have hsees : sees [.keyword .superWord] f = .ok true f := by
    rw [sees_keyword, decide_eq_true hview]
  have hsuper : superWord f = .ok () g := skipWord_eq_ok.2 ⟨hview, hadv⟩
  change callMember _ f = _
  rw [callMember, bind_of_ok hsees]
  change (superWord >>= _) f = _
  rw [bind_of_ok hsuper, bind_of_ok hes]
  rfl

theorem completes_noUnary {t : Token} {e : Expr} {f g : Front} (hview : f.next? = some t)
    (ht : unaryOp? t = none) (he : Completes .call e f g) :
  Completes .unary e f g
  := by
  intro hg
  have hcall := he.done (Nat.le_succ_of_le hg) (Nat.lt_succ_of_le hg)
  have hnone : f.next?.bind unaryOp? = none := by rw [hview]; exact ht
  change unary _ f = .ok e g
  rw [unary, bind_of_ok (manyWhile_of_none hnone), bind_of_ok (p := callMember _) hcall]
  rfl

theorem completes_unary {op : UnaryOp} {e : Expr} {f g h : Front}
    (hview : f.next? = some (.operator op.operator)) (hadv : advance f = .ok () g) (he : Completes .unary e g h) :
  Completes .unary (.unary op e) f h
  := by
  intro hh
  obtain ⟨ops, g', hops, hrest⟩ := bind_eq_ok.1 (he hh)
  obtain ⟨e', _, hoperand, hrest⟩ := bind_eq_ok.1 hrest
  cases hrest
  have hround : (advance >>= fun _ => pure op) f = .ok op g := bind_of_ok hadv _
  have hsome : f.next?.bind unaryOp? = some op := by rw [hview]; exact unaryOp?_eq_some.2 rfl
  have hops' := manyWhile_of_some consumes_unary hsome hround hops
  change unary _ f = .ok _ h
  rw [unary, bind_of_ok hops', bind_of_ok hoperand]
  rfl

theorem completes_noBinary {level : Level} {e : Expr} {f g : Front}
    (he : Completes level.tighter e f g) :
  Completes (.binary level) e f g
  := by
  intro hg
  have hlt := Nat.lt_of_le_of_lt hg (Layer.strength_lt_tighter level)
  have hoperand := he.done (by cases level <;> exact Nat.le_of_lt hlt) hlt
  rw [Layer.production_binary]
  apply bind_of_ok hoperand

/-- An operator of a level and a tighter operand may follow what is complete in it. -/
theorem completes_binary {op : BinaryOp} {l r : Expr} {f g g' h : Front}
    (hl : Completes (.binary op.level) l f g)
    (hview : g.next? = some (.operator (.binary op))) (hadv : advance g = .ok () g')
    (hr : Completes op.level.tighter r g' h) :
  Completes (.binary op.level) (.binary op l r) f h
  := by
  intro hh
  have hlt := Nat.lt_of_le_of_lt hh (Layer.strength_lt_tighter op.level)
  have hright := hr.done (by cases op <;> exact Nat.le_of_lt hlt) hlt
  rw [hl (Nat.le_of_eq (Front.joins_of_some hview))]
  refine foldWhile_of_some (b := op) (consumes_chain (reads_layer reads_expression _)) ?_ ?_
  · rw [hview]
    apply binaryOp?_eq_some.2 ⟨rfl, rfl⟩
  · rw [bind_of_ok hadv, bind_of_ok hright]
    rfl

theorem completes_noAssignment {e : Expr} {f g : Front}
    (he : Completes (.binary .disjunction) e f g) :
  Completes .assignment e f g
  := by
  intro hg
  have hlt : g.joins < Level.disjunction.strength := Nat.lt_of_le_of_lt hg (by decide)
  have hdisjunction := he.done (Nat.le_of_lt hlt) hlt
  have hnone : g.next?.bind assignOp? = none := by
    apply Layer.bind_eq_none_of_joins (n := assignmentStrength) _ (Nat.lt_succ_of_le hg)
    intro t ht
    cases hop : assignOp? t with
    | none => rfl
    | some op =>
      rw [assignOp?_eq_some.1 hop] at ht
      exact absurd ht (Nat.lt_irrefl _)
  change assignment _ f = .ok e g
  rw [assignment, bind_of_ok (p := disjunction _) hdisjunction,
    bind_of_ok (peek_eq_ok.2 ⟨hnone, rfl⟩)]
  rfl

/-- A target, an assigning operator and an assignment that is complete make another one. -/
theorem completes_assignment {op : AssignOp} {l r : Expr} {f g g' h : Front}
    (hl : Completes (.binary .disjunction) l f g) (hvalid : l.isTarget = true)
    (hview : g.next? = some (.operator (.assign op))) (hadv : advance g = .ok () g')
    (hr : Completes .assignment r g' h) :
  Completes .assignment (.assign op l r) f h
  := by
  intro hh
  have hjoins : g.joins = assignmentStrength := Front.joins_of_some hview
  have hdisjunction := hl.done (by rw [hjoins]; decide) (by rw [hjoins]; decide)
  have hpeek : peek assignOp? g = .ok (some op) g := peek_eq_ok.2 ⟨by rw [hview]; rfl, rfl⟩
  have hop : assignOp g = .ok op g' := take_eq_ok.2 ⟨_, hview, rfl, hadv⟩
  have hvalue := hr.expression (Nat.le_zero.1 hh)
  change assignment _ f = .ok _ h
  rw [assignment, bind_of_ok (p := disjunction _) hdisjunction, bind_of_ok hpeek]
  change (assignOp >>= _) g = _
  rw [bind_of_ok hop, if_pos hvalid, bind_of_ok hvalue]
  rfl

theorem arguments_of_nil {f g : Front} (h : f.Reach (Token.inParens []) g) :
  arguments expression f = .ok [] g
  := by
  obtain ⟨f', g', hleft, hnil, hview, hright⟩ := h.enclosed
  cases hnil
  have hsees : sees [.delimiter .rightParen] f' = .ok true f' := by
    rw [sees_delimiter, decide_eq_true hview]
  rw [arguments, bind_of_ok hleft, bind_of_ok hsees]
  change (skip .rightParen >>= _) f' = _
  rw [bind_of_ok hright]
  rfl

theorem arguments_of_list {es : List Expr} {f f' g g' : Front}
    (hleft : skip .leftParen f = .ok () f')
    (hview : f'.next? ≠ some (.delimiter .rightParen))
    (hes : argumentList expression f' = .ok es g')
    (hright : skip .rightParen g' = .ok () g) :
  arguments expression f = .ok es g
  := by
  have hsees : sees [.delimiter .rightParen] f' = .ok false f' := by
    rw [sees_delimiter, decide_eq_false hview]
  rw [arguments, bind_of_ok hleft, bind_of_ok hsees]
  change (argumentList expression >>= _) f' = _
  rw [bind_of_ok hes]
  apply bind_of_ok hright

end Parse

end Letter
