import Letter.Grammar.Statement
import Letter.Proofs.Grammar.Derivation
import Letter.Proofs.Grammar.Loop

/-!
# What is read as an expression is derived as one

If a production of the grammar gives an expression, then the tokens that it has taken are
derived as that expression.  The way to read nested expressions is an argument of the
productions, and the same is assumed of it; the bound on the nesting has no part in this,
since beyond it nothing is read.
-/

namespace Letter

/-- From a front to another one, tokens are taken that are derived as the phrase. -/
def Front.Takes (f : Front) (p : Phrase) (g : Front) : Prop :=
  ∃ ts, f.Reach ts g ∧ Derives ts p ∧ ∀ t ∈ ts, t.Short

namespace Parse

variable {α β : Type}

/-- Whatever a reader gives, it has taken tokens that are derived as it. -/
def Reads (p : Parse α) (phrase : α → Phrase) : Prop :=
  ∀ f a g, p f = .ok a g → f.Takes (phrase a) g

/-- Whatever is read, at least one token has been taken. -/
theorem Reads.precedes {p : Parse α} {phrase : α → Phrase} (hp : Reads p phrase) {f g : Front}
    {a : α} (h : p f = .ok a g) :
  f.Precedes g
  := by
  obtain ⟨ts, hreach, hts, -⟩ := hp f a g h
  obtain ⟨t, us, rfl⟩ := List.exists_cons_of_ne_nil hts.ne_nil
  exact ⟨t, us, hreach⟩

/-- Whatever is read, the front is smaller afterwards. -/
theorem Reads.size_lt {p : Parse α} {phrase : α → Phrase} (hp : Reads p phrase) {f g : Front}
    {a : α} (h : p f = .ok a g) :
  g.size < f.size
  := (hp.precedes h).size_lt

theorem reads_throw (e : SyntaxError) (phrase : α → Phrase) :
  Reads (throw e) phrase
  := by
  intro f a g h
  cases h

end Parse

namespace Front.Takes

open Parse

/-- A single token is taken. -/
theorem one {f g : Front} {t : Token} {p : Phrase} (hview : f.next? = some t)
    (hadv : advance f = .ok () g) (hp : Derives [t] p) (ht : t.Short) :
  f.Takes p g
  := ⟨[t], Reach.one hview hadv, hp, by simpa using ht⟩

/-- Another phrase is derived from the same tokens. -/
theorem mono {f g : Front} {p q : Phrase} (h : f.Takes p g)
    (hp : ∀ ts, Derives ts p → Derives ts q) :
  f.Takes q g
  := by
  obtain ⟨ts, hreach, hts, hshort⟩ := h
  exact ⟨ts, hreach, hp ts hts, hshort⟩

/-- A token that is no numeral is taken before a phrase. -/
theorem cons {f g h : Front} {t : Token} {p q : Phrase} (hview : f.next? = some t)
    (hadv : advance f = .ok () g) (ht : t.Short) (hp : g.Takes p h)
    (hq : ∀ ts, Derives ts p → Derives (t :: ts) q) :
  f.Takes q h
  := by
  obtain ⟨ts, hreach, hts, hshort⟩ := hp
  exact ⟨t :: ts, Reach.take hview hadv hreach, hq ts hts, List.forall_mem_cons.2 ⟨ht, hshort⟩⟩

/-- One phrase is taken after another. -/
theorem append {f g h : Front} {p q r : Phrase} (hp : f.Takes p g) (hq : g.Takes q h)
    (hr : ∀ ts us, Derives ts p → Derives us q → Derives (ts ++ us) r) :
  f.Takes r h
  := by
  obtain ⟨ts, hfg, hts, hshort⟩ := hp
  obtain ⟨us, hgh, hus, hshort'⟩ := hq
  exact ⟨ts ++ us, hfg.trans hgh, hr ts us hts hus,
    List.forall_mem_append.2 ⟨hshort, hshort'⟩⟩

/-- Two phrases are taken with a token between them. -/
theorem between {f g g' h : Front} {t : Token} {p q r : Phrase} (hp : f.Takes p g)
    (hview : g.next? = some t) (hadv : advance g = .ok () g') (ht : t.Short)
    (hq : g'.Takes q h)
    (hr : ∀ ts us, Derives ts p → Derives us q → Derives (ts ++ t :: us) r) :
  f.Takes r h
  := by
  obtain ⟨ts, hfg, hts, hshort⟩ := hp
  obtain ⟨us, hgh, hus, hshort'⟩ := hq
  refine ⟨ts ++ t :: us, hfg.trans (Reach.take hview hadv hgh), hr ts us hts hus, ?_⟩
  apply List.forall_mem_append.2 ⟨hshort, List.forall_mem_cons.2 ⟨ht, hshort'⟩⟩

/-- A phrase is taken between two delimiters. -/
theorem enclosed {f g g' h : Front} {left right : Delimiter} {p q : Phrase}
    (hleft : skip left f = .ok () g) (hp : g.Takes p g') (hright : skip right g' = .ok () h)
    (hq : ∀ ts, Derives ts p → Derives (Token.enclosed left right ts) q) :
  f.Takes q h
  := by
  obtain ⟨hview, hadv⟩ := skip_eq_ok.1 hleft
  obtain ⟨hview', hadv'⟩ := skip_eq_ok.1 hright
  obtain ⟨ts, hreach, hts, hshort⟩ := hp
  exact ⟨_, Reach.take hview hadv (hreach.trans (Reach.one hview' hadv')), hq ts hts,
    Token.forall_short_enclosed.2 hshort⟩

/-- Two delimiters are taken with nothing between them. -/
theorem enclosed_nil {f g h : Front} {left right : Delimiter} {p : Phrase}
    (hleft : skip left f = .ok () g) (hright : skip right g = .ok () h)
    (hp : Derives (Token.enclosed left right []) p) :
  f.Takes p h
  := by
  obtain ⟨hview, hadv⟩ := skip_eq_ok.1 hleft
  obtain ⟨hview', hadv'⟩ := skip_eq_ok.1 hright
  refine ⟨_, Reach.take hview hadv (Reach.one hview' hadv'), hp, ?_⟩
  simp [Token.Short]

end Front.Takes

/-- The production of a layer, given the way to read nested expressions. -/
def Layer.production (X : Parse Expr) : Layer → Parse Expr
  | assignment => X.assignment
  | binary .disjunction => X.disjunction
  | binary .conjunction => X.conjunction
  | binary .equality => X.equality
  | binary .relation => X.relation
  | binary .sum => X.sum
  | binary .product => X.product
  | unary => X.unary
  | call => X.callMember
  | member => X.member
  | primary => X.primary

/-- The production of a level is a chain of what the next tighter layer reads. -/
theorem Layer.production_binary (X : Parse Expr) (level : Level) :
  (binary level).production X = Parse.chain level (level.tighter.production X)
  := by cases level <;> rfl

namespace Parse

/-! ### Literals and names -/

/-- The words of constant values are derived as these. -/
theorem takes_of_word {k : Keyword} {f g : Front} {e : Expr}
    (hk : Derives [.keyword k] (.expression .primary e)) (h : skipWord k f = .ok () g) :
  f.Takes (.expression .primary e) g
  := by
  obtain ⟨hview, hadv⟩ := skipWord_eq_ok.1 h
  exact .one hview hadv hk trivial

/-- Numerals are read as the numbers that they write. -/
theorem reads_number :
  Reads number (.expression .primary)
  := by
  intro f e h hp
  rw [number, bind_eq_ok] at hp
  obtain ⟨digits, g, htake, hp⟩ := hp
  obtain ⟨t, hview, hsel, hadv⟩ := take_eq_ok.1 htake
  split at hsel
  · next d =>
    obtain rfl := Option.some.inj hsel
    split at hp
    · cases hp
    · next hshort =>
      cases hp
      rw [numeralValue_eq_placeValue]
      exact .one hview hadv .number (Nat.le_of_not_lt hshort)
  · cases hsel

theorem reads_string :
  Reads string (.expression .primary)
  := by
  intro f e g hp
  obtain ⟨t, hview, hsel, hadv⟩ := take_eq_ok.1 hp
  split at hsel
  · obtain rfl := Option.some.inj hsel
    exact .one hview hadv .string trivial
  · cases hsel

theorem reads_literal (kind : TokenKind) :
  Reads (literal kind) (.expression .primary)
  := by
  intro f e h hp
  unfold literal at hp
  split at hp
  · apply reads_number f e h hp
  · apply reads_string f e h hp
  · rw [boolean, bind_eq_ok] at hp
    obtain ⟨_, g, hword, hp⟩ := hp
    cases hp
    apply takes_of_word .trueWord hword
  · rw [boolean, bind_eq_ok] at hp
    obtain ⟨_, g, hword, hp⟩ := hp
    cases hp
    apply takes_of_word .falseWord hword
  · rw [null, bind_eq_ok] at hp
    obtain ⟨_, g, hword, hp⟩ := hp
    cases hp
    apply takes_of_word .nullWord hword
  · cases hp

theorem name_eq_ok {f g : Front} {n : String} :
  name f = .ok n g ↔ f.next? = some (.identifier n) ∧ advance f = .ok () g
  := by
  rw [name, take_eq_ok]
  constructor
  · rintro ⟨t, hview, hsel, hadv⟩
    unfold name? at hsel
    split at hsel
    · obtain rfl := Option.some.inj hsel
      exact ⟨hview, hadv⟩
    · cases hsel
  · rintro ⟨hview, hadv⟩
    exact ⟨_, hview, rfl, hadv⟩

theorem reads_identifier :
  Reads identifier (.expression .primary)
  := by
  intro f e h hp
  rw [identifier, bind_eq_ok] at hp
  obtain ⟨n, g, hname, hp⟩ := hp
  cases hp
  obtain ⟨hview, hadv⟩ := name_eq_ok.1 hname
  exact .one hview hadv .identifier trivial

/-! ### Operators in a token -/

theorem unaryOp?_eq_some {t : Token} {op : UnaryOp} :
  unaryOp? t = some op ↔ t = .operator op.operator
  := by
  cases t with
  | operator o =>
    rw [unaryOp?, Operator.unary?_eq_some_iff, Token.operator.injEq]
    exact eq_comm
  | _ => simp [unaryOp?]

/-- Only the operators of a level are selected as such. -/
theorem binaryOp?_eq_some {level : Level} {t : Token} {op : BinaryOp} :
  binaryOp? level t = some op ↔ t = .operator (.binary op) ∧ op.level = level
  := by
  unfold binaryOp?
  split
  · simp only [Option.ite_none_right_eq_some, Option.some.injEq, Token.operator.injEq,
      Operator.binary.injEq]
    constructor
    · rintro ⟨hlevel, rfl⟩
      exact ⟨rfl, hlevel⟩
    · rintro ⟨rfl, hlevel⟩
      exact ⟨hlevel, rfl⟩
  · next h =>
    simp only [reduceCtorEq, false_iff]
    rintro ⟨rfl, -⟩
    apply h op rfl

theorem assignOp?_eq_some {t : Token} {op : AssignOp} :
  assignOp? t = some op ↔ t = .operator (.assign op)
  := by
  unfold assignOp?
  split
  · simp
  · next h =>
    simp only [reduceCtorEq, false_iff]
    apply h op

/-! ### Sequences -/

/-- The comma between two items, in a token. -/
theorem comma_of_bind {f : Front} {u : Unit}
    (h : (f.next?.bind fun t => if t = .delimiter .comma then some () else none) = some u) :
  f.next? = some (.delimiter .comma)
  := by
  obtain ⟨t, hview, ht⟩ := Option.bind_eq_some_iff.1 h
  split at ht
  · next hcomma => rw [hview, hcomma]
  · cases ht

/-- Items separated by commas are read if the items are. -/
theorem reads_separated {item : Parse α} {one : α → Phrase} {many : List α → Phrase}
    (hitem : Reads item one)
    (hlast : ∀ ts a, Derives ts (one a) → Derives ts (many [a]))
    (hnext : ∀ ts us a as, Derives ts (one a) → Derives us (many as) →
      Derives (ts ++ .delimiter .comma :: us) (many (a :: as))) :
  Reads (separated item) many
  := by
  intro f as h hp
  rw [separated, bind_eq_ok] at hp
  obtain ⟨a, g, hfirst, hp⟩ := hp
  obtain ⟨as, _, hlater, hp⟩ := bind_eq_ok.1 hp
  cases hp
  have hlist : (as = [] ∧ g = h) ∨ ∃ g', g.next? = some (.delimiter .comma)
      ∧ advance g = .ok () g' ∧ g'.Takes (many as) h := by
    apply manyWithin_induct (I := fun g as h => (as = [] ∧ g = h)
      ∨ ∃ g', g.next? = some (.delimiter .comma)
        ∧ advance g = .ok () g' ∧ g'.Takes (many as) h) _ _ hlater
    · exact fun _ => .inl ⟨rfl, rfl⟩
    · intro f₁ _ a₁ f₂ as₁ h₁ hview hround hrest
      obtain ⟨_, f₃, hcomma, ha⟩ := bind_eq_ok.1 hround
      obtain ⟨-, hadv⟩ := skip_eq_ok.1 hcomma
      refine .inr ⟨f₃, comma_of_bind hview, hadv, ?_⟩
      obtain ⟨rfl, rfl⟩ | ⟨f₄, hview', hadv', hrest⟩ := hrest
      · apply (hitem _ _ _ ha).mono fun ts => hlast ts a₁
      · exact .between (hitem _ _ _ ha) hview' hadv' trivial hrest fun ts us => hnext ts us a₁ as₁
  obtain ⟨rfl, rfl⟩ | ⟨g', hview, hadv, hrest⟩ := hlist
  · apply (hitem _ _ _ hfirst).mono fun ts => hlast ts a
  · exact .between (hitem _ _ _ hfirst) hview hadv trivial hrest fun ts us => hnext ts us a as

/-! ### Operands -/

theorem get_eq_ok (f : Front) :
  (get : Parse Front) f = .ok f f
  := rfl

theorem primary_of_none {X : Parse Expr} {f : Front} (h : f.next? = none) :
  primary X f = .error .missingOperand f
  := by
  rw [primary, bind_of_ok (get_eq_ok f), h]
  rfl

/-- Which operand is read is decided by the token in view. -/
theorem primary_of_some {X : Parse Expr} {f : Front} (t : Token) :
  f.next? = some t →
    primary X f = (if t.kind.isLiteral then literal t.kind
      else match t with
        | .delimiter .leftParen => parenthesized X
        | .identifier _ => identifier
        | _ => throw (.unexpectedOperand t)) f
  := by
  intro h
  rw [primary, bind_of_ok (get_eq_ok f)]
  generalize f.next? = view at h ⊢
  subst h
  rfl

/-- Operators of one level group to the left. -/
theorem reads_chain {level : Level} {operand : Parse Expr}
    (hoperand : Reads operand (.expression level.tighter)) :
  Reads (chain level operand) (.expression (.binary level))
  := by
  intro f e h hp
  rw [chain, bind_eq_ok] at hp
  obtain ⟨e₀, g, hfirst, hp⟩ := hp
  have hstart := (hoperand _ _ _ hfirst).mono fun _ => .noBinary
  refine foldWithin_induct (I := fun e g => f.Takes (.expression (.binary level) e) g)
    ?_ hstart hp
  intro e₁ op g₁ e₂ g₂ hleft hview hround
  obtain ⟨_, g₃, hadv, hround⟩ := bind_eq_ok.1 hround
  obtain ⟨r, _, hright, hround⟩ := bind_eq_ok.1 hround
  cases hround
  obtain ⟨t, ht, hop⟩ := Option.bind_eq_some_iff.1 hview
  obtain ⟨rfl, rfl⟩ := binaryOp?_eq_some.1 hop
  apply hleft.between ht hadv trivial (hoperand _ _ _ hright) fun _ _ hl =>
    .binary hl op.mem_operators_level

/-! ### Productions, given what reading nested expressions does -/

section

variable {X : Parse Expr} (hX : Reads X (.expression .assignment))

include hX

theorem reads_parenthesized :
  Reads (parenthesized X) (.expression .primary)
  := by
  intro f e h hp
  rw [parenthesized, bind_eq_ok] at hp
  obtain ⟨_, g, hleft, hp⟩ := hp
  obtain ⟨e', g', hinside, hp⟩ := bind_eq_ok.1 hp
  obtain ⟨_, _, hright, hp⟩ := bind_eq_ok.1 hp
  cases hp
  exact .enclosed hleft (hX _ _ _ hinside) hright fun _ => .parenthesized

theorem reads_primary :
  Reads (primary X) (.expression .primary)
  := by
  intro f e h hp
  cases hview : f.next? with
  | none =>
    rw [primary_of_none hview] at hp
    cases hp
  | some t =>
    rw [primary_of_some t hview] at hp
    split at hp
    · apply reads_literal _ f e h hp
    · split at hp
      · apply reads_parenthesized hX f e h hp
      · apply reads_identifier f e h hp
      · cases hp

/-- An object and an access to it are read as a member. -/
theorem reads_access {object : Expr} {d : Delimiter} {f₀ f g : Front} {e : Expr}
    (hobject : f₀.Takes (.expression .member object) f) (h : access X object d f = .ok e g) :
  f₀.Takes (.expression .member e) g
  := by
  unfold access at h
  split at h
  · obtain ⟨_, g₁, hdot, h⟩ := bind_eq_ok.1 h
    obtain ⟨n, g₂, hname, h⟩ := bind_eq_ok.1 h
    cases h
    obtain ⟨hdot, hadv⟩ := skip_eq_ok.1 hdot
    obtain ⟨hname, hadv'⟩ := name_eq_ok.1 hname
    obtain ⟨ts, hreach, hts, hshort⟩ := hobject
    refine ⟨_, hreach.trans (.take hdot hadv (.one hname hadv')), .member hts, ?_⟩
    simpa [Token.Short, or_imp, forall_and] using hshort
  · obtain ⟨_, g₁, hleft, h⟩ := bind_eq_ok.1 h
    obtain ⟨p, g₂, hinside, h⟩ := bind_eq_ok.1 h
    obtain ⟨_, _, hright, h⟩ := bind_eq_ok.1 h
    cases h
    obtain ⟨hleft, hadv⟩ := skip_eq_ok.1 hleft
    obtain ⟨hright, hadv'⟩ := skip_eq_ok.1 hright
    obtain ⟨ts, hreach, hts, hshort⟩ := hobject
    obtain ⟨us, hreach', hus, hshort'⟩ := hX _ _ _ hinside
    exact ⟨_, hreach.trans (.take hleft hadv (hreach'.trans (.one hright hadv'))),
      .index hts hus, List.forall_mem_append.2 ⟨hshort, Token.forall_short_enclosed.2 hshort'⟩⟩

theorem reads_member :
  Reads (member X) (.expression .member)
  := by
  intro f e h hp
  rw [member, bind_eq_ok] at hp
  obtain ⟨e₀, g, hprimary, hp⟩ := hp
  have hstart := (reads_primary hX _ _ _ hprimary).mono fun _ => .noMember
  -- the invariant of the loop: what has been read so far is a member expression
  apply foldWithin_induct (I := fun e g => f.Takes (.expression .member e) g)
    (fun _ _ _ _ _ hobject _ hround => reads_access hX hobject hround) hstart hp

theorem reads_argumentList :
  Reads (argumentList X) .expressions
  := reads_separated hX (fun _ _ => .lastExpression) (fun _ _ _ _ => .nextExpression)

/-- Arguments are read up to the parenthesis that closes them. -/
theorem reads_arguments :
  Reads (arguments X) .arguments
  := by
  intro f es h hp
  rw [arguments, bind_eq_ok] at hp
  obtain ⟨_, g, hleft, hp⟩ := hp
  obtain ⟨b, _, hsees, hp⟩ := bind_eq_ok.1 hp
  cases hsees
  split at hp
  · obtain ⟨_, _, hnil, hp⟩ := bind_eq_ok.1 hp
    cases hnil
    obtain ⟨_, _, hright, hp⟩ := bind_eq_ok.1 hp
    cases hp
    exact .enclosed_nil hleft hright .noArguments
  · obtain ⟨list, g', hlist, hp⟩ := bind_eq_ok.1 hp
    obtain ⟨_, _, hright, hp⟩ := bind_eq_ok.1 hp
    cases hp
    exact .enclosed hleft (reads_argumentList hX _ _ _ hlist) hright fun _ => .someArguments

/-- A callee and further arguments are taken as calls, one inside the other. -/
theorem takes_calls {callee e : Expr} {f₀ f g : Front}
    (hcallee : f₀.Takes (.expression .call callee) f) (h : calls X callee f = .ok e g) :
  f₀.Takes (.expression .call e) g
  := by
  refine foldWithin_induct (I := fun e g => f₀.Takes (.expression .call e) g) ?_ hcallee h
  intro e₁ _ g₁ e₂ g₂ hcallee _ hround
  obtain ⟨es, g₃, harguments, hround⟩ := bind_eq_ok.1 hround
  cases hround
  apply hcallee.append (reads_arguments hX _ _ _ harguments) fun _ _ => .call

theorem reads_callMember :
  Reads (callMember X) (.expression .call)
  := by
  intro f e h hp
  rw [callMember, bind_eq_ok] at hp
  obtain ⟨b, _, hsees, hp⟩ := hp
  cases hsees
  split at hp
  · obtain ⟨_, g, hsuper, hp⟩ := bind_eq_ok.1 hp
    obtain ⟨es, g', harguments, hp⟩ := bind_eq_ok.1 hp
    obtain ⟨hview, hadv⟩ := skipWord_eq_ok.1 hsuper
    refine takes_calls hX (.cons hview hadv trivial (reads_arguments hX _ _ _ harguments) ?_) hp
    exact fun _ => .superCall
  · obtain ⟨e', g, hmember, hp⟩ := bind_eq_ok.1 hp
    apply takes_calls hX ((reads_member hX _ _ _ hmember).mono fun _ => .noCall) hp

/-- Operators before an operand are read one after another, and applied in the opposite
order. -/
theorem reads_unary :
  Reads (unary X) (.expression .unary)
  := by
  intro f e h hp
  rw [unary, bind_eq_ok] at hp
  obtain ⟨ops, g, hops, hp⟩ := hp
  obtain ⟨e', _, hoperand, hp⟩ := bind_eq_ok.1 hp
  cases hp
  have hprefix : ∀ e h, g.Takes (.expression .unary e) h →
      f.Takes (.expression .unary (ops.foldr .unary e)) h := by
    refine manyWithin_induct (I := fun f ops g => ∀ e h, g.Takes (.expression .unary e) h →
      f.Takes (.expression .unary (ops.foldr .unary e)) h) (fun _ _ _ he => he) ?_ hops
    intro f₁ op₁ op₂ f₂ ops₁ g₁ hview hround hlater e₁ h₁ he
    obtain ⟨_, _, hadv, hround⟩ := bind_eq_ok.1 hround
    cases hround
    obtain ⟨t, hview, hop⟩ := Option.bind_eq_some_iff.1 hview
    obtain rfl := unaryOp?_eq_some.1 hop
    exact .cons hview hadv trivial (hlater e₁ h₁ he) fun _ => .unary
  apply hprefix
  apply (reads_callMember hX _ _ _ hoperand).mono fun _ => .noUnary

/-- Each layer is read by its production. -/
theorem reads_layer (layer : Layer) :
  Reads (layer.production X) (.expression layer)
  := by
  have hbinary := Layer.binary_of_tighter (P := fun layer =>
    Reads (layer.production X) (.expression layer)) (reads_unary hX) fun level hoperand => by
      rw [Layer.production_binary]
      apply reads_chain hoperand
  cases layer with
  | assignment =>
    intro f e h hp
    obtain ⟨l, g, hleft, hp⟩ := bind_eq_ok.1 hp
    obtain ⟨o, _, hpeek, hp⟩ := bind_eq_ok.1 hp
    obtain ⟨-, rfl⟩ := peek_eq_ok.1 hpeek
    have hl := hbinary .disjunction _ _ _ hleft
    cases o with
    | none =>
      cases hp
      apply hl.mono fun _ => .noAssignment
    | some _ =>
      obtain ⟨op, g₁, hop, hp⟩ := bind_eq_ok.1 hp
      split at hp
      · next hvalid =>
        obtain ⟨r, _, hright, hp⟩ := bind_eq_ok.1 hp
        cases hp
        obtain ⟨t, hview, hop, hadv⟩ := take_eq_ok.1 hop
        obtain rfl := assignOp?_eq_some.1 hop
        apply hl.between hview hadv trivial (hX _ _ _ hright) fun _ _ hl =>
          .assignment hl (isTarget_iff.2 hvalid)
      · cases hp
  | binary level => apply hbinary
  | unary => apply reads_unary hX
  | call => apply reads_callMember hX
  | member => apply reads_member hX
  | primary => apply reads_primary hX

end

/-! ### Expressions -/

theorem reads_expressionWithin (bound : List Char) :
  Reads (expressionWithin bound) (.expression .assignment)
  := by
  induction bound with
  | nil => apply reads_layer (reads_throw _ _) .assignment
  | cons c bound ih => apply reads_layer ih .assignment

/-- Expressions are read as they are derived. -/
theorem reads_expression :
  Reads expression (.expression .assignment)
  := fun f => reads_expressionWithin f.behind f

end Parse

end Letter
