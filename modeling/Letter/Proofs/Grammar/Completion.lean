import Letter.Proofs.Grammar.Viable

/-!
# Productions and what completes them

Every production of the grammar keeps to the phrases that it reads: where it ends with an
error, the tokens that it has taken are the beginning of such a phrase.  The way to read
nested phrases is an argument of the productions, as in the grammar, and the same is assumed
of it on smaller fronts.

Main statements: `keepsTo_expression`, `keepsTo_statement`, `keepsTo_program`.
-/

namespace Letter.Parse

open Token

/-! ### Literals and names -/

/-- A numeral keeps to a language that can begin here, for one that is too long is refused where it
stands. -/
theorem keepsTo_number {L : List Token → Prop} (hL : Begins L []) (f : Front) :
  KeepsTo number L f
  := by
  intro e h herror
  obtain htake | ⟨digits, g, htake, herror⟩ := bind_eq_error.1 herror
  · apply KeepsTo.take hL e h htake
  · obtain ⟨t, hview, hsel, hadv⟩ := take_eq_ok.1 htake
    split at hsel
    · obtain rfl := Option.some.inj hsel
      split at herror
      · next hlong =>
        cases herror
        exact ⟨[], f, .refl f, .refused hview ⟨_, rfl, rfl, hlong⟩ hadv, hL⟩
      · cases herror
    · cases hsel

theorem keepsTo_literal {kind : TokenKind} (hkind : kind.isLiteral = true)
    {L : List Token → Prop} (hL : Begins L []) (f : Front) :
  KeepsTo (literal kind) L f
  := by
  unfold literal
  split
  · apply keepsTo_number hL f
  · apply KeepsTo.take hL
  · exact .bind_skipWord hL fun _ _ => .pure _
  · exact .bind_skipWord hL fun _ _ => .pure _
  · exact .bind_skipWord hL fun _ _ => .pure _
  · simp_all [TokenKind.isLiteral]

/-! ### Productions, given the way to read nested expressions -/

section

variable {X : Parse Expr} (hX : Reads X (.expression .assignment)) {n : Nat}
  (hkeeps : ∀ g, g.size < n → KeepsTo X (Forms (.expression .assignment)) g) {f : Front}
  (h : f.size ≤ n)

include hX hkeeps h

theorem keepsTo_parenthesized :
  KeepsTo (parenthesized X) (Forms (.expression .primary)) f
  := by
  apply KeepsTo.bind_skip (.expression .primary)
  intro g hleft
  have := size_lt_of_skip hleft
  refine .bind_reads hX (hkeeps g (by omega)) ?_ fun e g' ts _ _ hclose => ?_
  · rintro ts ⟨e, hts⟩
    exact .one (t := .delimiter .rightParen) ⟨trivial, trivial⟩ ⟨e, .parenthesized hts⟩
  · exact .bind_skip hclose fun _ _ => .pure e

theorem keepsTo_primary :
  KeepsTo (primary X) (Forms (.expression .primary)) f
  := by
  have hstart := Begins.expression .primary
  cases hview : f.next? with
  | none =>
    apply (KeepsTo.told (e := .missingOperand) hview hstart).congr
    apply primary_of_none hview
  | some t =>
    apply KeepsTo.congr _ (primary_of_some t hview)
    split
    · next hliteral => apply keepsTo_literal hliteral hstart
    · split
      · apply keepsTo_parenthesized hX hkeeps h
      · exact .bind_name hstart fun _ _ _ => .pure _
      · apply KeepsTo.told (e := .unexpectedOperand t) hview hstart

omit hkeeps h in
/-- What follows an object makes a member expression longer. -/
theorem extends_of_access {object e : Expr} {d : Delimiter} {g : Front}
    (haccess : access X object d f = .ok e g) :
  ∃ ts, f.Reach ts g ∧ Extends (.expression .member) ts
  := by
  unfold access at haccess
  split at haccess
  · obtain ⟨_, g₁, hdot, haccess⟩ := bind_eq_ok.1 haccess
    obtain ⟨n, g₂, hname, haccess⟩ := bind_eq_ok.1 haccess
    cases haccess
    obtain ⟨hdot, hadv⟩ := skip_eq_ok.1 hdot
    obtain ⟨hname, hadv'⟩ := name_eq_ok.1 hname
    refine ⟨_, .take hdot hadv (.one hname hadv'), ?_⟩
    rintro ts ⟨o, hts⟩
    exact ⟨_, .member hts⟩
  · obtain ⟨_, g₁, hleft, haccess⟩ := bind_eq_ok.1 haccess
    obtain ⟨p, g₂, hinside, haccess⟩ := bind_eq_ok.1 haccess
    obtain ⟨_, _, hright, haccess⟩ := bind_eq_ok.1 haccess
    cases haccess
    obtain ⟨hleft, hadv⟩ := skip_eq_ok.1 hleft
    obtain ⟨hright, hadv'⟩ := skip_eq_ok.1 hright
    obtain ⟨us, hreach, hus, -⟩ := hX _ _ _ hinside
    refine ⟨_, .take hleft hadv (hreach.trans (.one hright hadv')), ?_⟩
    rintro ts ⟨o, hts⟩
    exact ⟨_, .index hts hus⟩

theorem keepsTo_access (object : Expr) (d : Delimiter) :
  KeepsTo (access X object d) (Extends (.expression .member)) f
  := by
  have hnil : Begins (Extends (.expression .member)) [] := .self (.nil _)
  unfold access
  split
  · refine .bind_skip hnil fun g _ => .bind_name ?_ fun _ _ _ => .pure _
    refine .one (t := .identifier "x") ⟨isName_x, trivial⟩ ?_
    rintro ts ⟨o, hts⟩
    exact ⟨_, .member hts⟩
  · apply KeepsTo.bind_skip hnil
    intro g hleft
    have := size_lt_of_skip hleft
    refine .bind_reads hX (hkeeps g (by omega)) ?_ fun p g' ts _ _ hclose => ?_
    · rintro us ⟨p, hus⟩
      refine .one (t := .delimiter .rightBracket) ⟨trivial, trivial⟩ ?_
      rintro ts ⟨o, hts⟩
      exact ⟨_, .index hts hus⟩
    · exact .bind_skip hclose fun _ _ => .pure _

theorem keepsTo_member :
  KeepsTo (member X) (Forms (.expression .member)) f
  := by
  refine .bind_reads (reads_primary hX) (keepsTo_primary hX hkeeps h) ?_ fun e g ts he hts _ => ?_
  · rintro ts ⟨e, hts⟩
    exact .self ⟨e, .noMember hts⟩
  · have := (reads_primary hX).size_lt he
    refine .foldWhile_extends (n := n) ?_ ?_ (.noMember hts) (by omega)
    · exact fun e d g hg _ => keepsTo_access hX hkeeps hg e d
    · exact fun e d g e' g' _ haccess => extends_of_access hX haccess

theorem keepsTo_arguments :
  KeepsTo (arguments X) (Forms .arguments) f
  := by
  have hstart : Begins (Forms .arguments) [] :=
    ⟨inParens [], by simp [inParens, enclosed, Valid, Short], [], .noArguments⟩
  apply KeepsTo.bind_skip hstart
  intro g hleft
  have := size_lt_of_skip hleft
  have hnone : Begins (fun us => Forms .arguments (.delimiter .leftParen :: us)) [] :=
    .one (t := .delimiter .rightParen) ⟨trivial, trivial⟩ ⟨[], .noArguments⟩
  have hreads : Reads (argumentList X) .expressions :=
    reads_separated hX (fun _ _ => .lastExpression) (fun _ _ _ _ => .nextExpression)
  have hlist : KeepsTo (argumentList X) (Forms .expressions) g :=
    .separated hX (fun _ _ => .lastExpression) (fun _ _ _ _ => .nextExpression)
      (fun g' hg' => hkeeps g' (by omega)) (Nat.le_refl g.size)
  apply KeepsTo.sees
  split
  · exact .bind_skip hnone fun _ _ => .pure _
  · refine .bind_reads hreads hlist ?_ fun es g' ts _ _ hclose => ?_
    · rintro ts ⟨es, hts⟩
      exact .one (t := .delimiter .rightParen) ⟨trivial, trivial⟩ ⟨es, .someArguments hts⟩
    · exact .bind_skip hclose fun _ _ => .pure _

/-- Up to an error, further calls take what continues the tokens of the callee. -/
theorem keepsTo_calls {callee : Expr} {ts : List Token}
    (hcallee : Derives ts (.expression .call callee)) :
  KeepsTo (calls X callee) (fun us => Forms (.expression .call) (ts ++ us)) f
  := by
  refine .foldWhile_extends (n := n) ?_ ?_ hcallee h
  · intro callee _ g hg _
    refine .bind_reads (reads_arguments hX) (keepsTo_arguments hX hkeeps hg) ?_
      fun _ _ _ _ _ _ => .pure _
    rintro us ⟨es, hus⟩
    apply Begins.self
    rintro ts ⟨c, hts⟩
    exact ⟨_, .call hts hus⟩
  · intro callee _ g e g' _ hround
    obtain ⟨es, _, harguments, hround⟩ := bind_eq_ok.1 hround
    cases hround
    obtain ⟨us, hreach, hus, -⟩ := reads_arguments hX _ _ _ harguments
    refine ⟨us, hreach, ?_⟩
    rintro ts ⟨c, hts⟩
    exact ⟨_, .call hts hus⟩

theorem keepsTo_callMember :
  KeepsTo (callMember X) (Forms (.expression .call)) f
  := by
  apply KeepsTo.sees
  split
  · apply KeepsTo.bind_skipWord (.expression .call)
    intro g hsuper
    have := size_lt_of_skipWord hsuper
    refine .bind_reads (reads_arguments hX) (keepsTo_arguments hX hkeeps (by omega)) ?_
      fun es g' us hes hus _ => ?_
    · rintro us ⟨es, hus⟩
      exact .self ⟨_, .superCall hus⟩
    · have := (reads_arguments hX).size_lt hes
      apply keepsTo_calls hX hkeeps (by omega) (.superCall hus)
  · refine .bind_reads (reads_member hX) (keepsTo_member hX hkeeps h) ?_
      fun e g ts he hts _ => ?_
    · rintro ts ⟨e, hts⟩
      exact .self ⟨e, .noCall hts⟩
    · have := (reads_member hX).size_lt he
      apply keepsTo_calls hX hkeeps (by omega) (.noCall hts)

omit hX hkeeps h in
/-- An operator before an operand can stand before whatever is derived in its layer. -/
theorem reach_of_unaryOp {op op' : UnaryOp} {g : Front}
    (hview : f.next?.bind unaryOp? = some op)
    (hround : (do advance; return op : Parse UnaryOp) f = .ok op' g) :
  ∃ ts, f.Reach ts g ∧ ∀ us, Forms (.expression .unary) us → Forms (.expression .unary) (ts ++ us)
  := by
  obtain ⟨t, ht, hop⟩ := Option.bind_eq_some_iff.1 hview
  obtain rfl := unaryOp?_eq_some.1 hop
  obtain ⟨_, _, hadv, hround⟩ := bind_eq_ok.1 hround
  cases hround
  refine ⟨[.operator op.operator], .one ht hadv, ?_⟩
  rintro us ⟨e, hus⟩
  exact ⟨_, .unary hus⟩

theorem keepsTo_unary :
  KeepsTo (unary X) (Forms (.expression .unary)) f
  := by
  have hops : KeepsTo (manyWhile unaryOp? fun op => do advance; return op)
      (Forms (.expression .unary)) f := by
    refine .manyWhile (n := n) ?_ (fun _ _ _ _ => reach_of_unaryOp) h
    intro op g _ hview
    obtain ⟨t, ht, -⟩ := Option.bind_eq_some_iff.1 hview
    exact .bind_advance ht (.expression .unary) fun _ _ => .pure op
  apply hops.bind
  intro ops g hg
  obtain ⟨ts, hreach, hts⟩ := KeepsTo.reach_of_manyWhile (fun _ _ _ _ => reach_of_unaryOp) hg
  have := hreach.size_le
  refine ⟨ts, hreach, .return_bind (.mono (keepsTo_callMember hX hkeeps (by omega)) ?_) _⟩
  rintro us ⟨e, hus⟩
  exact .self (hts us ⟨e, .noUnary hus⟩)

/-- An assignment keeps to assignments if what stands on its left keeps to disjunctions. -/
theorem keepsTo_assignment
    (hleft : KeepsTo (disjunction X) (Forms (.expression (.binary .disjunction))) f) :
  KeepsTo (assignment X) (Forms (.expression .assignment)) f
  := by
  refine .bind_reads (reads_layer hX (.binary .disjunction)) hleft ?_
    fun l g ts hl hts hwhole => ?_
  · rintro ts ⟨e, hts⟩
    exact .self ⟨e, .noAssignment hts⟩
  · have := (reads_layer hX (.binary .disjunction)).size_lt hl
    apply KeepsTo.peek
    split
    · exact .pure l
    · by_cases hvalid : l.isTarget = true
      · refine .bind_take hwhole fun op t g' ht hop hadv => ?_
        obtain rfl := assignOp?_eq_some.1 hop
        have := Front.size_advance ht hadv
        rw [if_pos hvalid]
        refine .bind_reads hX (hkeeps g' (by omega)) ?_ fun _ _ _ _ _ _ => .pure _
        rintro us ⟨r, hus⟩
        exact .self ⟨_, .assignment hts (isTarget_iff.2 hvalid) hus⟩
      · -- the operator is taken before the target is refused
        intro e h herror
        obtain herror | ⟨op, g', hop, herror⟩ := bind_eq_error.1 herror
        · apply KeepsTo.take hwhole e h herror
        · rw [if_neg hvalid] at herror
          cases herror
          obtain ⟨t, ht, hop, hadv⟩ := take_eq_ok.1 hop
          obtain rfl := assignOp?_eq_some.1 hop
          exact ⟨[], g, .refl g, .refused ht ⟨op, rfl⟩ hadv, hwhole⟩

/-- The production of each layer keeps to the expressions of the layer. -/
theorem keepsTo_layer (layer : Layer) :
  KeepsTo (layer.production X) (Forms (.expression layer)) f
  := by
  have hbinary := Layer.binary_of_tighter (P := fun layer =>
    ∀ f, f.size ≤ n → KeepsTo (layer.production X) (Forms (.expression layer)) f)
    (fun f h => keepsTo_unary hX hkeeps h) fun level hoperand f h => by
      rw [Layer.production_binary]
      exact .chain (reads_layer hX level.tighter) hoperand h
  cases layer with
  | assignment => apply keepsTo_assignment hX hkeeps h (hbinary .disjunction f h)
  | binary level => apply hbinary level f h
  | unary => apply keepsTo_unary hX hkeeps h
  | call => apply keepsTo_callMember hX hkeeps h
  | member => apply keepsTo_member hX hkeeps h
  | primary => apply keepsTo_primary hX hkeeps h

end

/-! ### Expressions -/

/-- Up to an error, an expression takes what begins one. -/
theorem keepsTo_expression (f : Front) :
  KeepsTo expression (Forms (.expression .assignment)) f
  := by
  induction hn : f.size using Nat.strongRecOn generalizing f with
  | _ n ih =>
    have hlayer : KeepsTo (assignment expression) (Forms (.expression .assignment)) f :=
      keepsTo_layer reads_expression (fun g hg => ih g.size hg g rfl) (Nat.le_of_eq hn)
        .assignment
    rwa [← expression_eq] at hlayer

/-! ### Declarations -/

theorem keepsTo_declaration (f : Front) :
  KeepsTo declaration (Forms .declaration) f
  := by
  have hname : Begins (Forms .declaration) [] :=
    .one (t := .identifier "x") ⟨isName_x, trivial⟩ ⟨_, .bareName⟩
  apply KeepsTo.bind_name hname
  intro n g _
  apply KeepsTo.sees
  have hbare : Begins (fun us => Forms .declaration (.identifier n :: us)) [] :=
    .self ⟨_, .bareName⟩
  split
  · exact .pure _
  · have hinit : KeepsTo (some <$> initializer)
        (fun us => Forms .declaration (.identifier n :: us)) g := by
      rw [map_eq_pure_bind]
      apply KeepsTo.return_bind
      refine .bind_eat hbare fun t g' hkind _ => ?_
      obtain rfl := kind_eq_simpleAssign hkind
      apply (keepsTo_expression g').mono
      rintro us ⟨e, hus⟩
      exact .self ⟨_, .initialized hus⟩
    apply hinit.return_bind

theorem keepsTo_declarations (f : Front) :
  KeepsTo declarations (Forms .declarations) f
  := .separated reads_declaration (fun _ _ => .lastDeclaration) (fun _ _ _ _ => .nextDeclaration)
    (fun g _ => keepsTo_declaration g) (Nat.le_refl f.size)

/-- Some statement can be read. -/
theorem begins_statement :
  Begins (Forms .statement) []
  := .one (t := .delimiter .semicolon) ⟨trivial, trivial⟩ ⟨_, .empty⟩

theorem keepsTo_declare (f : Front) :
  KeepsTo declare (Forms .statement) f
  := by
  refine .bind_skipWord begins_statement fun g _ => ?_
  refine .bind_reads reads_declarations (keepsTo_declarations g) ?_ fun ds g' ts _ _ hclose => ?_
  · rintro ts ⟨ds, hts⟩
    exact .one (t := .delimiter .semicolon) ⟨trivial, trivial⟩ ⟨_, .declare hts⟩
  · exact .bind_skip hclose fun _ _ => .pure _

/-! ### Statements -/

theorem keepsTo_expressionStatement (f : Front) :
  KeepsTo expressionStatement (Forms .statement) f
  := by
  refine .bind_reads reads_expression (keepsTo_expression f) ?_ fun e g ts _ _ hclose => ?_
  · rintro ts ⟨e, hts⟩
    exact .one (t := .delimiter .semicolon) ⟨trivial, trivial⟩ ⟨_, .expressionStatement hts⟩
  · exact .bind_skip hclose fun _ _ => .pure _

section

variable {S : Parse Stmt} (hS : ReadsStatement S) {n : Nat}
  (hkeeps : ∀ g, g.size < n → KeepsTo S (Forms .statement) g) {f : Front}

include hS hkeeps

theorem keepsTo_statements (h : f.size < n) (stop : Option TokenKind) :
  KeepsTo (statements S stop) (Forms .statements) f
  := by
  have hone {us : List Token} (h : Forms .statement us) : Forms .statements us := by
    obtain ⟨s, hus⟩ := h
    exact ⟨_, .lastStatement hus⟩
  have hnext {us : List Token} (h : Forms .statements us) :
      Continues .statement .statements us := by
    rintro ts ⟨s, hts⟩
    obtain ⟨ss, hus⟩ := h
    exact ⟨_, .nextStatement hts hus⟩
  refine .bind_reads hS.reads (hkeeps f h) (fun ts hts => .self (hone hts))
    fun s g ts hs hts _ => ?_
  have := hS.reads.size_lt hs
  have hlater : KeepsTo (manyWhile (fun t => if some t.kind = stop then none else some ())
      fun _ => S) (Continues .statement .statements) g := by
    refine .manyWhile (n := g.size) ?_ ?_ (Nat.le_refl _)
    · intro _ g' hg' _
      apply (hkeeps g' (by omega)).mono
      exact fun us hus => .self (hnext (hone hus))
    · intro _ g₁ s' g₂ _ hs'
      obtain ⟨us, hreach, hus, -⟩ := hS.reads _ _ _ hs'
      exact ⟨us, hreach, fun vs hvs => hnext (hvs us ⟨s', hus⟩)⟩
  apply (hlater.return_bind fun ss => s :: ss).mono
  exact fun us hus => .self (hus ts ⟨s, hts⟩)

theorem keepsTo_block (h : f.size ≤ n) :
  KeepsTo (block S) (Forms .statement) f
  := by
  apply KeepsTo.bind_skip begins_statement
  intro g hleft
  have := size_lt_of_skip hleft
  apply KeepsTo.sees
  split
  · refine .bind_skip ?_ fun _ _ => .pure _
    exact .one (t := .delimiter .rightBrace) ⟨trivial, trivial⟩ ⟨_, .emptyBlock⟩
  · refine .bind_reads (reads_statements hS _) (keepsTo_statements hS hkeeps (by omega) _) ?_
      fun ss g' ts _ _ hclose => ?_
    · rintro ts ⟨ss, hts⟩
      exact .one (t := .delimiter .rightBrace) ⟨trivial, trivial⟩ ⟨_, .block hts⟩
    · exact .bind_skip hclose fun _ _ => .pure _

theorem keepsTo_condition (h : f.size ≤ n) :
  KeepsTo (condition S) (Forms .statement) f
  := by
  have hthen {ts us : List Token} (hts : Forms (.expression .assignment) ts)
      (hus : Forms .statement us) :
      Forms .statement
        (.keyword .ifWord :: .delimiter .leftParen :: (ts ++ .delimiter .rightParen :: us)) := by
    obtain ⟨e, hts⟩ := hts
    obtain ⟨s, hus⟩ := hus
    exact ⟨_, by simpa [inParens, enclosed] using Derives.ifThen hts hus⟩
  have hempty : Forms .statement [.delimiter .semicolon] := ⟨_, .empty⟩
  have hnull : Forms (.expression .assignment) [.keyword .nullWord] :=
    ⟨.null, Derives.nullWord.loosen (by decide)⟩
  refine .bind_skipWord begins_statement fun f₁ hword => ?_
  have := size_lt_of_skipWord hword
  refine .bind_skip ⟨_, by simp [Valid, Short], hthen hnull hempty⟩ fun f₂ hleft => ?_
  have := size_lt_of_skip hleft
  refine .bind_reads reads_expression (keepsTo_expression f₂)
    (fun ts hts => ⟨_, by simp [Valid, Short], hthen hts hempty⟩) fun e f₃ ts htest hts hclose => ?_
  have := reads_expression.size_lt htest
  refine .bind_skip hclose fun f₄ hright => ?_
  have := size_lt_of_skip hright
  refine .bind_reads hS.reads (hkeeps f₄ (by omega))
    (fun us hus => .self (hthen ⟨e, hts⟩ hus)) fun c f₅ us hc hus hwhole => ?_
  have := hS.reads.size_lt hc
  apply KeepsTo.sees
  split
  · refine .bind_skipWord hwhole fun f₆ helse => ?_
    have := size_lt_of_skipWord helse
    have hclosed : c.isOpen = false := by
      apply Bool.eq_false_iff.2
      intro hopen
      exact (hS _ _ _ hc).2 hopen (skipWord_eq_ok.1 helse).1
    refine .bind_reads hS.reads (hkeeps f₆ (by omega)) ?_ fun _ _ _ _ _ _ => .pure _
    rintro vs ⟨a, hvs⟩
    have hwith := Derives.ifElse hts hus hclosed hvs
    exact .self ⟨.ifElse e c a, by simpa [inParens, enclosed] using hwith⟩
  · exact .pure _

theorem keepsTo_anyStatement (h : f.size ≤ n) :
  KeepsTo (anyStatement S) (Forms .statement) f
  := by
  apply KeepsTo.congr _ (anyStatement_of_view f.next? rfl)
  split
  · exact .bind_skip begins_statement fun _ _ => .pure _
  · apply keepsTo_block hS hkeeps h
  · apply keepsTo_declare f
  · apply keepsTo_condition hS hkeeps h
  · apply keepsTo_expressionStatement f

end

theorem keepsTo_statement (f : Front) :
  KeepsTo statement (Forms .statement) f
  := by
  induction hn : f.size using Nat.strongRecOn generalizing f with
  | _ n ih =>
    rw [statement_eq]
    apply keepsTo_anyStatement readsStatement_statement _ (Nat.le_of_eq hn)
    exact fun g hg => ih g.size hg g rfl

/-! ### Programs -/

/-- Up to an error, a program takes what begins one. -/
theorem keepsTo_program (f : Front) :
  KeepsTo program (Forms .program) f
  := by
  have hstatements : KeepsTo (statements statement none) (Forms .statements) f :=
    keepsTo_statements readsStatement_statement (fun g _ => keepsTo_statement g)
      (Nat.lt_succ_self _) none
  apply (hstatements.return_bind Program.mk).mono
  rintro ts ⟨ss, hts⟩
  exact .self ⟨_, .program hts⟩

end Letter.Parse
