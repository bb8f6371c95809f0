import Mathlib.Logic.Relation
import Letter.Proofs.Printing.RoundTrip

/-!
# What formatting does to the tokens

Formatting a program that has been read leaves out pairs of parentheses, writes each
numeral as the decimal numeral of its value and each text between its preferred quotes, and
does nothing else to the tokens.  What it leaves in, it has to: no source of the same
program has fewer tokens.
-/

namespace Letter

open Token Relation

/-! ### Leaving out parentheses -/

/-- Tokens in which all parentheses match. -/
inductive Balanced : List Token → Prop where
  | nil : Balanced []
  | cons {t : Token} {ts : List Token} (left : t ≠ delimiter .leftParen)
      (right : t ≠ delimiter .rightParen) (later : Balanced ts) : Balanced (t :: ts)
  | parens {ts us : List Token} (inside : Balanced ts) (later : Balanced us) :
      Balanced (inParens ts ++ us)

/-- One pair of matching parentheses is left out. -/
inductive DropsPair : List Token → List Token → Prop where
  | inside (ts us vs : List Token) (balanced : Balanced us) :
      DropsPair (ts ++ inParens us ++ vs) (ts ++ us ++ vs)

/-- Some pairs of matching parentheses are left out, one after another. -/
abbrev Drops : List Token → List Token → Prop := ReflTransGen DropsPair

namespace Balanced

theorem append {ts us : List Token} (h : Balanced ts) (h' : Balanced us) :
  Balanced (ts ++ us)
  := by
  induction h with
  | nil => exact h'
  | cons left right _ ih => apply cons left right ih
  | parens inside _ _ ih =>
    rw [List.append_assoc]
    apply parens inside ih

/-- What stands between a pair of parentheses that are balanced as a whole is balanced. -/
theorem of_inParens {ts : List Token} (h : Balanced ts) :
  Balanced (inParens ts)
  := by
  rw [← List.append_nil (inParens ts)]
  apply parens h nil

theorem one {t : Token} (left : t ≠ delimiter .leftParen) (right : t ≠ delimiter .rightParen) :
  Balanced [t]
  := cons left right nil

/-- Tokens between other delimiters than parentheses. -/
theorem enclosed {left right : Delimiter} {ts : List Token} (h : Balanced ts)
    (hleft : left ≠ .leftParen ∧ left ≠ .rightParen)
    (hright : right ≠ .leftParen ∧ right ≠ .rightParen) :
  Balanced (Token.enclosed left right ts)
  := by
  refine cons ?_ ?_ (h.append (one ?_ ?_)) <;> simp [hleft, hright]

end Balanced

/-- A pair that is dropped makes the tokens fewer. -/
theorem DropsPair.length_lt {ts us : List Token} (h : DropsPair ts us) :
  us.length < ts.length
  := by
  obtain ⟨as, bs, cs, -⟩ := h
  simp only [inParens, Token.enclosed, List.length_append, List.length_cons, List.length_nil]
  omega

namespace Drops

/-- Pairs may be dropped among other tokens. -/
theorem context {us us' : List Token} (h : Drops us us') (ts vs : List Token) :
  Drops (ts ++ us ++ vs) (ts ++ us' ++ vs)
  := by
  refine ReflTransGen.lift (fun us => ts ++ us ++ vs) ?_ _ _ h
  rintro _ _ ⟨as, bs, cs, hbs⟩
  have hpair := DropsPair.inside (ts ++ as) bs (cs ++ vs) hbs
  simpa [Function.onFun, List.append_assoc] using hpair

theorem append {ts ts' us us' : List Token} (h : Drops ts ts') (h' : Drops us us') :
  Drops (ts ++ us) (ts' ++ us')
  := by
  have hleft := h.context [] us
  have hright := h'.context ts' []
  simp only [List.nil_append, List.append_nil] at hleft hright
  apply hleft.trans hright

theorem cons {ts us : List Token} (t : Token) (h : Drops ts us) :
  Drops (t :: ts) (t :: us)
  := by
  have hone : Drops [t] [t] := .refl
  apply hone.append h

theorem enclosed {ts us : List Token} {left right : Delimiter} (h : Drops ts us) :
  Drops (Token.enclosed left right ts) (Token.enclosed left right us)
  := (h.append .refl).cons _

/-- The parentheses around balanced tokens are left out. -/
theorem of_inParens {ts us : List Token} (hts : Balanced ts) (h : Drops ts us) :
  Drops (inParens ts) us
  := by
  have hpair := DropsPair.inside [] ts [] hts
  simp only [List.nil_append, List.append_nil] at hpair
  apply h.head hpair

theorem length_le {ts us : List Token} (h : Drops ts us) :
  us.length ≤ ts.length
  := by
  induction h with
  | refl => apply Nat.le_refl
  | tail _ hpair ih =>
    have := hpair.length_lt
    omega

end Drops

/-- In what is derived all parentheses match. -/
theorem Derives.balanced {ts : List Token} {p : Phrase} (h : Derives ts p) :
  Balanced ts
  := by
  induction h with
  | program _ ih | lastStatement _ ih | lastDeclaration _ ih | noAssignment _ ih | noBinary _ ih
  | noUnary _ ih | noCall _ ih | lastExpression _ ih | noMember _ ih => exact ih
  | nextStatement _ _ ih ih' | call _ _ ih ih' => apply ih.append ih'
  | empty | bareName | identifier | number | string | trueWord | falseWord | nullWord =>
    exact .one (by simp) (by simp)
  | emptyBlock => exact .enclosed .nil (by simp) (by simp)
  | block _ ih =>
    apply ih.enclosed (by simp)
    simp
  | declare _ ih => exact .cons (by simp) (by simp) (ih.append (.one (by simp) (by simp)))
  | ifThen _ _ ih ih' => exact .cons (by simp) (by simp) (ih.of_inParens.append ih')
  | ifElse _ _ _ _ ih ih' ih'' =>
    exact .cons (by simp) (by simp)
      ((ih.of_inParens.append ih').append (.cons (by simp) (by simp) ih''))
  | expressionStatement _ ih => apply ih.append (.one (by simp) (by simp))
  | nextDeclaration _ _ ih ih' | assignment _ _ _ ih ih' | binary _ _ _ ih ih'
  | nextExpression _ _ ih ih' => apply ih.append (.cons (by simp) (by simp) ih')
  | initialized _ ih => exact .cons (by simp) (by simp) (.cons (by simp) (by simp) ih)
  | unary _ ih | superCall _ ih => exact .cons (by simp) (by simp) ih
  | noArguments => apply Balanced.nil.of_inParens
  | someArguments _ ih | parenthesized _ ih => apply ih.of_inParens
  | member _ ih => apply ih.append (.cons (by simp) (by simp) (.one (by simp) (by simp)))
  | index _ _ ih ih' =>
    apply ih.append
    apply ih'.enclosed (by simp)
    simp

/-! ### The standard form of a token -/

/-- A token as the standard form writes it. -/
def Token.normal : Token → Token
  | number digits => numeral (placeValue digits.toList)
  | string _ contents => string (.preferred contents) contents
  | t => t

theorem Token.normal_eq_delimiter {t : Token} {d : Delimiter} :
  t.normal = delimiter d ↔ t = delimiter d
  := by cases t <;> simp [normal, numeral]

/-- The normal form of tokens keeps the delimiters around them. -/
theorem Token.map_normal_enclosed (left right : Delimiter) (ts : List Token) :
  (enclosed left right ts).map normal = enclosed left right (ts.map normal)
  := by simp [enclosed, normal]

theorem Balanced.map_normal {ts : List Token} (h : Balanced ts) :
  Balanced (ts.map normal)
  := by
  induction h with
  | nil => exact .nil
  | cons left right _ ih =>
    exact .cons (mt normal_eq_delimiter.1 left) (mt normal_eq_delimiter.1 right) ih
  | parens _ _ ih ih' =>
    rw [List.map_append, inParens, Token.map_normal_enclosed]
    apply ih.parens ih'

/-! ### From a derivation to the standard form -/

/-- An operand that binds tightly enough needs no parentheses. -/
theorem Expr.operand_of_le {e : Expr} {minimum : Nat} (h : minimum ≤ e.layer.strength)
    (ts : List Token) :
  e.operand minimum ts = ts
  := if_neg (Nat.not_lt_of_le h)

/-- What the tokens from which a phrase is derived are to become.  An operand is to be
written in every place whose binding strength its layer allows, and as a callee where the
layer is that of calls. -/
def Phrase.DroppedFrom : Phrase → List Token → Prop
  | program p, ts => Drops ts p.tokens
  | statements ss, ts => Drops ts (Stmt.listTokens ss)
  | statement s, ts => Drops ts s.tokens
  | declarations ds, ts => Drops ts ([delimiter .comma].intercalate (ds.map Declaration.tokens))
  | declaration d, ts => Drops ts d.tokens
  | expression layer e, ts =>
    (∀ n ≤ layer.strength, Drops ts (e.operand n e.tokens))
      ∧ (layer = .call → Drops ts (e.operand e.calleeStrength e.tokens))
  | arguments es, ts =>
    Drops ts (inParens ([delimiter .comma].intercalate (Expr.listTokens es)))
  | expressions es, ts => Drops ts ([delimiter .comma].intercalate (Expr.listTokens es))

namespace Phrase.DroppedFrom

/-- An expression in the layer of its own operators, where that is not the one of calls. -/
theorem own {layer : Layer} {e : Expr} {ts : List Token} (h : Drops ts e.tokens)
    (hlayer : e.layer = layer) (hcall : layer ≠ .call) :
  (expression layer e).DroppedFrom ts
  := by
  refine ⟨fun n hn => ?_, fun heq => absurd heq hcall⟩
  rwa [Expr.operand_of_le (by rwa [hlayer])]

/-- A call in the layer of calls. -/
theorem ownCall {e : Expr} {ts : List Token} (h : Drops ts e.tokens)
    (hlayer : e.layer = .call) (hcallee : e.calleeStrength = 0) :
  (expression .call e).DroppedFrom ts
  := by
  refine ⟨fun n hn => ?_, fun _ => ?_⟩
  · rwa [Expr.operand_of_le (by rwa [hlayer])]
  · rwa [hcallee, Expr.operand_of_le (Nat.zero_le _)]

/-- An expression in a layer that takes in its own, where that is not the one of calls. -/
theorem loosen {layer layer' : Layer} {e : Expr} {ts : List Token}
    (h : (expression layer e).DroppedFrom ts) (hle : layer'.strength ≤ layer.strength)
    (hcall : layer' ≠ .call) :
  (expression layer' e).DroppedFrom ts
  := ⟨fun n hn => h.1 n (hn.trans hle), fun heq => absurd heq hcall⟩

/-- The tokens of an expression without parentheses around it. -/
theorem tokens {layer : Layer} {e : Expr} {ts : List Token}
    (h : (expression layer e).DroppedFrom ts) :
  Drops ts e.tokens
  := by
  have hzero := h.1 0 (Nat.zero_le _)
  rwa [Expr.operand_of_le (Nat.zero_le _)] at hzero

end Phrase.DroppedFrom

theorem Derives.declarations_ne_nil {ts : List Token} {ds : List Declaration}
    (h : Derives ts (.declarations ds)) :
  ds ≠ []
  := by cases h <;> exact List.cons_ne_nil _ _

theorem Derives.expressions_ne_nil {ts : List Token} {es : List Expr}
    (h : Derives ts (.expressions es)) :
  es ≠ []
  := by cases h <;> exact List.cons_ne_nil _ _

/-- What can be assigned to binds as tightly as a member. -/
theorem Expr.memberStrength_le_of_isTarget {e : Expr} (h : e.isTarget = true) :
  memberStrength ≤ e.layer.strength
  := by
  cases e with
  | identifier _ => apply Nat.le_succ memberStrength
  | member _ _ | index _ _ => apply Nat.le_refl memberStrength
  | _ => cases h

/-- No callee is required to bind tighter than a member. -/
theorem Expr.calleeStrength_le (e : Expr) :
  e.calleeStrength ≤ memberStrength
  := by cases e <;> first | exact Nat.le_refl _ | exact Nat.zero_le _

/-- The standard form of what is derived is reached by leaving out parentheses. -/
theorem Derives.droppedFrom {ts : List Token} {p : Phrase} (h : Derives ts p) :
  p.DroppedFrom (ts.map normal)
  := by
  induction h with
  | program _ ih => exact ih
  | @lastStatement ts s _ ih =>
    change Drops _ (s.tokens ++ [])
    rw [List.append_nil]
    exact ih
  | nextStatement _ _ ih ih' =>
    rw [List.map_append]
    apply ih.append ih'
  | empty => exact .refl
  | emptyBlock => exact .refl
  | block _ ih =>
    rw [inBraces, map_normal_enclosed]
    apply ih.enclosed
  | declare _ ih =>
    rw [List.map_cons, List.map_append]
    apply (ih.append .refl).cons
  | ifThen _ _ ih ih' =>
    rw [List.map_cons, List.map_append, inParens, map_normal_enclosed]
    apply (ih.tokens.enclosed.append ih').cons
  | ifElse _ _ _ _ ih ih' ih'' =>
    rw [List.map_cons, List.map_append, List.map_append, inParens, map_normal_enclosed,
      List.map_cons]
    apply ((ih.tokens.enclosed.append ih').append (ih''.cons _)).cons
  | expressionStatement _ ih =>
    rw [List.map_append]
    apply ih.tokens.append .refl
  | lastDeclaration _ ih =>
    change Drops _ ([delimiter .comma].intercalate [_])
    rw [List.intercalate_singleton]
    exact ih
  | nextDeclaration _ later ih ih' =>
    change Drops _ ([delimiter .comma].intercalate (_ :: _))
    rw [List.intercalate_cons_of_ne_nil (by simpa using later.declarations_ne_nil),
      List.append_assoc, List.map_append]
    apply ih.append
    apply ih'.cons
  | bareName => exact .refl
  | initialized _ ih => apply (ih.tokens.cons _).cons
  | noAssignment _ ih =>
    apply ih.loosen (by decide)
    simp
  | assignment _ valid _ ih ih' =>
    rw [List.map_append]
    refine .own ?_ rfl (by simp)
    rw [Expr.tokens, Expr.operand_of_le (Expr.memberStrength_le_of_isTarget (isTarget_iff.1 valid))]
    apply ih.tokens.append
    apply (ih'.1 _ (Nat.le_refl _)).cons
  | noBinary _ ih =>
    apply ih.loosen (Nat.le_of_lt (Layer.strength_lt_tighter _))
    simp
  | @binary _ op _ _ _ _ _ known _ ih ih' =>
    obtain rfl := Level.mem_operators_iff.1 known
    rw [List.map_append]
    refine .own ?_ rfl (by simp)
    have hright := ih'.1 (op.strength + 1) (Nat.le_of_eq (Layer.strength_tighter_level op).symm)
    apply (ih.1 op.strength (Nat.le_of_eq (Layer.strength_binary op).symm)).append
    apply hright.cons
  | noUnary _ ih =>
    apply ih.loosen (by decide)
    simp
  | unary _ ih =>
    refine .own ?_ rfl (by simp)
    rw [List.map_cons, Expr.tokens]
    apply (ih.1 _ (Nat.le_refl _)).cons
  | noCall _ ih =>
    exact ⟨fun n hn => ih.1 n (hn.trans (by decide)), fun _ => ih.1 _ (Expr.calleeStrength_le _)⟩
  | call _ _ ih ih' =>
    rw [List.map_append]
    exact .ownCall ((ih.2 rfl).append ih') rfl rfl
  | superCall _ ih => exact .ownCall (ih.cons _) rfl rfl
  | noArguments => exact .refl
  | someArguments _ ih =>
    rw [inParens, map_normal_enclosed]
    apply ih.enclosed
  | lastExpression _ ih =>
    change Drops _ ([delimiter .comma].intercalate [_])
    rw [List.intercalate_singleton]
    apply ih.tokens
  | nextExpression _ later ih ih' =>
    change Drops _ ([delimiter .comma].intercalate (_ :: _))
    rw [List.intercalate_cons_of_ne_nil
        (by simpa [Expr.listTokens_eq_map] using later.expressions_ne_nil),
      List.append_assoc, List.map_append]
    apply ih.tokens.append
    apply ih'.cons
  | noMember _ ih =>
    apply ih.loosen (by decide)
    simp
  | member _ ih =>
    rw [List.map_append]
    exact .own ((ih.1 _ (Nat.le_refl _)).append .refl) rfl (by simp)
  | index _ _ ih ih' =>
    rw [List.map_append, inBrackets, map_normal_enclosed]
    exact .own ((ih.1 _ (Nat.le_refl _)).append ih'.tokens.enclosed) rfl (by simp)
  | parenthesized inside ih =>
    rw [inParens, map_normal_enclosed]
    refine ⟨fun n _ => ?_, fun hcall => absurd hcall (by simp)⟩
    rw [Expr.operand]
    split
    · apply ih.tokens.enclosed
    · apply ih.tokens.of_inParens inside.balanced.map_normal
  | identifier | number | string | trueWord | falseWord | nullWord =>
    exact .own .refl rfl (by simp)

/-- Formatting what has been read leaves out pairs of parentheses, writes each token in its
standard form, and changes nothing else.  No source of the same program has fewer tokens, so
that no pair of parentheses could be left out. -/
theorem format_tokens {source : String} {p : Program} (h : parse source = .ok p) :
  ∃ ts text us, tokenize source = .ok ts ∧ p.format = .ok text ∧ tokenize text = .ok us
    ∧ Drops (ts.map normal) us
    ∧ (∀ source' ts', parse source' = .ok p → tokenize source' = .ok ts' →
        us.length ≤ ts'.length)
    ∧ ∀ source' us', tokenize source' = .ok us' → DropsPair us us' → parse source' ≠ .ok p
  := by
  have hleast {source' : String} {ts' : List Token} (h : parse source' = .ok p)
      (hcut : tokenize source' = .ok ts') : Drops (ts'.map normal) p.tokens := by
    obtain ⟨ts, hcut', hts, -⟩ := parse_eq_ok_iff.1 h
    rw [hcut] at hcut'
    cases hcut'
    apply hts.droppedFrom
  have hlength {source' : String} {ts' : List Token} (h : parse source' = .ok p)
      (hcut : tokenize source' = .ok ts') : p.tokens.length ≤ ts'.length := by
    simpa using (hleast h hcut).length_le
  obtain ⟨ts, hcut, -, -⟩ := parse_eq_ok_iff.1 h
  obtain ⟨text, hformat, hcut'⟩ := (valid_of_parse h).1.exists_format
  refine ⟨ts, text, p.tokens, hcut, hformat, hcut', hleast h hcut, fun _ _ => hlength, ?_⟩
  intro source' us' hus' hpair hparse
  have hle := hlength hparse hus'
  have hlt := hpair.length_lt
  omega

/-- The standard form of an assignment with parentheses to spare drops both pairs of them. -/
theorem format_tokens_sampleSource :
  parse sampleSource = .ok sampleProgram ∧ ∃ ts text us, tokenize sampleSource = .ok ts
    ∧ sampleProgram.format = .ok text ∧ tokenize text = .ok us ∧ Drops (ts.map normal) us
    ∧ (∀ source' ts', parse source' = .ok sampleProgram → tokenize source' = .ok ts' →
        us.length ≤ ts'.length)
    ∧ ∀ source' us', tokenize source' = .ok us' → DropsPair us us' →
        parse source' ≠ .ok sampleProgram
  := ⟨parse_sampleSource, format_tokens parse_sampleSource⟩

end Letter
