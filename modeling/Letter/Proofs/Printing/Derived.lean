import Letter.Proofs.Printing.Tokens
import Mathlib.Data.List.Forall2

/-!
# The standard form and the grammar

The tokens of the standard form of a program are derived as that program, if the program
can be written and all its alternatives are attached to the conditions that its text
attaches them to.  Conversely, only such programs are derived from tokens that can stand in
a text.
-/

namespace Letter

open Token

/-! ### Expressions -/

namespace Expr

/-- Nothing binds looser than an assignment. -/
theorem one_le_strength (layer : Layer) :
  assignmentStrength ≤ layer.strength
  := by
  cases layer with
  | binary level => cases level <;> decide
  | _ => decide

/-- An operand is derived in every layer that the binding strength asked for allows. -/
theorem derives_operand {e : Expr} {ts : List Token} {layer : Layer} {minimum : Nat}
    (h : Derives ts (.expression e.layer e)) (hle : layer.strength ≤ minimum) :
  Derives (e.operand minimum ts) (.expression layer e)
  := by
  rw [operand]
  split
  · have hinside : Derives ts (.expression .assignment e) := h.loosen (one_le_strength _)
    apply (Derives.parenthesized hinside).loosen layer.strength_le_primary
  · next hlt => exact h.loosen (by omega)

/-- A call needs no parentheses to be called. -/
theorem derives_callee {c : Expr} {ts : List Token} (h : Derives ts (.expression c.layer c)) :
  Derives (c.operand c.calleeStrength ts) (.expression .call c)
  := by
  cases c with
  | call _ _ | superCall _ =>
    rw [operand, if_neg (by simp [calleeStrength])]
    exact h
  | _ =>
    apply derives_operand h
    apply Nat.le_succ callStrength

theorem derives_numeral (n : Nat) :
  Derives [numeral n] (.expression .primary (.number n))
  := by
  have h : Derives [Token.number (toString n)]
      (.expression .primary (.number (placeValue (toString n).toList))) := .number
  rwa [← numeralValue_eq_placeValue, Nat.toString_eq_ofList_toDigits, String.toList_ofList,
    numeralValue_toDigits, ← Nat.toString_eq_ofList_toDigits] at h

/-- Expressions separated by commas, given the tokens of each of them. -/
theorem derives_separated {tss : List (List Token)} {es : List Expr} (hne : es ≠ [])
    (h : List.Forall₂ (fun ts e => Derives ts (.expression .assignment e)) tss es) :
  Derives ([delimiter .comma].intercalate tss) (.expressions es)
  := by
  induction h with
  | nil => exact absurd rfl hne
  | @cons ts e tss es he hes ih =>
    cases hes with
    | nil =>
      rw [List.intercalate_singleton]
      apply Derives.lastExpression he
    | cons he' hes =>
      have hall := Derives.nextExpression he (ih (List.cons_ne_nil _ _))
      rw [List.intercalate_cons_cons]
      simpa using hall

theorem derives_arguments {es : List Expr}
    (h : ∀ e ∈ es, Derives e.tokens (.expression .assignment e)) :
  Derives (inParens ([delimiter .comma].intercalate (listTokens es))) (.arguments es)
  := by
  cases es with
  | nil => apply Derives.noArguments
  | cons e es =>
    apply Derives.someArguments
    apply derives_separated (List.cons_ne_nil _ _)
    rw [listTokens_eq_map, List.forall₂_map_left_iff, List.forall₂_same]
    exact h

/-- An expression that can be written is derived in its own layer. -/
theorem Valid.derives {e : Expr} (h : e.Valid) :
  Derives e.tokens (.expression e.layer e)
  := by
  induction h with
  | identifier _ => apply Derives.identifier
  | @number n _ => apply derives_numeral n
  | string _ => apply Derives.string
  | boolean b => cases b <;> constructor
  | null => apply Derives.nullWord
  | @unary op e _ ih =>
    apply Derives.unary
    apply derives_operand ih
    apply Nat.le_refl
  | @binary op l r _ _ ih ih' =>
    have hleft : Derives (l.operand op.strength l.tokens)
        (.expression (.binary op.level) l) :=
      derives_operand ih (Nat.le_of_eq (Layer.strength_binary op))
    have hright := derives_operand ih' (Nat.le_of_eq (Layer.strength_tighter_level op))
    apply Derives.binary hleft op.mem_operators_level hright
  | @assign op l r _ htarget _ ih ih' =>
    have hleft : Derives (l.operand memberStrength l.tokens)
        (.expression (.binary .disjunction) l) := derives_operand ih (by decide)
    apply Derives.assignment hleft (isTarget_iff.2 htarget)
    apply derives_operand ih'
    apply Nat.le_refl
  | member _ _ ih =>
    apply Derives.member
    apply derives_operand ih
    apply Nat.le_refl
  | index _ _ ih ih' =>
    apply Derives.index (derives_operand ih (Nat.le_refl _))
    apply ih'.loosen
    apply one_le_strength
  | @call c es _ _ ih ih' =>
    have harguments := derives_arguments fun e he => (ih' e he).loosen (one_le_strength _)
    apply Derives.call (derives_callee ih) harguments
  | superCall _ ih =>
    apply Derives.superCall (derives_arguments fun e he => (ih e he).loosen (one_le_strength _))

end Expr

/-! ### Declarations -/

namespace Declaration

/-- A declaration that can be written is derived from its tokens. -/
theorem Valid.derives {d : Declaration} (h : d.Valid) :
  Derives d.tokens (.declaration d)
  := by
  obtain ⟨name, init⟩ := d
  cases init with
  | none => apply Derives.bareName
  | some e =>
    apply Derives.initialized
    apply (h.init e rfl).derives.loosen
    apply Expr.one_le_strength

theorem derives_declarations {ds : List Declaration} (hne : ds ≠ []) (h : ∀ d ∈ ds, d.Valid) :
  Derives ([delimiter .comma].intercalate (ds.map tokens)) (.declarations ds)
  := by
  induction ds with
  | nil => exact absurd rfl hne
  | cons d ds ih =>
    rw [List.forall_mem_cons] at h
    cases ds with
    | nil =>
      rw [List.map_singleton, List.intercalate_singleton]
      apply Derives.lastDeclaration h.1.derives
    | cons d' ds =>
      have hall := Derives.nextDeclaration h.1.derives (ih (List.cons_ne_nil _ _) h.2)
      rw [List.map_cons, List.map_cons, List.intercalate_cons_cons]
      rw [List.map_cons] at hall
      simpa using hall

end Declaration

/-! ### Statements -/

namespace Stmt

theorem derives_statements {ss : List Stmt} (hne : ss ≠ [])
    (h : ∀ s ∈ ss, Derives s.tokens (.statement s)) :
  Derives (listTokens ss) (.statements ss)
  := by
  induction ss with
  | nil => exact absurd rfl hne
  | cons s ss ih =>
    rw [List.forall_mem_cons] at h
    cases ss with
    | nil =>
      rw [listTokens, listTokens, List.append_nil]
      apply Derives.lastStatement h.1
    | cons s' ss =>
      rw [listTokens]
      apply Derives.nextStatement h.1
      apply ih (List.cons_ne_nil _ _) h.2

/-- A statement that can be written, and whose alternatives are attached as its text attaches them,
is derived from its tokens. -/
theorem Valid.derives {s : Stmt} (h : s.Valid) (hattached : s.Attached) :
  Derives s.tokens (.statement s)
  := by
  induction h with
  | empty => apply Derives.empty
  | expression he =>
    apply Derives.expressionStatement
    apply he.derives.loosen
    apply Expr.one_le_strength
  | @block ss _ ih =>
    cases hattached with
    | block body =>
      cases ss with
      | nil => apply Derives.emptyBlock
      | cons s ss =>
        apply Derives.block
        apply derives_statements (List.cons_ne_nil _ _)
        exact fun s hs => ih s hs (body s hs)
  | declare hds hne =>
    apply Derives.declare
    apply Declaration.derives_declarations hne hds
  | ifThen he _ ih =>
    cases hattached with
    | ifThen consequent =>
      apply Derives.ifThen (he.derives.loosen (Expr.one_le_strength _))
      apply ih consequent
  | ifElse he _ _ ih ih' =>
    cases hattached with
    | ifElse consequent closed alternate =>
      apply Derives.ifElse (he.derives.loosen (Expr.one_le_strength _)) (ih consequent) closed
        (ih' alternate)

end Stmt

/-- A program that can be written, and whose alternatives are attached as its text attaches
them, is derived from the tokens of its standard form. -/
theorem Program.Valid.derives {p : Program} (h : p.Valid) (hattached : p.Attached) :
  Derives p.tokens (.program p)
  := .program (Stmt.derives_statements h.nonempty fun s hs =>
    (h.body s hs).derives (hattached s hs))

/-! ### Numerals of the standard form -/

theorem short_numeral {n : Nat} (h : n < 10 ^ maxDigits) :
  (numeral n).Short
  := by
  have hlength := (Nat.length_toDigits_le_iff (b := 10) (by decide) (by decide)).2 h
  rwa [numeral, Token.Short, Nat.toString_eq_ofList_toDigits, String.length_ofList]

theorem Expr.short_operand {e : Expr} {minimum : Nat} {ts : List Token}
    (h : ∀ t ∈ ts, t.Short) :
  ∀ t ∈ e.operand minimum ts, t.Short
  := by
  rw [operand]
  split
  · apply forall_short_enclosed.2 h
  · exact h

theorem short_intercalate {tss : List (List Token)} (h : ∀ ts ∈ tss, ∀ t ∈ ts, t.Short) :
  ∀ t ∈ [delimiter .comma].intercalate tss, t.Short
  := by
  induction tss with
  | nil => simp
  | cons ts tss ih =>
    rw [List.forall_mem_cons] at h
    cases tss with
    | nil =>
      rw [List.intercalate_singleton]
      apply h.1
    | cons us tss =>
      rw [List.intercalate_cons_cons, List.forall_mem_append, List.forall_mem_append]
      exact ⟨⟨h.1, by simp [Token.Short]⟩, ih h.2⟩

/-- The numerals of an expression that can be written are short. -/
theorem Expr.Valid.short {e : Expr} (h : e.Valid) :
  ∀ t ∈ e.tokens, t.Short
  := by
  induction h with
  | identifier _ | string _ | null => simp [tokens, Token.Short]
  | number h => apply List.forall_mem_singleton.2 (short_numeral h)
  | boolean b => simp [tokens, Token.Short]
  | unary _ ih => apply List.forall_mem_cons.2 ⟨trivial, short_operand ih⟩
  | binary _ _ ih ih' | assign _ _ _ ih ih' =>
    exact List.forall_mem_append.2
      ⟨short_operand ih, List.forall_mem_cons.2 ⟨trivial, short_operand ih'⟩⟩
  | member _ _ ih =>
    apply List.forall_mem_append.2 ⟨short_operand ih, by simp [Token.Short]⟩
  | index _ _ ih ih' =>
    apply List.forall_mem_append.2 ⟨short_operand ih, forall_short_enclosed.2 ih'⟩
  | call _ _ ih ih' =>
    rw [tokens, listTokens_eq_map]
    refine List.forall_mem_append.2 ⟨short_operand ih, forall_short_enclosed.2 ?_⟩
    apply short_intercalate (List.forall_mem_map.2 ih')
  | superCall _ ih =>
    rw [tokens, listTokens_eq_map]
    refine List.forall_mem_cons.2 ⟨trivial, forall_short_enclosed.2 ?_⟩
    apply short_intercalate (List.forall_mem_map.2 ih)

theorem Declaration.Valid.short {d : Declaration} (h : d.Valid) :
  ∀ t ∈ d.tokens, t.Short
  := by
  obtain ⟨name, init⟩ := d
  cases init with
  | none => exact List.forall_mem_singleton.2 trivial
  | some e =>
    apply List.forall_mem_cons.2 ⟨trivial, List.forall_mem_cons.2
      ⟨trivial, (h.init e rfl).short⟩⟩

theorem Stmt.short_listTokens {ss : List Stmt} (h : ∀ s ∈ ss, ∀ t ∈ s.tokens, t.Short) :
  ∀ t ∈ listTokens ss, t.Short
  := by
  induction ss with
  | nil => simp [listTokens]
  | cons s ss ih =>
    rw [List.forall_mem_cons] at h
    apply List.forall_mem_append.2 ⟨h.1, ih h.2⟩

/-- The numerals of a statement that can be written are short. -/
theorem Stmt.Valid.short {s : Stmt} (h : s.Valid) :
  ∀ t ∈ s.tokens, t.Short
  := by
  induction h with
  | empty => exact List.forall_mem_singleton.2 trivial
  | expression he =>
    exact List.forall_mem_append.2 ⟨he.short, List.forall_mem_singleton.2 trivial⟩
  | block _ ih =>
    apply forall_short_enclosed.2
    apply short_listTokens ih
  | declare hds _ =>
    refine List.forall_mem_cons.2 ⟨trivial, List.forall_mem_append.2
      ⟨short_intercalate ?_, List.forall_mem_singleton.2 trivial⟩⟩
    exact List.forall_mem_map.2 fun d hd => (hds d hd).short
  | ifThen he _ ih =>
    apply List.forall_mem_cons.2 ⟨trivial, List.forall_mem_append.2
      ⟨forall_short_enclosed.2 he.short, ih⟩⟩
  | ifElse he _ _ ih ih' =>
    exact List.forall_mem_cons.2 ⟨trivial, List.forall_mem_append.2
      ⟨List.forall_mem_append.2 ⟨forall_short_enclosed.2 he.short, ih⟩,
        List.forall_mem_cons.2 ⟨trivial, ih'⟩⟩⟩

/-- The numerals of a program that can be written are short. -/
theorem Program.Valid.short {p : Program} (h : p.Valid) :
  ∀ t ∈ p.tokens, t.Short
  := Stmt.short_listTokens fun s hs => (h.body s hs).short

/-! ### Programs that are derived -/

/-- Whether a phrase can be written, with its alternatives where its text attaches them. -/
def Phrase.Writable : Phrase → Prop
  | program p => p.Valid ∧ p.Attached
  | statements ss => ss ≠ [] ∧ ∀ s ∈ ss, s.Valid ∧ s.Attached
  | statement s => s.Valid ∧ s.Attached
  | declarations ds => ds ≠ [] ∧ ∀ d ∈ ds, d.Valid
  | declaration d => d.Valid
  | expression _ e => e.Valid
  | arguments es | expressions es => ∀ e ∈ es, e.Valid

/-- A numeral of few enough digits writes a number below the bound. -/
theorem numeralValue_lt_of_length {digits : String} (h : digits.length ≤ maxDigits) :
  numeralValue digits.toList < 10 ^ maxDigits
  := by
  have hlt := numeralValue_lt digits.toList
  have hle : 10 ^ digits.toList.length ≤ 10 ^ maxDigits :=
    Nat.pow_le_pow_right (by decide) (by rwa [String.length_toList])
  omega

/-- What is derived from tokens that are read can be written. -/
theorem Derives.writable {ts : List Token} {p : Phrase} (h : Derives ts p)
    (hread : ∀ t ∈ ts, t.Valid ∧ t.Short) :
  p.Writable
  := by
  induction h with
  | program _ ih =>
    obtain ⟨hne, hss⟩ := ih hread
    exact ⟨⟨fun s hs => (hss s hs).1, hne⟩, fun s hs => (hss s hs).2⟩
  | lastStatement _ ih => exact ⟨List.cons_ne_nil _ _, List.forall_mem_singleton.2 (ih hread)⟩
  | nextStatement _ _ ih ih' =>
    rw [List.forall_mem_append] at hread
    exact ⟨List.cons_ne_nil _ _, List.forall_mem_cons.2 ⟨ih hread.1, (ih' hread.2).2⟩⟩
  | empty => exact ⟨.empty, .empty⟩
  | emptyBlock => exact ⟨.block (by simp), .block (by simp)⟩
  | block _ ih =>
    obtain ⟨-, hss⟩ := ih (forall_mem_of_enclosed hread)
    exact ⟨.block fun s hs => (hss s hs).1, .block fun s hs => (hss s hs).2⟩
  | declare _ ih =>
    rw [List.forall_mem_cons, List.forall_mem_append] at hread
    obtain ⟨hne, hds⟩ := ih hread.2.1
    exact ⟨.declare hds hne, .declare _⟩
  | ifThen _ _ ih ih' =>
    rw [List.forall_mem_cons, List.forall_mem_append] at hread
    obtain ⟨hc, hc'⟩ := ih' hread.2.2
    exact ⟨.ifThen (ih (forall_mem_of_enclosed hread.2.1)) hc, .ifThen hc'⟩
  | ifElse _ _ closed _ ih ih' ih'' =>
    rw [List.forall_mem_cons, List.forall_mem_append, List.forall_mem_append,
      List.forall_mem_cons] at hread
    obtain ⟨-, ⟨htest, hc⟩, -, ha⟩ := hread
    obtain ⟨hc, hc'⟩ := ih' hc
    obtain ⟨ha, ha'⟩ := ih'' ha
    exact ⟨.ifElse (ih (forall_mem_of_enclosed htest)) hc ha, .ifElse hc' closed ha'⟩
  | expressionStatement _ ih =>
    rw [List.forall_mem_append] at hread
    exact ⟨.expression (ih hread.1), .expression _⟩
  | lastDeclaration _ ih => exact ⟨List.cons_ne_nil _ _, List.forall_mem_singleton.2 (ih hread)⟩
  | nextDeclaration _ _ ih ih' =>
    rw [List.forall_mem_append, List.forall_mem_cons] at hread
    exact ⟨List.cons_ne_nil _ _, List.forall_mem_cons.2 ⟨ih hread.1, (ih' hread.2.2).2⟩⟩
  | bareName => exact ⟨(hread _ List.mem_cons_self).1, nofun⟩
  | initialized _ ih =>
    rw [List.forall_mem_cons, List.forall_mem_cons] at hread
    refine ⟨hread.1.1, fun e he => ?_⟩
    obtain rfl := Option.some.inj he
    exact ih hread.2.2
  | noAssignment _ ih | noBinary _ ih | noUnary _ ih | noCall _ ih | noMember _ ih => exact ih hread
  | assignment _ valid _ ih ih' =>
    rw [List.forall_mem_append, List.forall_mem_cons] at hread
    apply Expr.Valid.assign (ih hread.1) (isTarget_iff.1 valid) (ih' hread.2.2)
  | binary _ _ _ ih ih' =>
    rw [List.forall_mem_append, List.forall_mem_cons] at hread
    apply Expr.Valid.binary (ih hread.1) (ih' hread.2.2)
  | unary _ ih =>
    rw [List.forall_mem_cons] at hread
    apply Expr.Valid.unary (ih hread.2)
  | call _ _ ih ih' =>
    rw [List.forall_mem_append] at hread
    apply Expr.Valid.call (ih hread.1) (ih' hread.2)
  | superCall _ ih =>
    rw [List.forall_mem_cons] at hread
    apply Expr.Valid.superCall (ih hread.2)
  | noArguments => exact nofun
  | someArguments _ ih => apply ih (forall_mem_of_enclosed hread)
  | lastExpression _ ih => exact List.forall_mem_singleton.2 (ih hread)
  | nextExpression _ _ ih ih' =>
    rw [List.forall_mem_append, List.forall_mem_cons] at hread
    exact List.forall_mem_cons.2 ⟨ih hread.1, ih' hread.2.2⟩
  | member _ ih =>
    rw [List.forall_mem_append, List.forall_mem_cons, List.forall_mem_singleton] at hread
    exact Expr.Valid.member (ih hread.1) hread.2.2.1
  | index _ _ ih ih' =>
    rw [List.forall_mem_append] at hread
    apply Expr.Valid.index (ih hread.1) (ih' (forall_mem_of_enclosed hread.2))
  | parenthesized _ ih => apply ih (forall_mem_of_enclosed hread)
  | identifier => exact Expr.Valid.identifier (hread _ List.mem_cons_self).1
  | number =>
    rw [← numeralValue_eq_placeValue]
    apply Expr.Valid.number (numeralValue_lt_of_length (hread _ List.mem_cons_self).2)
  | @string q contents =>
    have hq : q.char ∉ contents.toList := (hread _ List.mem_cons_self).1
    exact Expr.Valid.string fun hboth => by cases q <;> simp_all [Quote.char]
  | trueWord | falseWord => apply Expr.Valid.boolean _
  | nullWord => exact Expr.Valid.null

end Letter
