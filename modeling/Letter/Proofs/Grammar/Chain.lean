import Letter.Proofs.Tree.Parts
import Mathlib.Data.List.Forall2

/-!
# Chains of operands

Operands with operators between them, and no parentheses around any of them, are grouped by the
strengths of the operators alone: what is joined last are the two chains beside the last operator of
those that bind least.  The layers of the grammar, each of which is read by a loop of its own, come
to this rule, whatever the operands and however long the chain.

Main statement: `parse_chain`.
-/

namespace Letter

/-! ### Grouping by strength -/

section

variable {α β : Type} {join : BinaryOp → α → α → α} {first : α} {later : List (BinaryOp × α)}

/-- What a chain of operands joined by operators comes to: one operand is itself; of several, the
last of the operators that bind least joins what is before it to what is behind it. -/
inductive Grouped (join : BinaryOp → α → α → α) : α → List (BinaryOp × α) → α → Prop where
  | operand (first : α) : Grouped join first [] first
  | joined {op : BinaryOp} {first next left right : α} {before behind : List (BinaryOp × α)}
      (least : ∀ x ∈ before, op.strength ≤ x.1.strength)
      (last : ∀ x ∈ behind, op.strength < x.1.strength)
      (hleft : Grouped join first before left) (hright : Grouped join next behind right) :
      Grouped join first (before ++ (op, next) :: behind) (join op left right)

namespace Grouped

/-- There is a last one of the operators that bind least. -/
theorem exists_least (h : later ≠ []) :
  ∃ before op next behind, later = before ++ (op, next) :: behind
    ∧ (∀ x ∈ before, op.strength ≤ x.1.strength) ∧ ∀ x ∈ behind, op.strength < x.1.strength
  := by
  induction later with
  | nil => exact absurd rfl h
  | cons x later ih =>
    obtain ⟨op, next⟩ := x
    by_cases hnil : later = []
    · subst hnil
      exact ⟨[], op, next, [], rfl, nofun, nofun⟩
    · obtain ⟨before, op', next', behind, rfl, hleast, hlast⟩ := ih hnil
      by_cases hlt : op.strength < op'.strength
      · refine ⟨[], op, next, _, rfl, nofun, ?_⟩
        rw [List.forall_mem_append, List.forall_mem_cons]
        exact ⟨fun x hx => Nat.lt_of_lt_of_le hlt (hleast x hx), hlt,
          fun x hx => Nat.lt_trans hlt (hlast x hx)⟩
      · refine ⟨(op, next) :: before, op', next', behind, rfl, ?_, hlast⟩
        exact List.forall_mem_cons.2 ⟨Nat.le_of_not_lt hlt, hleast⟩

/-- There is only one such operator. -/
theorem least_unique {before before' behind behind' : List (BinaryOp × α)} {x x' : BinaryOp × α}
    (h : before ++ x :: behind = before' ++ x' :: behind')
    (hleast : ∀ y ∈ before, x.1.strength ≤ y.1.strength)
    (hlast : ∀ y ∈ behind, x.1.strength < y.1.strength)
    (hleast' : ∀ y ∈ before', x'.1.strength ≤ y.1.strength)
    (hlast' : ∀ y ∈ behind', x'.1.strength < y.1.strength) :
  before = before' ∧ x = x' ∧ behind = behind'
  := by
  induction before generalizing before' with
  | nil =>
    cases before' with
    | nil => simpa using h
    | cons y before' =>
      obtain ⟨rfl, rfl⟩ := List.cons.inj h
      have hlt := hlast x' (by simp)
      have hle := hleast' x (by simp)
      omega
  | cons y before ih =>
    cases before' with
    | nil =>
      obtain ⟨rfl, rfl⟩ := List.cons.inj h
      have hlt := hlast' x (by simp)
      have hle := hleast y (by simp)
      omega
    | cons y' before' =>
      obtain ⟨rfl, htail⟩ := List.cons.inj h
      obtain ⟨rfl, rfl, rfl⟩ := ih htail (fun z hz => hleast z (List.mem_cons_of_mem _ hz))
        (fun z hz => hleast' z (List.mem_cons_of_mem _ hz))
      exact ⟨rfl, rfl, rfl⟩

/-- Every chain comes to something. -/
theorem exists_grouped (first : α) (later : List (BinaryOp × α)) :
  ∃ whole, Grouped join first later whole
  := by
  induction hlength : later.length using Nat.strongRecOn generalizing first later with
  | _ n ih =>
  subst hlength
  by_cases hnil : later = []
  · subst hnil
    exact ⟨first, .operand first⟩
  · obtain ⟨before, op, next, behind, rfl, hleast, hlast⟩ := exists_least hnil
    obtain ⟨left, hleft⟩ := ih before.length (by simp) first before rfl
    obtain ⟨right, hright⟩ := ih behind.length (by simp; omega) next behind rfl
    exact ⟨_, .joined hleast hlast hleft hright⟩

/-- What a chain comes to is told by any of its last operators that bind least. -/
theorem grouped_iff {whole : α} :
  Grouped join first later whole ↔ later = [] ∧ whole = first
    ∨ ∃ before op next behind, later = before ++ (op, next) :: behind
      ∧ (∀ x ∈ before, op.strength ≤ x.1.strength) ∧ (∀ x ∈ behind, op.strength < x.1.strength)
      ∧ ∃ left right, Grouped join first before left ∧ Grouped join next behind right
        ∧ whole = join op left right
  := by
  constructor
  · intro h
    cases h with
    | operand first => exact .inl ⟨rfl, rfl⟩
    | joined least last hleft hright =>
      exact .inr ⟨_, _, _, _, rfl, least, last, _, _, hleft, hright, rfl⟩
  · rintro (⟨rfl, rfl⟩ | ⟨_, _, _, _, rfl, least, last, _, _, hleft, hright, rfl⟩)
    · exact .operand _
    · exact .joined least last hleft hright

/-- A chain comes to one thing only. -/
theorem unique {whole whole' : α} (h : Grouped join first later whole)
    (h' : Grouped join first later whole') :
  whole = whole'
  := by
  induction h generalizing whole' with
  | operand first =>
    obtain ⟨-, rfl⟩ | ⟨_, _, _, _, hnil, -⟩ := grouped_iff.1 h'
    · rfl
    · simp at hnil
  | joined least last _ _ ih ih' =>
    obtain ⟨hnil, -⟩ | ⟨_, _, _, _, hchain, least', last', _, _, hleft, hright, rfl⟩ :=
      grouped_iff.1 h'
    · simp at hnil
    · obtain ⟨rfl, heq, rfl⟩ := least_unique hchain least last least' last'
      cases heq
      rw [ih hleft, ih' hright]

/-- Grouping commutes with functions that commute with joining. -/
theorem map {join' : BinaryOp → β → β → β} {f : α → β}
    (hf : ∀ op l r, f (join op l r) = join' op (f l) (f r)) {whole : α}
    (h : Grouped join first later whole) :
  Grouped join' (f first) (later.map fun x => (x.1, f x.2)) (f whole)
  := by
  induction h with
  | operand first => exact .operand (f first)
  | joined least last _ _ ih ih' =>
    rw [hf, List.map_append, List.map_cons]
    exact .joined (List.forall_mem_map.2 least) (List.forall_mem_map.2 last) ih ih'

end Grouped

end

/-! ### Chains of expressions -/

/-- The tokens of operands joined by operators. -/
def chainTokens (first : Expr) : List (BinaryOp × Expr) → List Token
  | [] => first.tokens
  | (op, e) :: later => first.tokens ++ .operator (.binary op) :: chainTokens e later

/-- The tokens of a chain, cut at one of its operators. -/
theorem chainTokens_append (first next : Expr) (before behind : List (BinaryOp × Expr))
    (op : BinaryOp) :
  chainTokens first (before ++ (op, next) :: behind)
    = chainTokens first before ++ .operator (.binary op) :: chainTokens next behind
  := by
  induction before generalizing first with
  | nil => rfl
  | cons x before ih =>
    rw [List.cons_append, chainTokens, chainTokens, ih, List.append_assoc, List.cons_append]

/-- A chain of operands that bind at least as tightly as unary operators is derived as what it
comes to, in every layer that is no tighter than any of its operators. -/
theorem Grouped.derives {first whole : Expr} {later : List (BinaryOp × Expr)} {layer : Layer}
    (h : Grouped Expr.binary first later whole)
    (hfirst : Derives first.tokens (.expression .unary first))
    (hlater : ∀ x ∈ later, Derives x.2.tokens (.expression .unary x.2))
    (hunary : layer.strength ≤ unaryStrength) (hle : ∀ x ∈ later, layer.strength ≤ x.1.strength) :
  Derives (chainTokens first later) (.expression layer whole)
  := by
  induction h generalizing layer with
  | operand first => exact hfirst.loosen hunary
  | @joined op first next left right before behind least last _ _ ih ih' =>
    simp only [List.forall_mem_append, List.forall_mem_cons] at hlater hle
    obtain ⟨hbefore, hnext, hbehind⟩ := hlater
    have hop : op.strength + 1 ≤ unaryStrength := by cases op <;> decide
    have hlevel := Layer.strength_binary op
    have htighter := Layer.strength_tighter_level op
    have hleft : Derives (chainTokens first before) (.expression (.binary op.level) left) := by
      apply ih hfirst hbefore
      · rw [hlevel]
        exact Nat.le_of_succ_le hop
      · rwa [hlevel]
    have hright : Derives (chainTokens next behind) (.expression op.level.tighter right) := by
      apply ih' hnext hbehind
      · rwa [htighter]
      · exact fun x hx => htighter ▸ last x hx
    rw [chainTokens_append]
    apply (Derives.binary hleft op.mem_operators_level hright).loosen
    rw [hlevel]
    exact hle.2.1

/-- What holds of operators and of the tokens of all operands holds of the tokens of a chain. -/
theorem forall_mem_chainTokens {P : Token → Prop} {first : Expr} {later : List (BinaryOp × Expr)}
    (hop : ∀ op, P (.operator op)) (hfirst : ∀ t ∈ first.tokens, P t)
    (hlater : ∀ x ∈ later, ∀ t ∈ x.2.tokens, P t) :
  ∀ t ∈ chainTokens first later, P t
  := by
  induction later generalizing first with
  | nil => exact hfirst
  | cons x later ih =>
    rw [List.forall_mem_cons] at hlater
    rw [chainTokens, List.forall_mem_append, List.forall_mem_cons]
    exact ⟨hfirst, hop _, ih hlater.1 hlater.2⟩

/-- The text of operands joined by operators, with blanks around these. -/
def chainText (first : String) : List (BinaryOp × String) → String
  | [] => first
  | (op, text) :: later => first ++ " " ++ op.text ++ " " ++ chainText text later

/-- A chain of texts that spell operands spells the chain of these. -/
theorem chain_spells {e : Expr} {text : String} {es : List (BinaryOp × Expr)}
    {texts : List (BinaryOp × String)} (h : Spells text e.tokens)
    (hlater : List.Forall₂ (fun x y => x.1 = y.1 ∧ Spells x.2 y.2.tokens) texts es) :
  Spells (chainText text texts) (chainTokens e es)
  := by
  induction hlater generalizing e text with
  | nil => exact h
  | @cons x y xs ys hxy _ ih =>
    obtain ⟨op, s⟩ := x
    obtain ⟨op', e'⟩ := y
    obtain ⟨rfl, hs⟩ := hxy
    apply h.between (.binary op) (ih hs)

/-! ### Operands that have been read -/

/-- An expression inside a program that has been read which binds at least as tightly as a unary
operator, and its text. -/
structure Operand where
  /-- The tree of the expression. -/
  tree : Tree
  /-- The text of the expression. -/
  text : String
  /-- The expression is inside a program that has been read. -/
  read : ∃ source p, parse source = .ok p ∧ tree.Inside p.toTree
  /-- It is an expression. -/
  expression : tree.isExpression = true
  /-- It binds at least as tightly as a unary operator. -/
  tight : ∃ n, tree.strength = .ok n ∧ unaryStrength ≤ n
  /-- The text is the one it is given as a whole tree. -/
  emitted : tree.emit = .ok text

/-- An operand is the tree of an expression that is derived where a unary operator is, and its text
spells the tokens of that expression. -/
theorem Operand.exists_expr (o : Operand) :
  ∃ e : Expr, e.toTree = o.tree ∧ (∀ t ∈ e.tokens, t.Short)
    ∧ Derives e.tokens (.expression .unary e) ∧ Spells o.text e.tokens
  := by
  obtain ⟨source, p, hparse, hinside⟩ := o.read
  obtain ⟨e, hvalid, htree⟩ := exists_expr_of_inside hparse hinside o.expression
  obtain ⟨n, hstrength, htight⟩ := o.tight
  obtain ⟨text, htext, hspells⟩ := hvalid.exprText_spells
  have hkind := Tree.isStatement_of_isExpression o.expression
  rw [← htree] at hkind hstrength
  have hemit := Tree.emit_of_exprText hkind e.oddName?_toTree htext
  rw [htree, o.emitted] at hemit
  cases hemit
  rw [e.strength_toTree] at hstrength
  cases hstrength
  exact ⟨e, htree, hvalid.short, hvalid.derives.loosen htight, hspells⟩

/-- The node of an operator between two operands. -/
def Tree.join (op : BinaryOp) (left right : Tree) : Tree :=
  match op with
  | .or | .and => .logical (.text op.text) left right
  | _ => .binary (.text op.text) left right

theorem Expr.toTree_binary (op : BinaryOp) (l r : Expr) :
  (Expr.binary op l r).toTree = Tree.join op l.toTree r.toTree
  := by cases op <;> rfl

/-- The text of a chain of operands that have been read is itself read, as the one tree that the
strengths of the operators group the operands into. -/
theorem parse_chain (first : Operand) (later : List (BinaryOp × Operand)) :
  ∃ p whole, parse (chainText first.text (later.map fun x => (x.1, x.2.text)) ++ " ;") = .ok p
    ∧ p.toTree = .program (.list [.expression whole])
    ∧ ∀ whole', Grouped Tree.join first.tree (later.map fun x => (x.1, x.2.tree)) whole'
      ↔ whole' = whole
  := by
  choose expr htree hshort hderives hspells using Operand.exists_expr
  obtain ⟨e, hgrouped⟩ : ∃ e, Grouped Expr.binary (expr first)
      (later.map fun x => (x.1, expr x.2)) e := Grouped.exists_grouped _ _
  have htrees := hgrouped.map Expr.toTree_binary
  simp only [List.map_map, Function.comp_def, htree] at htrees
  refine ⟨⟨[.expression e]⟩, e.toTree, ?_, rfl, fun whole' => ?_⟩
  · have hspell : Spells (chainText first.text (later.map fun x => (x.1, x.2.text)))
        (chainTokens (expr first) (later.map fun x => (x.1, expr x.2))) := by
      apply chain_spells (hspells first)
      rw [List.forall₂_map_left_iff, List.forall₂_map_right_iff, List.forall₂_same]
      exact fun x _ => ⟨rfl, hspells x.2⟩
    have hcut : Cut (" ;".toList ++ []) [.delimiter .semicolon] :=
      .space (.delimiter .semicolon .nil)
    have hchain : Derives (chainTokens (expr first) (later.map fun x => (x.1, expr x.2)))
        (.expression .assignment e) := by
      apply hgrouped.derives (hderives first) (List.forall_mem_map.2 fun x _ => hderives x.2)
        (by decide)
      exact fun x _ => x.1.strength_eq_level ▸ Expr.one_le_strength (.binary x.1.level)
    refine parse_eq_ok_iff.2 ⟨_, tokenize_eq_ok_iff.2 ?_,
      .program (.lastStatement (.expressionStatement hchain)), ?_⟩
    · rw [String.toList_append]
      apply hspell.cut _ _ (endsWord_space _) hcut
    · rw [List.forall_mem_append, List.forall_mem_singleton]
      exact ⟨forall_mem_chainTokens (fun _ => trivial) (hshort first)
        (List.forall_mem_map.2 fun x _ => hshort x.2), trivial⟩
  · constructor
    · exact fun h => h.unique htrees
    · rintro rfl
      exact htrees

/-- Every expression that can be written and binds as tightly as a unary operator is an operand. -/
def Operand.ofExpr (e : Expr) (text : String) (hvalid : e.Valid)
    (htight : unaryStrength ≤ e.layer.strength) (htext : e.toTree.exprText = .ok text) :
    Operand where
  tree := e.toTree
  text := text
  read := by
    have hprogram : Program.Valid ⟨[.expression e]⟩ :=
      ⟨List.forall_mem_singleton.2 (.expression hvalid), List.cons_ne_nil _ _⟩
    obtain ⟨source, -, -, hparse⟩ :=
      hprogram.parse_format (List.forall_mem_singleton.2 (.expression e))
    have hlist : e.toTree.Inside (.list [.expression e.toTree]) :=
      .head List.mem_cons_self (.single List.mem_cons_self)
    exact ⟨source, _, hparse, .head List.mem_cons_self hlist⟩
  expression := hvalid.isExpression.isExpression_eq
  tight := ⟨_, e.strength_toTree, htight⟩
  emitted := by
    apply Tree.emit_of_exprText _ e.oddName?_toTree htext
    apply Tree.isStatement_of_isExpression hvalid.isExpression.isExpression_eq

/-- A chain of four operators with operands of two kinds, and its tree. -/
theorem parse_chain_samples :
  ∃ x y : Operand, x.text = "-null" ∧ y.text = "true"
    ∧ ∃ p, parse "-null - true * -null - true && true ;" = .ok p
      ∧ p.toTree = .program (.list [.expression (.logical (.text "&&")
        (.binary (.text "-")
          (.binary (.text "-") x.tree (.binary (.text "*") y.tree x.tree)) y.tree) y.tree)])
  := by
  let x := Operand.ofExpr (.unary .minus .null) "-null" (.unary .null) (by decide) rfl
  let y := Operand.ofExpr (.boolean true) "true" (.boolean true) (by decide) rfl
  obtain ⟨p, whole, hparse, htree, hgrouped⟩ :=
    parse_chain x [(.sub, y), (.mul, x), (.sub, y), (.and, y)]
  refine ⟨x, y, rfl, rfl, p, hparse, ?_⟩
  have hproduct : Grouped Tree.join y.tree ([] ++ [(.mul, x.tree)]) _ :=
    .joined nofun nofun (.operand _) (.operand _)
  have hfirst : Grouped Tree.join x.tree ([] ++ [(.sub, y.tree), (.mul, x.tree)]) _ :=
    .joined nofun (by decide) (.operand _) hproduct
  have hsecond : Grouped Tree.join x.tree
      ([(.sub, y.tree), (.mul, x.tree)] ++ [(.sub, y.tree)]) _ :=
    .joined (by decide) nofun hfirst (.operand _)
  have hall : Grouped Tree.join x.tree
      ([(.sub, y.tree), (.mul, x.tree), (.sub, y.tree)] ++ [(.and, y.tree)]) _ :=
    .joined (by decide) nofun hsecond (.operand _)
  rw [htree, ← (hgrouped _).1 hall]
  rfl

end Letter
