import Letter.Proofs.Printing.Tokens
import Letter.Proofs.Tree.Program
import Mathlib.Algebra.Group.Int.Defs

/-!
# Typed trees

A tree is typed if each of its nodes stands where a node of its kind may stand and its
fields hold what they may hold: names are names, numbers are neither negative nor too long
to be read, texts do not hold both quotes, and operators belong to the kind of their node.
A typed tree is the tree of a program that can be written; it dangles unless all the
alternatives of the program are attached as its text attaches them.
-/

namespace Letter

namespace Tree

/-- Whether a tree may stand to the left of an assignment. -/
def isTarget : Tree → Bool
  | identifier _ | member _ _ _ => true
  | _ => false

/-- The typed expressions.  The value of a number is an integer in the narrow sense, not a truth
value, though that counts as one where values are compared: a truth value is written as a word, and
the word is read as a name, so that no program has such a tree. -/
inductive IsExpression : Tree → Prop where
  | identifier {name : String} (h : IsName name) : IsExpression (identifier (text name))
  | number {n : Int} (nonneg : 0 ≤ n) (h : n < 10 ^ maxDigits) :
      IsExpression (number (scalar (.integer n)))
  | string {s : String} (h : ¬ ('"' ∈ s.toList ∧ '\'' ∈ s.toList)) :
      IsExpression (string (text s))
  | boolean (b : Bool) : IsExpression (boolean (scalar (.boolean b)))
  | null : IsExpression null
  | unary {op : UnaryOp} {t : Tree} (argument : IsExpression t) :
      IsExpression (unary (text op.text) t)
  | logical {op : BinaryOp} {l r : Tree} (h : op.isLogical = true) (left : IsExpression l)
      (right : IsExpression r) : IsExpression (logical (text op.text) l r)
  | binary {op : BinaryOp} {l r : Tree} (h : op.isLogical = false) (left : IsExpression l)
      (right : IsExpression r) : IsExpression (binary (text op.text) l r)
  | assignment {op : AssignOp} {l r : Tree} (target : IsExpression l) (h : l.isTarget = true)
      (value : IsExpression r) : IsExpression (assignment (text op.text) l r)
  /-- A member that is taken by its name. -/
  | member {o : Tree} {name : String} (object : IsExpression o) (h : IsName name) :
      IsExpression (member (scalar (.boolean false)) o (identifier (text name)))
  /-- A member that is taken by the value of an expression. -/
  | index {o q : Tree} (object : IsExpression o) (property : IsExpression q) :
      IsExpression (member (scalar (.boolean true)) o q)
  | call {c : Tree} {ts : List Tree} (callee : IsExpression c)
      (arguments : ∀ t ∈ ts, IsExpression t) : IsExpression (call c (list ts))
  | superCall {ts : List Tree} (arguments : ∀ t ∈ ts, IsExpression t) :
      IsExpression (call super (list ts))

/-- The typed declarations. -/
inductive IsDeclaration : Tree → Prop where
  | bare {name : String} (h : IsName name) :
      IsDeclaration (declaration (identifier (text name)) (scalar .null))
  | initialized {name : String} {t : Tree} (h : IsName name) (init : IsExpression t) :
      IsDeclaration (declaration (identifier (text name)) t)

/-- The typed statements. -/
inductive IsStatement : Tree → Prop where
  | empty : IsStatement empty
  | expression {t : Tree} (h : IsExpression t) : IsStatement (expression t)
  | block {ts : List Tree} (body : ∀ t ∈ ts, IsStatement t) : IsStatement (block (list ts))
  | declare {ts : List Tree} (h : ∀ t ∈ ts, IsDeclaration t) (nonempty : ts ≠ []) :
      IsStatement (declare (list ts))
  | ifThen {test c : Tree} (h : IsExpression test) (consequent : IsStatement c) :
      IsStatement (condition test c (scalar .null))
  | ifElse {test c a : Tree} (h : IsExpression test) (consequent : IsStatement c)
      (alternate : IsStatement a) : IsStatement (condition test c a)

/-- The typed programs. -/
inductive IsProgram : Tree → Prop where
  | body {ts : List Tree} (h : ∀ t ∈ ts, IsStatement t) (nonempty : ts ≠ []) :
      IsProgram (program (list ts))

/-! ### Typed trees are trees of programs -/

/-- If every item is the image of something, then so is the list of them. -/
theorem exists_map_eq {α : Type} {f : α → Tree} {P : α → Prop} {ts : List Tree}
    (h : ∀ t ∈ ts, ∃ a, P a ∧ f a = t) :
  ∃ as : List α, (∀ a ∈ as, P a) ∧ as.map f = ts
  := by
  induction ts with
  | nil => exact ⟨[], by simp, rfl⟩
  | cons t ts ih =>
    rw [List.forall_mem_cons] at h
    obtain ⟨⟨a, ha, rfl⟩, hts⟩ := h
    obtain ⟨as, has, rfl⟩ := ih hts
    exact ⟨a :: as, List.forall_mem_cons.2 ⟨ha, has⟩, rfl⟩

theorem isTarget_toTree (e : Expr) :
  e.toTree.isTarget = e.isTarget
  := by
  cases e with
  | binary op l r =>
    rw [Expr.toTree]
    split <;> rfl
  | _ => rfl

/-- A typed expression is the tree of one that can be written. -/
theorem IsExpression.exists_toTree {t : Tree} (h : t.IsExpression) :
  ∃ e : Expr, e.Valid ∧ e.toTree = t
  := by
  induction h with
  | identifier h => exact ⟨_, .identifier h, rfl⟩
  | number nonneg h =>
    obtain ⟨n, rfl⟩ := Int.eq_ofNat_of_zero_le nonneg
    have hlt : ((n : Nat) : Int) < ((10 ^ maxDigits : Nat) : Int) := by rwa [Int.natCast_pow]
    exact ⟨_, .number (Int.ofNat_lt.1 hlt), rfl⟩
  | string h => exact ⟨_, .string h, rfl⟩
  | boolean b => exact ⟨_, .boolean b, rfl⟩
  | null => exact ⟨_, .null, rfl⟩
  | unary _ ih =>
    obtain ⟨e, he, rfl⟩ := ih
    exact ⟨_, .unary he, rfl⟩
  | @logical op _ _ h _ _ ih ih' | @binary op _ _ h _ _ ih ih' =>
    obtain ⟨l, hl, rfl⟩ := ih
    obtain ⟨r, hr, rfl⟩ := ih'
    exact ⟨.binary op l r, .binary hl hr, by rw [Expr.toTree, h]; rfl⟩
  | assignment _ h _ ih ih' =>
    obtain ⟨l, hl, rfl⟩ := ih
    obtain ⟨r, hr, rfl⟩ := ih'
    exact ⟨_, .assign hl (isTarget_toTree l ▸ h) hr, rfl⟩
  | member _ h ih =>
    obtain ⟨o, ho, rfl⟩ := ih
    exact ⟨_, .member ho h, rfl⟩
  | index _ _ ih ih' =>
    obtain ⟨o, ho, rfl⟩ := ih
    obtain ⟨q, hq, rfl⟩ := ih'
    exact ⟨_, .index ho hq, rfl⟩
  | call _ _ ih ih' =>
    obtain ⟨c, hc, rfl⟩ := ih
    obtain ⟨es, hes, rfl⟩ := exists_map_eq ih'
    exact ⟨_, .call hc hes, by rw [Expr.toTree, Expr.toTrees_eq_map]⟩
  | superCall _ ih =>
    obtain ⟨es, hes, rfl⟩ := exists_map_eq ih
    exact ⟨_, .superCall hes, by rw [Expr.toTree, Expr.toTrees_eq_map]⟩

/-- A typed declaration is the tree of one that can be written. -/
theorem IsDeclaration.exists_toTree {t : Tree} (h : t.IsDeclaration) :
  ∃ d : Declaration, d.Valid ∧ d.toTree = t
  := by
  cases h with
  | bare h => exact ⟨⟨_, none⟩, ⟨h, nofun⟩, rfl⟩
  | initialized h init =>
    obtain ⟨e, he, rfl⟩ := init.exists_toTree
    exact ⟨⟨_, some e⟩, ⟨h, by rintro _ ⟨⟩; exact he⟩, rfl⟩

/-- A typed statement is the tree of one that can be written. -/
theorem IsStatement.exists_toTree {t : Tree} (h : t.IsStatement) :
  ∃ s : Stmt, s.Valid ∧ s.toTree = t
  := by
  induction h with
  | empty => exact ⟨_, .empty, rfl⟩
  | expression h =>
    obtain ⟨e, he, rfl⟩ := h.exists_toTree
    exact ⟨_, .expression he, rfl⟩
  | block _ ih =>
    obtain ⟨ss, hss, rfl⟩ := exists_map_eq ih
    exact ⟨_, .block hss, by rw [Stmt.toTree, Stmt.toTrees_eq_map]⟩
  | declare h nonempty =>
    obtain ⟨ds, hds, rfl⟩ := exists_map_eq fun t ht => (h t ht).exists_toTree
    exact ⟨_, .declare hds (by simpa using nonempty), rfl⟩
  | ifThen h _ ih =>
    obtain ⟨e, he, rfl⟩ := h.exists_toTree
    obtain ⟨s, hs, rfl⟩ := ih
    exact ⟨_, .ifThen he hs, rfl⟩
  | ifElse h _ _ ih ih' =>
    obtain ⟨e, he, rfl⟩ := h.exists_toTree
    obtain ⟨s, hs, rfl⟩ := ih
    obtain ⟨a, ha, rfl⟩ := ih'
    exact ⟨_, .ifElse he hs ha, rfl⟩

/-- A typed program is the tree of a program that can be written. -/
theorem IsProgram.exists_toTree {t : Tree} (h : t.IsProgram) :
  ∃ p : Program, p.Valid ∧ p.toTree = t
  := by
  cases h with
  | body h nonempty =>
    obtain ⟨ss, hss, rfl⟩ := exists_map_eq fun t ht => (h t ht).exists_toTree
    refine ⟨⟨ss⟩, ⟨hss, by simpa using nonempty⟩, ?_⟩
    rw [Program.toTree, Stmt.toTrees_eq_map]

end Tree

/-! ### Alternatives -/

namespace Stmt

theorem isNull_toTree (s : Stmt) :
  s.toTree.isNull = false
  := by cases s <;> rfl

theorem isOpen_toTree : ∀ s : Stmt, s.toTree.isOpen = s.isOpen
  | ifElse _ _ a => by
    rw [toTree, Tree.isOpen, isNull_toTree, isOpen_toTree a]
    rfl
  | empty | expression _ | block _ | declare _ | ifThen _ _ => rfl

theorem attached_block_iff {ss : List Stmt} :
  (block ss).Attached ↔ ∀ s ∈ ss, s.Attached
  := ⟨fun | .block body => body, .block⟩

theorem attached_ifThen_iff {e : Expr} {s : Stmt} :
  (ifThen e s).Attached ↔ s.Attached
  := ⟨fun | .ifThen consequent => consequent, .ifThen⟩

/-- An alternative is attached where it stands if the statement before it is not open. -/
theorem attached_ifElse_iff {e : Expr} {s a : Stmt} :
  (ifElse e s a).Attached ↔ s.Attached ∧ s.isOpen = false ∧ a.Attached
  := ⟨fun | .ifElse consequent closed alternate => ⟨consequent, closed, alternate⟩,
    fun ⟨consequent, closed, alternate⟩ => .ifElse consequent closed alternate⟩

end Stmt

namespace Tree

theorem dangles_list {ts : List Tree} :
  (list ts).Dangles ↔ ∃ t ∈ ts, t.Dangles
  := dangles_iff_children (by simp)

theorem not_dangles_expression {e : Expr} (h : e.Valid) :
  ¬ e.toTree.Dangles
  := by
  induction h with
  | @binary op l r _ _ ih ih' =>
    rw [Expr.toTree]
    split <;> simp [dangles_iff_children, children, text, ih, ih']
  | call _ _ ih ih' =>
    simp_all [Expr.toTree, Expr.toTrees_eq_map, dangles_iff_children, children]
  | superCall _ ih =>
    simp_all [Expr.toTree, Expr.toTrees_eq_map, dangles_iff_children, children]
  | _ => simp_all [Expr.toTree, dangles_iff_children, children, text]

theorem not_dangles_declaration {d : Declaration} (h : d.Valid) :
  ¬ d.toTree.Dangles
  := by
  obtain ⟨name, init⟩ := d
  cases init with
  | none =>
    simp [Declaration.toTree, dangles_iff_children, children, text]
  | some e =>
    have he := not_dangles_expression (h.init e rfl)
    simp [Declaration.toTree, dangles_iff_children, children, text, he]

/-- In a statement no alternative dangles if its text attaches each where it stands. -/
theorem not_dangles_statement_iff {s : Stmt} (h : s.Valid) :
  ¬ s.toTree.Dangles ↔ s.Attached
  := by
  induction h with
  | empty =>
    have hempty : ¬ empty.Dangles := by simp [dangles_iff_children, children]
    apply iff_of_true hempty .empty
  | @expression e he =>
    have hexpression : ¬ (expression e.toTree).Dangles := by
      simpa [dangles_iff_children, children] using not_dangles_expression he
    apply iff_of_true hexpression (.expression e)
  | @block ss _ ih =>
    rw [Stmt.attached_block_iff, Stmt.toTree, Stmt.toTrees_eq_map,
      dangles_iff_children (by simp)]
    simp only [children, List.mem_singleton, exists_eq_left, dangles_list, List.mem_map,
      exists_exists_and_eq_and, not_exists, not_and]
    apply forall₂_congr ih
  | @declare ds hds _ =>
    have hdeclare : ¬ (declare (list (ds.map Declaration.toTree))).Dangles := by
      rw [dangles_iff_children (by simp)]
      simpa [children, dangles_list] using fun d hd => not_dangles_declaration (hds d hd)
    apply iff_of_true hdeclare (.declare ds)
  | ifThen he _ ih =>
    rw [Stmt.attached_ifThen_iff, ← ih, Stmt.toTree, dangles_condition]
    simp [isNull, not_dangles_expression he, not_dangles_scalar]
  | ifElse he _ _ ih ih' =>
    rw [Stmt.attached_ifElse_iff, ← ih, ← ih', Stmt.toTree, dangles_condition,
      Stmt.isNull_toTree, Stmt.isOpen_toTree]
    simp only [true_and, not_dangles_expression he, false_or, not_or, Bool.not_eq_true]
    apply and_left_comm

/-- The tree of a program does not dangle exactly if all alternatives of the program are
attached as its text attaches them. -/
theorem not_dangles_program_iff {p : Program} (h : p.Valid) :
  ¬ p.toTree.Dangles ↔ p.Attached
  := by
  rw [Program.toTree, Stmt.toTrees_eq_map, dangles_iff_children (by simp)]
  simp only [children, List.mem_singleton, exists_eq_left, dangles_list, List.mem_map,
    exists_exists_and_eq_and, not_exists, not_and]
  apply forall₂_congr fun s hs => not_dangles_statement_iff (h.body s hs)

end Tree

end Letter
