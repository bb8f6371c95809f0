import Letter.Proofs.Grammar.Strength
import Letter.Proofs.Token.Spelling

/-!
# The tokens of the standard form

A program in its standard form has parentheses only where the grammar asks for them: around
an operand whose operator binds looser than the place of the operand, and around what is no
name, no member and no call but stands where a callee does.

The tokens are those of a program that can be written at all: its names are names, its
numerals are not too long, its texts do not hold both quotes, only variables and members
are assigned to, and what the grammar wants to be there is there.
-/

namespace Letter

theorem UnaryOp.text_operator (op : UnaryOp) :
  op.operator.text = op.text
  := by cases op <;> rfl

/-- The quotes that are put around a text: double ones, unless it holds one. -/
def Quote.preferred (contents : String) : Quote :=
  if '"' ∈ contents.toList then .single else .double

/-- The numeral of a number. -/
def Token.numeral (n : Nat) : Token := number (toString n)

/-! ### Expressions -/

namespace Expr

/-- The tightest layer of an expression without parentheses. -/
def layer : Expr → Layer
  | assign _ _ _ => .assignment
  | binary op _ _ => .binary op.level
  | unary _ _ => .unary
  | call _ _ | superCall _ => .call
  | member _ _ | index _ _ => .member
  | _ => .primary

/-- The binding strength that is asked of a callee: none of a call. -/
def calleeStrength : Expr → Nat
  | call _ _ | superCall _ => 0
  | _ => memberStrength

/-- The tokens of an operand, given its own ones, where a binding strength is asked for. -/
def operand (minimum : Nat) (e : Expr) (ts : List Token) : List Token :=
  if e.layer.strength < minimum then Token.inParens ts else ts

mutual

/-- The tokens of an expression in its standard form. -/
def tokens : Expr → List Token
  | identifier name => [.identifier name]
  | number n => [.numeral n]
  | string s => [.string (.preferred s) s]
  | boolean b => [.keyword (if b then .trueWord else .falseWord)]
  | null => [.keyword .nullWord]
  | unary op e => .operator op.operator :: e.operand unaryStrength e.tokens
  | binary op l r =>
    l.operand op.strength l.tokens
      ++ .operator (.binary op) :: r.operand (op.strength + 1) r.tokens
  | assign op l r =>
    l.operand memberStrength l.tokens
      ++ .operator (.assign op) :: r.operand assignmentStrength r.tokens
  | member o name =>
    o.operand memberStrength o.tokens ++ [.delimiter .dot, .identifier name]
  | index o p => o.operand memberStrength o.tokens ++ Token.inBrackets p.tokens
  | call c es =>
    c.operand c.calleeStrength c.tokens
      ++ Token.inParens ([.delimiter .comma].intercalate (listTokens es))
  | superCall es =>
    .keyword .superWord :: Token.inParens ([.delimiter .comma].intercalate (listTokens es))

/-- The tokens of each of some expressions. -/
def listTokens : List Expr → List (List Token)
  | [] => []
  | e :: es => e.tokens :: listTokens es

end

theorem listTokens_eq_map (es : List Expr) :
  listTokens es = es.map tokens
  := by
  induction es with
  | nil => rfl
  | cons e es ih => rw [listTokens, List.map_cons, ih]

/-- Whether an expression can be written. -/
inductive Valid : Expr → Prop where
  | identifier {name : String} (h : IsName name) : Valid (identifier name)
  | number {n : Nat} (h : n < 10 ^ maxDigits) : Valid (number n)
  | string {s : String} (h : ¬ ('"' ∈ s.toList ∧ '\'' ∈ s.toList)) : Valid (string s)
  | boolean (b : Bool) : Valid (boolean b)
  | null : Valid null
  | unary {op : UnaryOp} {e : Expr} (argument : Valid e) : Valid (unary op e)
  | binary {op : BinaryOp} {l r : Expr} (left : Valid l) (right : Valid r) :
      Valid (binary op l r)
  | assign {op : AssignOp} {l r : Expr} (target : Valid l) (h : l.isTarget = true)
      (value : Valid r) : Valid (assign op l r)
  | member {o : Expr} {name : String} (object : Valid o) (h : IsName name) :
      Valid (member o name)
  | index {o p : Expr} (object : Valid o) (property : Valid p) : Valid (index o p)
  | call {c : Expr} {es : List Expr} (callee : Valid c) (arguments : ∀ e ∈ es, Valid e) :
      Valid (call c es)
  | superCall {es : List Expr} (arguments : ∀ e ∈ es, Valid e) : Valid (superCall es)

end Expr

/-! ### Declarations -/

namespace Declaration

/-- The tokens of a declaration in its standard form. -/
def tokens (d : Declaration) : List Token :=
  match d.init with
  | none => [.identifier d.name]
  | some e => .identifier d.name :: .operator (.assign .set) :: e.tokens

/-- Whether a declaration can be written. -/
structure Valid (d : Declaration) : Prop where
  name : IsName d.name
  init : ∀ e ∈ d.init, e.Valid

end Declaration

/-! ### Statements -/

namespace Stmt

mutual

/-- The tokens of a statement in its standard form. -/
def tokens : Stmt → List Token
  | empty => [.delimiter .semicolon]
  | expression e => e.tokens ++ [.delimiter .semicolon]
  | block ss => Token.inBraces (listTokens ss)
  | declare ds =>
    .keyword .letWord
      :: ([.delimiter .comma].intercalate (ds.map Declaration.tokens) ++ [.delimiter .semicolon])
  | ifThen e s => .keyword .ifWord :: (Token.inParens e.tokens ++ s.tokens)
  | ifElse e s a =>
    .keyword .ifWord
      :: (Token.inParens e.tokens ++ s.tokens ++ .keyword .elseWord :: a.tokens)

/-- The tokens of some statements one after another. -/
def listTokens : List Stmt → List Token
  | [] => []
  | s :: ss => s.tokens ++ listTokens ss

end

/-- Whether a statement can be written. -/
inductive Valid : Stmt → Prop where
  | empty : Valid empty
  | expression {e : Expr} (h : e.Valid) : Valid (expression e)
  | block {ss : List Stmt} (body : ∀ s ∈ ss, Valid s) : Valid (block ss)
  | declare {ds : List Declaration} (h : ∀ d ∈ ds, d.Valid) (hne : ds ≠ []) :
      Valid (declare ds)
  | ifThen {e : Expr} {s : Stmt} (test : e.Valid) (consequent : Valid s) : Valid (ifThen e s)
  | ifElse {e : Expr} {s a : Stmt} (test : e.Valid) (consequent : Valid s)
      (alternate : Valid a) : Valid (ifElse e s a)

/-- Whether every alternative of a statement is attached to the condition that its text
attaches it to: no consequent with an alternative behind it is open. -/
inductive Attached : Stmt → Prop where
  | empty : Attached empty
  | expression (e : Expr) : Attached (expression e)
  | block {ss : List Stmt} (body : ∀ s ∈ ss, Attached s) : Attached (block ss)
  | declare (ds : List Declaration) : Attached (declare ds)
  | ifThen {e : Expr} {s : Stmt} (consequent : Attached s) : Attached (ifThen e s)
  | ifElse {e : Expr} {s a : Stmt} (consequent : Attached s) (closed : s.isOpen = false)
      (alternate : Attached a) : Attached (ifElse e s a)

end Stmt

/-! ### Programs -/

namespace Program

/-- The tokens of a program in its standard form. -/
def tokens (p : Program) : List Token := Stmt.listTokens p.body

/-- Whether a program can be written. -/
structure Valid (p : Program) : Prop where
  body : ∀ s ∈ p.body, s.Valid
  nonempty : p.body ≠ []

/-- Whether every alternative of a program is attached to the condition that its text
attaches it to. -/
def Attached (p : Program) : Prop := ∀ s ∈ p.body, s.Attached

end Program

end Letter
