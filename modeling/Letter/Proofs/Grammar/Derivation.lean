import Letter.Proofs.Text.CharClass
import Letter.Syntax
import Letter.Token.Basic
import Mathlib.Tactic.Ring

/-!
# The grammar as a relation

`Derives ts p` says that the tokens `ts` are derived as the phrase `p` in the layered
grammar of Letter: each layer of expressions is one constructor for what the next tighter
layer derives and one for each form of its own.  A phrase is a part of a program together
with the place of the grammar where it stands.

What the grammar says of single tokens is listed here as well: which operators a level has, how the
operators are written that stand before their operand, what can be assigned to, and which number a
numeral writes.  The parser has its own tables of all this, and each is shown to say the same.

The grammar has no bound on numerals, and it says nothing about the order in which tokens
are looked at.
-/

namespace Letter

/-! ### Operators, targets and numerals -/

/-- The operators of a level. -/
def Level.operators : Level → List BinaryOp
  | disjunction => [.or]
  | conjunction => [.and]
  | equality => [.eq, .ne]
  | relation => [.lt, .le, .gt, .ge]
  | sum => [.add, .sub]
  | product => [.mul, .div]

/-- An operator is one of those of the level at which it is read. -/
theorem Level.mem_operators_iff {level : Level} {op : BinaryOp} :
  op ∈ level.operators ↔ op.level = level
  := by cases level <;> cases op <;> decide

/-- Every operator with two operands is among those of its level. -/
theorem BinaryOp.mem_operators_level (op : BinaryOp) :
  op ∈ op.level.operators
  := Level.mem_operators_iff.2 rfl

/-- The operator that is written before an operand. -/
def UnaryOp.operator : UnaryOp → Operator
  | plus => .binary .add
  | minus => .binary .sub
  | not => .not

/-- An operator is read as one before its operand if it is written for one. -/
theorem Operator.unary?_eq_some_iff {o : Operator} {op : UnaryOp} :
  o.unary? = some op ↔ op.operator = o
  := by
  constructor
  · intro h
    unfold Operator.unary? at h
    split at h <;> cases h <;> rfl
  · rintro rfl
    cases op <;> rfl

/-- What can be assigned to: a variable, or a member of an object. -/
inductive IsTarget : Expr → Prop where
  | identifier (name : String) : IsTarget (.identifier name)
  | member (object : Expr) (name : String) : IsTarget (.member object name)
  | index (object property : Expr) : IsTarget (.index object property)

/-- What can be assigned to is what the parser accepts before the sign of an assignment. -/
theorem isTarget_iff {e : Expr} :
  IsTarget e ↔ e.isTarget = true
  := by
  constructor
  · rintro (_ | _ | _) <;> rfl
  · intro h
    cases e with
    | identifier name => exact .identifier name
    | member object name => exact .member object name
    | index object property => exact .index object property
    | _ => cases h

/-- The number that digits write: each counts as often as its place says. -/
def placeValue : List Char → Nat
  | [] => 0
  | c :: later => (digitValue? c).getD 0 * 10 ^ later.length + placeValue later

/-- A further digit stands one place to the right of the others. -/
theorem placeValue_append (s : List Char) (c : Char) :
  placeValue (s ++ [c]) = 10 * placeValue s + (digitValue? c).getD 0
  := by
  induction s with
  | nil => simp [placeValue]
  | cons d s ih =>
    rw [List.cons_append, placeValue, placeValue, ih, List.length_append, List.length_singleton,
      Nat.pow_succ]
    ring

/-- Reading digits one after another comes to the number that they write. -/
theorem numeralValue_eq_placeValue (digits : List Char) :
  numeralValue digits = placeValue digits
  := by
  induction digits using List.reverseRecOn with
  | nil => rfl
  | append_singleton s c ih => rw [numeralValue_append, placeValue_append, ih]

/-! ### Phrases -/

/-- The layers of expressions, loosest first. -/
inductive Layer where
  | assignment
  | binary (level : Level)
  | unary
  | call
  | member
  | primary
  deriving DecidableEq, Repr

/-- The layer of the operands to the right of the operators of a level. -/
def Level.tighter : Level → Layer
  | disjunction => .binary .conjunction
  | conjunction => .binary .equality
  | equality => .binary .relation
  | relation => .binary .sum
  | sum => .binary .product
  | product => .unary

/-- What holds of the layer of unary operators, and of a layer of binary operators if it holds
of the next tighter one, holds of all layers of binary operators. -/
theorem Layer.binary_of_tighter {P : Layer → Prop} (unary : P .unary)
    (binary : ∀ level : Level, P level.tighter → P (.binary level)) (level : Level) :
  P (.binary level)
  := by
  have hproduct := binary .product unary
  have hsum := binary .sum hproduct
  have hrelation := binary .relation hsum
  have hequality := binary .equality hrelation
  have hconjunction := binary .conjunction hequality
  have hdisjunction := binary .disjunction hconjunction
  cases level <;> assumption

/-- A part of a program at a place of the grammar. -/
inductive Phrase where
  | program (p : Program)
  /-- Statements one after another, at least one. -/
  | statements (ss : List Stmt)
  | statement (s : Stmt)
  /-- Declarations separated by commas, at least one. -/
  | declarations (ds : List Declaration)
  | declaration (d : Declaration)
  | expression (layer : Layer) (e : Expr)
  /-- The arguments of a call, with the parentheses around them. -/
  | arguments (es : List Expr)
  /-- Expressions separated by commas, at least one. -/
  | expressions (es : List Expr)

/-! ### Tokens -/

namespace Token

/-- Tokens between two delimiters. -/
def enclosed (left right : Delimiter) (ts : List Token) : List Token :=
  delimiter left :: (ts ++ [delimiter right])

theorem forall_mem_of_enclosed {P : Token → Prop} {left right : Delimiter} {ts : List Token}
    (h : ∀ t ∈ enclosed left right ts, P t) :
  ∀ t ∈ ts, P t
  := by
  rw [enclosed, List.forall_mem_cons, List.forall_mem_append] at h
  apply h.2.1

/-- Tokens in parentheses. -/
def inParens (ts : List Token) : List Token := enclosed .leftParen .rightParen ts

/-- Tokens in braces. -/
def inBraces (ts : List Token) : List Token := enclosed .leftBrace .rightBrace ts

/-- Tokens in brackets. -/
def inBrackets (ts : List Token) : List Token := enclosed .leftBracket .rightBracket ts

/-- Whether a token is no numeral with more digits than are read. -/
def Short : Token → Prop
  | number digits => digits.length ≤ maxDigits
  | _ => True

theorem forall_short_enclosed {left right : Delimiter} {ts : List Token} :
  (∀ t ∈ enclosed left right ts, t.Short) ↔ ∀ t ∈ ts, t.Short
  := by simp [enclosed, Short, or_imp, forall_and]

end Token

/-! ### The relation -/

open Token

/-- The tokens are derived as the phrase. -/
inductive Derives : List Token → Phrase → Prop where
  | program {ts : List Token} {ss : List Stmt} (body : Derives ts (.statements ss)) :
      Derives ts (.program ⟨ss⟩)
  | lastStatement {ts : List Token} {s : Stmt} (statement : Derives ts (.statement s)) :
      Derives ts (.statements [s])
  | nextStatement {ts us : List Token} {s : Stmt} {ss : List Stmt}
      (statement : Derives ts (.statement s)) (later : Derives us (.statements ss)) :
      Derives (ts ++ us) (.statements (s :: ss))
  -- statements
  | empty : Derives [delimiter .semicolon] (.statement .empty)
  | emptyBlock : Derives (inBraces []) (.statement (.block []))
  | block {ts : List Token} {ss : List Stmt} (body : Derives ts (.statements ss)) :
      Derives (inBraces ts) (.statement (.block ss))
  | declare {ts : List Token} {ds : List Declaration} (list : Derives ts (.declarations ds)) :
      Derives (keyword .letWord :: (ts ++ [delimiter .semicolon])) (.statement (.declare ds))
  | ifThen {ts us : List Token} {e : Expr} {s : Stmt}
      (test : Derives ts (.expression .assignment e))
      (consequent : Derives us (.statement s)) :
      Derives (keyword .ifWord :: (inParens ts ++ us)) (.statement (.ifThen e s))
  /-- The consequent must not be open: the alternative would belong to a condition inside
  it. -/
  | ifElse {ts us vs : List Token} {e : Expr} {s a : Stmt}
      (test : Derives ts (.expression .assignment e))
      (consequent : Derives us (.statement s)) (closed : s.isOpen = false)
      (alternate : Derives vs (.statement a)) :
      Derives (keyword .ifWord :: (inParens ts ++ us ++ keyword .elseWord :: vs))
        (.statement (.ifElse e s a))
  | expressionStatement {ts : List Token} {e : Expr}
      (expression : Derives ts (.expression .assignment e)) :
      Derives (ts ++ [delimiter .semicolon]) (.statement (.expression e))
  -- declarations
  | lastDeclaration {ts : List Token} {d : Declaration}
      (declaration : Derives ts (.declaration d)) : Derives ts (.declarations [d])
  | nextDeclaration {ts us : List Token} {d : Declaration} {ds : List Declaration}
      (declaration : Derives ts (.declaration d)) (later : Derives us (.declarations ds)) :
      Derives (ts ++ delimiter .comma :: us) (.declarations (d :: ds))
  | bareName {name : String} :
      Derives [identifier name] (.declaration ⟨name, none⟩)
  | initialized {name : String} {ts : List Token} {e : Expr}
      (init : Derives ts (.expression .assignment e)) :
      Derives (identifier name :: operator (.assign .set) :: ts) (.declaration ⟨name, some e⟩)
  -- assignments
  | noAssignment {ts : List Token} {e : Expr}
      (operand : Derives ts (.expression (.binary .disjunction) e)) :
      Derives ts (.expression .assignment e)
  | assignment {ts us : List Token} {op : AssignOp} {l r : Expr}
      (target : Derives ts (.expression (.binary .disjunction) l)) (valid : IsTarget l)
      (value : Derives us (.expression .assignment r)) :
      Derives (ts ++ operator (.assign op) :: us) (.expression .assignment (.assign op l r))
  -- binary operators
  | noBinary {level : Level} {ts : List Token} {e : Expr}
      (operand : Derives ts (.expression level.tighter e)) :
      Derives ts (.expression (.binary level) e)
  | binary {level : Level} {op : BinaryOp} {ts us : List Token} {l r : Expr}
      (left : Derives ts (.expression (.binary level) l)) (known : op ∈ level.operators)
      (right : Derives us (.expression level.tighter r)) :
      Derives (ts ++ operator (.binary op) :: us) (.expression (.binary level) (.binary op l r))
  -- unary operators
  | noUnary {ts : List Token} {e : Expr} (operand : Derives ts (.expression .call e)) :
      Derives ts (.expression .unary e)
  | unary {op : UnaryOp} {ts : List Token} {e : Expr}
      (argument : Derives ts (.expression .unary e)) :
      Derives (operator op.operator :: ts) (.expression .unary (.unary op e))
  -- calls
  | noCall {ts : List Token} {e : Expr} (member : Derives ts (.expression .member e)) :
      Derives ts (.expression .call e)
  | call {ts us : List Token} {f : Expr} {es : List Expr}
      (callee : Derives ts (.expression .call f)) (arguments : Derives us (.arguments es)) :
      Derives (ts ++ us) (.expression .call (.call f es))
  | superCall {us : List Token} {es : List Expr} (arguments : Derives us (.arguments es)) :
      Derives (keyword .superWord :: us) (.expression .call (.superCall es))
  | noArguments : Derives (inParens []) (.arguments [])
  | someArguments {ts : List Token} {es : List Expr} (list : Derives ts (.expressions es)) :
      Derives (inParens ts) (.arguments es)
  | lastExpression {ts : List Token} {e : Expr}
      (expression : Derives ts (.expression .assignment e)) : Derives ts (.expressions [e])
  | nextExpression {ts us : List Token} {e : Expr} {es : List Expr}
      (expression : Derives ts (.expression .assignment e))
      (later : Derives us (.expressions es)) :
      Derives (ts ++ delimiter .comma :: us) (.expressions (e :: es))
  -- members
  | noMember {ts : List Token} {e : Expr} (primary : Derives ts (.expression .primary e)) :
      Derives ts (.expression .member e)
  | member {ts : List Token} {o : Expr} {name : String}
      (object : Derives ts (.expression .member o)) :
      Derives (ts ++ [delimiter .dot, identifier name]) (.expression .member (.member o name))
  | index {ts us : List Token} {o p : Expr} (object : Derives ts (.expression .member o))
      (property : Derives us (.expression .assignment p)) :
      Derives (ts ++ inBrackets us) (.expression .member (.index o p))
  -- primary expressions
  | parenthesized {ts : List Token} {e : Expr}
      (expression : Derives ts (.expression .assignment e)) :
      Derives (inParens ts) (.expression .primary e)
  | identifier {name : String} :
      Derives [identifier name] (.expression .primary (.identifier name))
  | number {digits : String} :
      Derives [number digits] (.expression .primary (.number (placeValue digits.toList)))
  | string {q : Quote} {contents : String} :
      Derives [string q contents] (.expression .primary (.string contents))
  | trueWord : Derives [keyword .trueWord] (.expression .primary (.boolean true))
  | falseWord : Derives [keyword .falseWord] (.expression .primary (.boolean false))
  | nullWord : Derives [keyword .nullWord] (.expression .primary .null)

namespace Derives

/-- Nothing is derived from no tokens. -/
theorem ne_nil {ts : List Token} {p : Phrase} (h : Derives ts p) :
  ts ≠ []
  := by
  induction h <;> simp_all [inParens, inBraces, inBrackets, enclosed]

end Derives

end Letter
