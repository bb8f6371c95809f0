import Letter.Operator

/-!
# Programs

The abstract syntax of Letter.  Parentheses, blanks and comments leave no trace in it.  An
assignment keeps the expression to its left as its target; which expressions may stand
there is said by `Expr.isTarget`.
-/

namespace Letter

/-- An expression. -/
inductive Expr where
  | identifier (name : String)
  | number (value : Nat)
  | string (value : String)
  | boolean (value : Bool)
  | null
  | unary (op : UnaryOp) (argument : Expr)
  | binary (op : BinaryOp) (left right : Expr)
  | assign (op : AssignOp) (target value : Expr)
  /-- A member of an object, by its name. -/
  | member (object : Expr) (property : String)
  /-- A member of an object, by the value of an expression. -/
  | index (object property : Expr)
  | call (callee : Expr) (arguments : List Expr)
  /-- A call of the function that the present one overrides. -/
  | superCall (arguments : List Expr)

/-- Whether an expression may stand to the left of an assignment. -/
def Expr.isTarget : Expr → Bool
  | identifier _ | member _ _ | index _ _ => true
  | _ => false

/-- The declaration of a variable. -/
structure Declaration where
  /-- The variable. -/
  name : String
  /-- Its first value. -/
  init : Option Expr

/-- A statement. -/
inductive Stmt where
  | empty
  | expression (e : Expr)
  | block (body : List Stmt)
  | declare (declarations : List Declaration)
  /-- A condition without an alternative. -/
  | ifThen (test : Expr) (consequent : Stmt)
  /-- A condition with an alternative. -/
  | ifElse (test : Expr) (consequent alternate : Stmt)

/-- Whether an alternative that follows a statement belongs to a condition inside it. -/
def Stmt.isOpen : Stmt → Bool
  | ifThen _ _ => true
  | ifElse _ _ alternate => alternate.isOpen
  | _ => false

/-- A program. -/
structure Program where
  /-- The statements of the program, in order. -/
  body : List Stmt

end Letter
