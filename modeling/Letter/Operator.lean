/-!
# Operators

The operators of Letter: twelve that join two operands, grouped in six levels, three that
stand before one operand, and five that assign.
-/

namespace Letter

/-- The levels of the operators with two operands, loosest first. -/
inductive Level where
  | disjunction
  | conjunction
  | equality
  | relation
  | sum
  | product
  deriving DecidableEq, Repr

/-- The operators with two operands. -/
inductive BinaryOp where
  | or
  | and
  | eq
  | ne
  | lt
  | le
  | gt
  | ge
  | add
  | sub
  | mul
  | div
  deriving DecidableEq, Repr

namespace BinaryOp

/-- The operators with two operands, loosest level first. -/
def all : List BinaryOp := [or, and, eq, ne, lt, le, gt, ge, add, sub, mul, div]

/-- The spelling of an operator. -/
def text : BinaryOp → String
  | or => "||"
  | and => "&&"
  | eq => "=="
  | ne => "!="
  | lt => "<"
  | le => "<="
  | gt => ">"
  | ge => ">="
  | add => "+"
  | sub => "-"
  | mul => "*"
  | div => "/"

/-- The operator of a given spelling. -/
def ofText? (s : String) : Option BinaryOp := all.find? fun o => o.text == s

/-- The level of an operator. -/
def level : BinaryOp → Level
  | or => .disjunction
  | and => .conjunction
  | eq | ne => .equality
  | lt | le | gt | ge => .relation
  | add | sub => .sum
  | mul | div => .product

/-- Whether an operator joins truth values. -/
def isLogical : BinaryOp → Bool
  | or | and => true
  | _ => false

end BinaryOp

/-- The operators that stand before their operand. -/
inductive UnaryOp where
  | plus
  | minus
  | not
  deriving DecidableEq, Repr

/-- The spelling of an operator that stands before its operand. -/
def UnaryOp.text : UnaryOp → String
  | plus => "+"
  | minus => "-"
  | not => "!"

/-- The operators of assignment: plain, or joined with an arithmetic operator. -/
inductive AssignOp where
  | set
  | mul
  | div
  | add
  | sub
  deriving DecidableEq, Repr

/-- The spelling of an operator of assignment. -/
def AssignOp.text : AssignOp → String
  | set => "="
  | mul => "*="
  | div => "/="
  | add => "+="
  | sub => "-="

/-- An operator as it is written, before it is known how many operands it has. -/
inductive Operator where
  | binary (o : BinaryOp)
  | assign (o : AssignOp)
  | not
  deriving DecidableEq, Repr

namespace Operator

/-- The spelling of an operator. -/
def text : Operator → String
  | binary o => o.text
  | assign o => o.text
  | not => "!"

/-- The operator read as one that stands before its operand. -/
def unary? : Operator → Option UnaryOp
  | binary .add => some .plus
  | binary .sub => some .minus
  | not => some .not
  | _ => none

end Operator

/-- The classes in which operators are told apart by the grammar. -/
inductive OperatorClass where
  | binary (level : Level)
  | not
  | simpleAssign
  | compoundAssign
  deriving DecidableEq, Repr

namespace OperatorClass

/-- The classes, in the order in which they are tried. -/
def all : List OperatorClass :=
  [binary .equality, binary .conjunction, binary .disjunction, not, simpleAssign,
   compoundAssign, binary .relation, binary .sum, binary .product]

/-- The operators of a class, an operator before those whose spelling begins its own. -/
def operators : OperatorClass → List Operator
  | binary .disjunction => [.binary .or]
  | binary .conjunction => [.binary .and]
  | binary .equality => [.binary .eq, .binary .ne]
  | binary .relation => [.binary .ge, .binary .gt, .binary .le, .binary .lt]
  | binary .sum => [.binary .add, .binary .sub]
  | binary .product => [.binary .mul, .binary .div]
  | not => [.not]
  | simpleAssign => [.assign .set]
  | compoundAssign => [.assign .mul, .assign .div, .assign .add, .assign .sub]

/-- The name of a class. -/
def name : OperatorClass → String
  | binary .disjunction => "LOGICAL_OR"
  | binary .conjunction => "LOGICAL_AND"
  | binary .equality => "EQUALITY_OPERATOR"
  | binary .relation => "RELATIONAL_OPERATOR"
  | binary .sum => "ADDITIVE_OPERATOR"
  | binary .product => "MULTIPLICATIVE_OPERATOR"
  | not => "LOGICAL_NOT"
  | simpleAssign => "SIMPLE_ASSIGN"
  | compoundAssign => "COMPLEX_ASSIGN"

end OperatorClass

/-- The class of an operator. -/
def Operator.operatorClass : Operator → OperatorClass
  | binary o => .binary o.level
  | assign .set => .simpleAssign
  | assign _ => .compoundAssign
  | not => .not

end Letter
