import Letter.Json.Basic

/-!
# Trees of nodes

The interchange form of programs is a tree whose nodes are tagged with their kind and have
named fields.  A tree that comes from elsewhere need not be a program: a field may hold a
scalar, a list or a node of any kind.
-/

namespace Letter

/-- The kinds of nodes. -/
inductive Kind where
  | program
  | block
  | empty
  | expression
  | declare
  | declaration
  | condition
  | assignment
  | logical
  | binary
  | unary
  | member
  | call
  | super
  | identifier
  | number
  | string
  | boolean
  | null
  deriving DecidableEq, Repr

/-- A tree: a scalar, a list of trees, or a node whose fields are trees. -/
inductive Tree where
  | scalar (v : Scalar)
  | list (items : List Tree)
  | program (body : Tree)
  | block (body : Tree)
  | empty
  | expression (expression : Tree)
  | declare (declarations : Tree)
  | declaration (id init : Tree)
  | condition (test consequent alternate : Tree)
  | assignment (operator left right : Tree)
  | logical (operator left right : Tree)
  | binary (operator left right : Tree)
  | unary (operator argument : Tree)
  | member (computed object property : Tree)
  | call (callee arguments : Tree)
  | super
  | identifier (name : Tree)
  | number (value : Tree)
  | string (value : Tree)
  | boolean (value : Tree)
  | null

namespace Kind

/-- All kinds of nodes. -/
def all : List Kind :=
  [program, block, empty, expression, declare, declaration, condition, assignment,
   logical, binary, unary, member, call, super, identifier, number, string, boolean, null]

/-- The tag of a kind. -/
def tag : Kind → String
  | program => "Program"
  | block => "BlockStatement"
  | empty => "EmptyStatement"
  | expression => "ExpressionStatement"
  | declare => "VariableStatement"
  | declaration => "VariableDeclaration"
  | condition => "IfStatement"
  | assignment => "AssignmentExpression"
  | logical => "LogicalExpression"
  | binary => "BinaryExpression"
  | unary => "UnaryExpression"
  | member => "MemberExpression"
  | call => "CallExpression"
  | super => "Super"
  | identifier => "Identifier"
  | number => "NumericLiteral"
  | string => "StringLiteral"
  | boolean => "BooleanLiteral"
  | null => "NullLiteral"

/-- The kind of a given tag. -/
def ofTag? (s : String) : Option Kind := all.find? fun k => k.tag == s

/-- A field of a node: its name, and the value it has when it is left out, if it may be. -/
structure Field where
  /-- The name of the field. -/
  name : String
  /-- The value of the field when it is left out. -/
  default? : Option Tree

/-- The fields of a kind of node, in order. -/
def fields : Kind → List Field
  | program | block => [⟨"body", some (.list [])⟩]
  | expression => [⟨"expression", none⟩]
  | declare => [⟨"declarations", some (.list [])⟩]
  | declaration => [⟨"id", none⟩, ⟨"init", some (.scalar .null)⟩]
  | condition => [⟨"test", none⟩, ⟨"consequent", none⟩, ⟨"alternate", some (.scalar .null)⟩]
  | assignment | logical | binary => [⟨"operator", none⟩, ⟨"left", none⟩, ⟨"right", none⟩]
  | unary => [⟨"operator", none⟩, ⟨"argument", none⟩]
  | member => [⟨"computed", none⟩, ⟨"object", none⟩, ⟨"property", none⟩]
  | call => [⟨"callee", none⟩, ⟨"arguments", some (.list [])⟩]
  | identifier => [⟨"name", none⟩]
  | number | string | boolean => [⟨"value", none⟩]
  | empty | super | null => []

/-- Whether the nodes of a kind are statements or programs. -/
def isStatement : Kind → Bool
  | program | block | empty | expression | declare | condition => true
  | _ => false

/-- The node of a kind whose fields are given by their names. -/
def node (field : String → Tree) : Kind → Tree
  | program => .program (field "body")
  | block => .block (field "body")
  | empty => .empty
  | expression => .expression (field "expression")
  | declare => .declare (field "declarations")
  | declaration => .declaration (field "id") (field "init")
  | condition => .condition (field "test") (field "consequent") (field "alternate")
  | assignment => .assignment (field "operator") (field "left") (field "right")
  | logical => .logical (field "operator") (field "left") (field "right")
  | binary => .binary (field "operator") (field "left") (field "right")
  | unary => .unary (field "operator") (field "argument")
  | member => .member (field "computed") (field "object") (field "property")
  | call => .call (field "callee") (field "arguments")
  | super => .super
  | identifier => .identifier (field "name")
  | number => .number (field "value")
  | string => .string (field "value")
  | boolean => .boolean (field "value")
  | null => .null

end Kind

namespace Tree

/-- The tree of a text. -/
def text (s : String) : Tree := scalar (.text s)

/-- The kind of a node. -/
def kind? : Tree → Option Kind
  | scalar _ | list _ => none
  | program _ => some .program
  | block _ => some .block
  | empty => some .empty
  | expression _ => some .expression
  | declare _ => some .declare
  | declaration _ _ => some .declaration
  | condition _ _ _ => some .condition
  | assignment _ _ _ => some .assignment
  | logical _ _ _ => some .logical
  | binary _ _ _ => some .binary
  | unary _ _ => some .unary
  | member _ _ _ => some .member
  | call _ _ => some .call
  | super => some .super
  | identifier _ => some .identifier
  | number _ => some .number
  | string _ => some .string
  | boolean _ => some .boolean
  | null => some .null

/-- The word for the type of a tree; that of a node is its tag. -/
def typeName : Tree → String
  | scalar v => v.typeName
  | list _ => "list"
  | node => (node.kind?.map Kind.tag).getD ""

/-- Whether a tree counts as true: the empty list does not, and every node does. -/
def truth : Tree → Bool
  | scalar v => v.truth
  | list items => !items.isEmpty
  | _ => true

/-! ### Equality -/

mutual

/-- Whether two trees have the same shape and the same scalars. -/
def same : Tree → Tree → Bool
  | scalar v, scalar w => v.same w
  | list ts, list us => sameItems ts us
  | program b, program c => same b c
  | block b, block c => same b c
  | empty, empty => true
  | expression e, expression f => same e f
  | declare d, declare e => same d e
  | declaration i e, declaration j f => same i j && same e f
  | condition t c a, condition u d b => same t u && same c d && same a b
  | assignment o l r, assignment p m s => same o p && same l m && same r s
  | logical o l r, logical p m s => same o p && same l m && same r s
  | binary o l r, binary p m s => same o p && same l m && same r s
  | unary o a, unary p b => same o p && same a b
  | member c o p, member d q r => same c d && same o q && same p r
  | call c as, call d bs => same c d && same as bs
  | super, super => true
  | identifier n, identifier m => same n m
  | number v, number w => same v w
  | string v, string w => same v w
  | boolean v, boolean w => same v w
  | null, null => true
  | _, _ => false

/-- Whether two lists have the same trees. -/
def sameItems : List Tree → List Tree → Bool
  | [], [] => true
  | t :: ts, u :: us => same t u && sameItems ts us
  | _, _ => false

end

end Tree

end Letter
