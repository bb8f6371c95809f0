import Letter.Text.DecimalDigit
import Letter.Tree.Basic

/-!
# The literal form of a tree

Messages show a tree in its literal form, in which a node is its tag with its fields in
order.  Where a text is expected, a tree that is no text is written in its literal form.  There is
none if an integer in it has more than `maxDigits` digits.
-/

namespace Letter

/-- The literal form of a node, given its kind and the literal forms of its fields. -/
def Kind.literal (kind : Kind) (values : List String) : String :=
  kind.tag ++ "("
    ++ ", ".intercalate (kind.fields.zipWith (fun f v => f.name ++ "=" ++ v) values) ++ ")"

/-- Whether a scalar is an integer of more than `maxDigits` digits. -/
def Scalar.isLong : Scalar → Bool
  | .integer n => maxDigits < (Nat.toDigits 10 n.natAbs).length
  | _ => false

namespace Tree

mutual

/-- The literal form of a tree. -/
def literal : Tree → String
  | scalar v => v.literal
  | list items => bracketed (literals items)
  | program body => Kind.program.literal [literal body]
  | block body => Kind.block.literal [literal body]
  | empty => Kind.empty.literal []
  | expression e => Kind.expression.literal [literal e]
  | declare ds => Kind.declare.literal [literal ds]
  | declaration id init => Kind.declaration.literal [literal id, literal init]
  | condition test c a => Kind.condition.literal [literal test, literal c, literal a]
  | assignment o l r => Kind.assignment.literal [literal o, literal l, literal r]
  | logical o l r => Kind.logical.literal [literal o, literal l, literal r]
  | binary o l r => Kind.binary.literal [literal o, literal l, literal r]
  | unary o a => Kind.unary.literal [literal o, literal a]
  | member c o p => Kind.member.literal [literal c, literal o, literal p]
  | call c as => Kind.call.literal [literal c, literal as]
  | super => Kind.super.literal []
  | identifier name => Kind.identifier.literal [literal name]
  | number v => Kind.number.literal [literal v]
  | string v => Kind.string.literal [literal v]
  | boolean v => Kind.boolean.literal [literal v]
  | null => Kind.null.literal []

/-- The literal forms of trees. -/
def literals : List Tree → List String
  | [] => []
  | t :: ts => literal t :: literals ts

end

mutual

/-- Whether the literal form of a tree shows an integer of more than `maxDigits` digits. -/
def showsLong : Tree → Bool
  | scalar v => v.isLong
  | list ts => listShowsLong ts
  | empty | super | null => false
  | program t | block t | expression t | declare t | identifier t | number t | string t
  | boolean t => showsLong t
  | declaration t u | unary t u | call t u => showsLong t || showsLong u
  | condition t u v | assignment t u v | logical t u v | binary t u v | member t u v =>
    showsLong t || showsLong u || showsLong v

/-- Whether one of the literal forms of trees shows an integer of more than `maxDigits` digits. -/
def listShowsLong : List Tree → Bool
  | [] => false
  | t :: ts => showsLong t || listShowsLong ts

end

/-- How a tree is written where a text is expected. -/
def plain : Tree → String
  | scalar v => v.plain
  | other => other.literal

/-- Whether a tree is a given text. -/
def isText (s : String) : Tree → Bool
  | scalar (.text t) => t = s
  | _ => false

end Tree

end Letter
