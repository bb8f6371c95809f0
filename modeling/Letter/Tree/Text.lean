import Letter.Operator
import Letter.Text.Margin
import Letter.Tree.Literal

/-!
# The text of an expression

An expression is written on one line, with parentheses only around operands that bind
looser than their place requires.  A tree that is no expression has no text; the error
tells what was met first when reading the tree from left to right.

An identifier is written as its name, which need not be a text.  It then stands in its
literal form wherever it is part of something longer, but it cannot be listed.  What has no literal
form is met only when that is written, after all that stands before it.
-/

namespace Letter

/-- Why a tree has no text. -/
inductive LayoutError where
  /-- A node stands where a statement is expected. -/
  | noStatement (kind : Kind)
  /-- A node stands where an expression is expected. -/
  | noExpression (kind : Kind)
  /-- A tree has no field of a name. -/
  | noField (typeName field : String)
  /-- A tree stands where a list is expected. -/
  | notList (typeName : String)
  /-- A tree stands where a text is expected. -/
  | notText (typeName : String)
  /-- An operator, in its literal form, that has no binding strength. -/
  | unknownOperator (literal : String)
  /-- An operator is a list or a node, and cannot be looked up. -/
  | compoundOperator (typeName : String)
  /-- A text, or a list of texts, holds both quotes; it is told in its literal form. -/
  | bothQuotes (literal : String)
  /-- What is listed at a place, counted from zero, is no text. -/
  | notTextItem (index : Nat) (typeName : String)
  /-- An integer has more than `maxDigits` digits. -/
  | longInteger
  /-- There is no margin for a line. -/
  | noMargin (e : MarginError)
  deriving DecidableEq, Repr

/-- The text of an error. -/
def LayoutError.message : LayoutError → String
  | noStatement kind => "No emitter for statement node: " ++ kind.tag
  | noExpression kind => "No emitter for expression node: " ++ kind.tag
  | noField typeName field =>
    "'" ++ typeName ++ "' object has no attribute '" ++ field ++ "'"
  | notList typeName => "'" ++ typeName ++ "' object is not iterable"
  | notText typeName => "argument of type '" ++ typeName ++ "' is not iterable"
  | unknownOperator literal => literal
  | compoundOperator typeName => "unhashable type: '" ++ typeName ++ "'"
  | bothQuotes literal => "String literal cannot hold both quote kinds: " ++ literal
  | notTextItem index typeName =>
    "sequence item " ++ toString index ++ ": expected str instance, " ++ typeName ++ " found"
  | longInteger =>
    "Exceeds the limit (" ++ toString maxDigits ++ " digits) for integer string conversion; "
      ++ "use sys.set_int_max_str_digits() to increase the limit"
  | noMargin e => e.message

/-- The word for the kind of an error. -/
def LayoutError.kindName : LayoutError → String
  | noStatement _ | noExpression _ => "NotImplementedError"
  | noField _ _ => "AttributeError"
  | notList _ | notText _ | compoundOperator _ | notTextItem _ _ => "TypeError"
  | unknownOperator _ => "KeyError"
  | bothQuotes _ | longInteger => "ValueError"
  | noMargin e => e.kindName

/-! ### Binding strength -/

/-- The binding strength of an assignment. -/
def assignmentStrength : Nat := 1

/-- The binding strength of an operator with two operands. -/
def BinaryOp.strength : BinaryOp → Nat
  | or => 2
  | and => 3
  | eq | ne => 4
  | lt | le | gt | ge => 5
  | add | sub => 6
  | mul | div => 7

/-- The binding strength of an operator before its operand. -/
def unaryStrength : Nat := 8

/-- The binding strength of a call. -/
def callStrength : Nat := 9

/-- The binding strength of a member of an object. -/
def memberStrength : Nat := 10

/-- The binding strength of what has no operands. -/
def primaryStrength : Nat := 11

namespace Tree

/-- The binding strength of an operator given by a tree. -/
def operatorStrength : Tree → Except LayoutError Nat
  | scalar (.text s) =>
    match BinaryOp.ofText? s with
    | some o => .ok o.strength
    | none => .error (.unknownOperator (quoted s))
  | scalar v => .error (.unknownOperator v.literal)
  | other => .error (.compoundOperator other.typeName)

/-- How tightly a tree binds when it is an operand. -/
def strength : Tree → Except LayoutError Nat
  | assignment _ _ _ => .ok assignmentStrength
  | logical o _ _ | binary o _ _ => o.operatorStrength
  | unary _ _ => .ok unaryStrength
  | call _ _ => .ok callStrength
  | member _ _ _ => .ok memberStrength
  | _ => .ok primaryStrength

/-- The text of an operand in a place that requires a binding strength. -/
def parenthesized (minimum : Nat) (operand : Tree) (text : String) :
    Except LayoutError String := do
  if (← operand.strength) < minimum then return "(" ++ text ++ ")" else return text

/-- The strength that its place requires of a callee; calls of calls and of the overridden
function need no parentheses. -/
def calleeStrength : Tree → Nat
  | call _ _ | super => 0
  | _ => memberStrength

/-- What a tree is written as where a text is expected, if that can be written. -/
def shown (t : Tree) : Except LayoutError String :=
  if t.showsLong then .error .longInteger else .ok t.plain

/-- A text between quotes, given whether it holds either quote itself. -/
def betweenQuotes (holdsDouble holdsSingle : Bool) (t : Tree) : Except LayoutError String := do
  let text ← t.shown
  if !holdsDouble then return "\"" ++ text ++ "\""
  else if !holdsSingle then return "'" ++ text ++ "'"
  else throw (.bothQuotes t.literal)

/-- A text between quotes that it does not hold; a list holds those that are among its
items. -/
def quotedText : Tree → Except LayoutError String
  | scalar (.text s) =>
    betweenQuotes (s.toList.contains '"') (s.toList.contains '\'') (.text s)
  | list items =>
    betweenQuotes (items.any (isText "\"")) (items.any (isText "'")) (list items)
  | other => .error (.notText other.typeName)

/-! ### Names that are no texts -/

/-- The name of an identifier, if it is no text. -/
def oddName? : Tree → Option Tree
  | identifier (scalar (.text _)) => none
  | identifier name => some name
  | _ => none

/-- A tree as part of something longer, given what it is written as. -/
def within (t : Tree) (text : String) : Except LayoutError String :=
  match t.oddName? with
  | some name => name.shown
  | none => .ok text

/-- Only what is shown of a name that is no text has a part in what a tree is within a text. -/
theorem within_eq_ok {t : Tree} (h : t.oddName? = none) (text : String) :
  t.within text = .ok text
  := by rw [within, h]

/-- Two operands with an operator between them, given what the operands are written as. -/
def joined (o left right : Tree) (l r : String) : Except LayoutError String := do
  return (← left.within l) ++ " " ++ (← o.shown) ++ " " ++ (← right.within r)

/-- Operands whose names are texts are put together with an operator and blanks. -/
theorem joined_eq_ok {left right : Tree} (hleft : left.oddName? = none)
    (hright : right.oddName? = none) (op l r : String) :
  joined (text op) left right l r = .ok (l ++ " " ++ op ++ " " ++ r)
  := by
  rw [joined, within_eq_ok hleft, within_eq_ok hright]
  rfl

/-- Why expressions cannot be listed after a number of others: one of them is a name that is
no text. -/
def unlistable? (index : Nat) : List Tree → Option LayoutError
  | [] => none
  | t :: later =>
    match t.oddName? with
    | some name => some (.notTextItem index name.typeName)
    | none => unlistable? (index + 1) later

/-- The texts of some expressions, if these can be listed. -/
def listed (items : List Tree) (texts : List String) : Except LayoutError (List String) :=
  match unlistable? 0 items with
  | some e => .error e
  | none => .ok texts

/-! ### Expressions -/

mutual

/-- The text of an expression. -/
def exprText : Tree → Except LayoutError String
  | assignment o left right => do
    let l ← left.parenthesized memberStrength (← exprText left)
    let r ← right.parenthesized assignmentStrength (← exprText right)
    joined o left right l r
  | logical o left right => do
    let level ← o.operatorStrength
    let l ← left.parenthesized level (← exprText left)
    let r ← right.parenthesized (level + 1) (← exprText right)
    joined o left right l r
  | binary o left right => do
    let level ← o.operatorStrength
    let l ← left.parenthesized level (← exprText left)
    let r ← right.parenthesized (level + 1) (← exprText right)
    joined o left right l r
  | unary o argument => do
    let sign ← o.shown
    let a ← argument.parenthesized unaryStrength (← exprText argument)
    return sign ++ (← argument.within a)
  | member computed object property => do
    let o ← object.parenthesized memberStrength (← exprText object)
    let o ← object.within o
    let p ← property.within (← exprText property)
    return if computed.truth then o ++ "[" ++ p ++ "]" else o ++ "." ++ p
  | call callee arguments => do
    let head ← callee.parenthesized callee.calleeStrength (← exprText callee)
    let texts ← argumentTexts arguments
    return (← callee.within head) ++ "(" ++ ", ".intercalate texts ++ ")"
  | super => return "super"
  | identifier name => return name.plain
  | number value => value.shown
  | string value => value.quotedText
  | boolean value => return if value.truth then "true" else "false"
  | null => return "null"
  | scalar v => throw (.noField v.typeName "type")
  | list _ => throw (.noField "list" "type")
  | program _ => throw (.noExpression .program)
  | block _ => throw (.noExpression .block)
  | empty => throw (.noExpression .empty)
  | expression _ => throw (.noExpression .expression)
  | declare _ => throw (.noExpression .declare)
  | declaration _ _ => throw (.noExpression .declaration)
  | condition _ _ _ => throw (.noExpression .condition)

/-- The texts of the arguments of a call. -/
def argumentTexts : Tree → Except LayoutError (List String)
  | list items => do listed items (← exprTexts items)
  | scalar (.text s) => if s = "" then return [] else throw (.noField "str" "type")
  | other => throw (.notList other.typeName)

/-- The texts of expressions. -/
def exprTexts : List Tree → Except LayoutError (List String)
  | [] => return []
  | e :: es => do
    let text ← exprText e
    return text :: (← exprTexts es)

end

/-- The text of an expression that is part of something longer. -/
def exprWithin (t : Tree) : Except LayoutError String := do
  t.within (← t.exprText)

/-- A tree whose name is a text is written as part of something longer as it is by itself. -/
theorem exprWithin_eq_exprText {t : Tree} (h : t.oddName? = none) :
  t.exprWithin = t.exprText
  := by
  rw [exprWithin]
  cases t.exprText with
  | ok text => exact within_eq_ok h text
  | error e => rfl

/-- What an expression is written as: its text, or its name if that is no text. -/
def exprValue (t : Tree) : Except LayoutError Tree :=
  match t.oddName? with
  | some name => .ok name
  | none => t.exprText.map Tree.text

/-- What an operand is written as in a place that requires a binding strength. -/
def operandValue (minimum : Nat) (operand : Tree) : Except LayoutError Tree := do
  let value ← operand.exprValue
  if (← operand.strength) < minimum then return .text ("(" ++ (← value.shown) ++ ")")
  else return value

/-! ### Declarations -/

/-- The name in a tree. -/
def nameText : Tree → Except LayoutError String
  | identifier name => .ok name.plain
  | other => .error (.noField other.typeName "name")

/-- The text of the declaration of a variable. -/
def declarationText : Tree → Except LayoutError String
  | declaration id init =>
    match init with
    | scalar .null => id.nameText
    | init => do
      let name ← id.within (← id.nameText)
      return name ++ " = " ++ (← init.exprWithin)
  | other => .error (.noField other.typeName "init")

/-- The identifier that is all there is of a declaration without a value; any other tree
is itself. -/
def bareDeclared : Tree → Tree
  | declaration id (scalar .null) => id
  | other => other

/-- The texts of the declarations of a statement. -/
def declarationTexts : Tree → Except LayoutError (List String)
  | list items => do listed (items.map bareDeclared) (← items.mapM declarationText)
  | scalar (.text s) => if s = "" then .ok [] else .error (.noField "str" "init")
  | other => .error (.notList other.typeName)

end Tree

end Letter
