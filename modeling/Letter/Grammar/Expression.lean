import Letter.Grammar.Front
import Letter.Syntax

/-!
# The grammar of expressions

One production for each level of binding strength, each built on the next tighter one.
The productions take the way to read a nested expression as an argument; `expression` is
the one that reads nested expressions by itself.

Each nested expression stands behind a token of the one around it, so that the text behind
the token in view, character by character, bounds the nesting; where nothing is left to
read, an operand is missing.
-/

namespace Letter.Parse

/-- The operator of a level, in a token. -/
def binaryOp? (level : Level) : Token → Option BinaryOp
  | .operator (.binary o) => if o.level = level then some o else none
  | _ => none

/-- The operator before an operand, in a token. -/
def unaryOp? : Token → Option UnaryOp
  | .operator o => o.unary?
  | _ => none

/-- The operator of an assignment, in a token. -/
def assignOp? : Token → Option AssignOp
  | .operator (.assign o) => some o
  | _ => none

/-- The name, in a token. -/
def name? : Token → Option String
  | .identifier name => some name
  | _ => none

/-! ### Literals and names -/

/-- A numeral of at most `maxDigits` digits. -/
def number : Parse Expr := do
  let digits ← take .number fun
    | .number digits => some digits
    | _ => none
  if maxDigits < digits.length then throw (.numeralTooLong digits.length)
  return .number (numeralValue digits.toList)

/-- A quoted text, without its quotes. -/
def string : Parse Expr :=
  take .string fun
    | .string _ contents => some (.string contents)
    | _ => none

/-- A truth value. -/
def boolean (value : Bool) : Parse Expr := do
  skipWord (if value then .trueWord else .falseWord)
  return .boolean value

/-- The null value. -/
def null : Parse Expr := do
  skipWord .nullWord
  return .null

/-- A literal of a given kind. -/
def literal : TokenKind → Parse Expr
  | .number => number
  | .string => string
  | .keyword .trueWord => boolean true
  | .keyword .falseWord => boolean false
  | .keyword .nullWord => null
  | _ => throw .notLiteral

/-- A name. -/
def name : Parse String := take .identifier name?

/-- A variable. -/
def identifier : Parse Expr := do return .identifier (← name)

/-! ### Productions, given the way to read nested expressions -/

section

variable (expression : Parse Expr)

/-- An expression in parentheses. -/
def parenthesized : Parse Expr := do
  skip .leftParen
  let e ← expression
  skip .rightParen
  return e

/-- A literal, an expression in parentheses or a variable. -/
def primary : Parse Expr := do
  match (← get).next? with
  | none => throw .missingOperand
  | some t =>
    if t.kind.isLiteral then literal t.kind
    else match t with
      | .delimiter .leftParen => parenthesized expression
      | .identifier _ => identifier
      | _ => throw (.unexpectedOperand t)

/-- A dot or an opening bracket, in a token. -/
def access? : Token → Option Delimiter
  | .delimiter .dot => some .dot
  | .delimiter .leftBracket => some .leftBracket
  | _ => none

/-- What follows an object: a dot and the name of a member, or an expression in
brackets. -/
def access (object : Expr) : Delimiter → Parse Expr
  | .dot => do
    skip .dot
    return .member object (← name)
  | _ => do
    skip .leftBracket
    let property ← expression
    skip .rightBracket
    return .index object property

/-- A primary expression and the members taken of it. -/
def member : Parse Expr := do
  foldWhile access? (← primary expression) (access expression)

/-- The arguments of a call, separated by commas. -/
def argumentList : Parse (List Expr) := separated expression

/-- The arguments of a call in parentheses. -/
def arguments : Parse (List Expr) := do
  skip .leftParen
  let list ← if ← sees [.delimiter .rightParen] then pure [] else argumentList expression
  skip .rightParen
  return list

/-- An opening parenthesis, in a token. -/
def leftParen? : Token → Option Unit
  | .delimiter .leftParen => some ()
  | _ => none

/-- Calls of a callee, of its value, and so on. -/
def calls (callee : Expr) : Parse Expr :=
  foldWhile leftParen? callee fun callee _ => do
    return .call callee (← arguments expression)

/-- The word that begins a call of the overridden function. -/
def superWord : Parse Unit := skipWord .superWord

/-- A member expression, or a call of one or of the overridden function. -/
def callMember : Parse Expr := do
  if ← sees [.keyword .superWord] then
    superWord
    let call := Expr.superCall (← arguments expression)
    calls expression call
  else
    calls expression (← member expression)

/-- Operators before an operand. -/
def unary : Parse Expr := do
  let ops ← manyWhile unaryOp? fun op => do
    advance
    return op
  return ops.foldr .unary (← callMember expression)

/-- Operands joined from left to right by the operators of a level. -/
def chain (level : Level) (operand : Parse Expr) : Parse Expr := do
  foldWhile (binaryOp? level) (← operand) fun left op => do
    advance
    return .binary op left (← operand)

/-- Operands joined by the operators of a product. -/
def product : Parse Expr := chain .product (unary expression)

/-- Products joined by the operators of a sum. -/
def sum : Parse Expr := chain .sum (product expression)

/-- Sums joined by the operators of a comparison. -/
def relation : Parse Expr := chain .relation (sum expression)

/-- Comparisons joined by equality and its negation. -/
def equality : Parse Expr := chain .equality (relation expression)

/-- Equalities joined by conjunction. -/
def conjunction : Parse Expr := chain .conjunction (equality expression)

/-- Conjunctions joined by disjunction. -/
def disjunction : Parse Expr := chain .disjunction (conjunction expression)

/-- The operator of an assignment. -/
def assignOp : Parse AssignOp := take (.operators .compoundAssign) assignOp?

/-- A disjunction, or the assignment of a value to one that may stand there. -/
def assignment : Parse Expr := do
  let left ← disjunction expression
  match ← peek assignOp? with
  | none => return left
  | some _ =>
    let op ← assignOp
    if left.isTarget then return .assign op left (← expression)
    else throw .invalidTarget

end

/-! ### Expressions -/

/-- An expression with at most as many expressions inside each other as `bound` has
characters. -/
def expressionWithin : List Char → Parse Expr
  | [], front => assignment (throw .missingOperand) front
  | _ :: bound, front => assignment (expressionWithin bound) front

/-- An expression. -/
def expression : Parse Expr := fun front => expressionWithin front.behind front

end Letter.Parse
