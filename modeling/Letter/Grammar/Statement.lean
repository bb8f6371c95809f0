import Letter.Grammar.Expression

/-!
# The grammar of statements

A program is a sequence of statements, at least one.  An alternative belongs to the
nearest condition that has none yet, since a condition takes the word that begins an
alternative whenever it is in view.

The productions take the way to read a nested statement as an argument; `statement` is the
one that reads nested statements by itself.
-/

namespace Letter.Parse

/-! ### Statements without parts that are statements -/

/-- The statement that does nothing. -/
def emptyStatement : Parse Stmt := do
  skip .semicolon
  return .empty

/-- The first value of a variable. -/
def initializer : Parse Expr := do
  let _ ← eat (.operators .simpleAssign)
  expression

/-- The declaration of a variable: its first value is missing only at a comma or a
semicolon. -/
def declaration : Parse Declaration := do
  let name ← name
  let init ←
    if ← sees [.delimiter .comma, .delimiter .semicolon] then pure none
    else some <$> initializer
  return { name, init }

/-- Declarations separated by commas. -/
def declarations : Parse (List Declaration) := separated declaration

/-- The declaration of some variables. -/
def declare : Parse Stmt := do
  skipWord .letWord
  let list ← declarations
  skip .semicolon
  return .declare list

/-- An expression as a statement. -/
def expressionStatement : Parse Stmt := do
  let e ← expression
  skip .semicolon
  return .expression e

/-! ### Productions, given the way to read nested statements -/

section

variable (statement : Parse Stmt)

/-- One or more statements, up to the end of the text or a token of the kind `stop`. -/
def statements (stop : Option TokenKind) : Parse (List Stmt) := do
  let first ← statement
  let later ← manyWhile (fun t => if some t.kind = stop then none else some ())
    fun _ => statement
  return first :: later

/-- Statements in braces. -/
def block : Parse Stmt := do
  skip .leftBrace
  let body ←
    if ← sees [.delimiter .rightBrace] then pure []
    else statements statement (some (.delimiter .rightBrace))
  skip .rightBrace
  return .block body

/-- A condition, with the alternative that follows it. -/
def condition : Parse Stmt := do
  skipWord .ifWord
  skip .leftParen
  let test ← expression
  skip .rightParen
  let consequent ← statement
  if ← sees [.keyword .elseWord] then
    skipWord .elseWord
    return .ifElse test consequent (← statement)
  else
    return .ifThen test consequent

/-- A statement of the form that the token in view begins. -/
def anyStatement : Parse Stmt := do
  match (← get).next? with
  | some (.delimiter .semicolon) => emptyStatement
  | some (.delimiter .leftBrace) => block statement
  | some (.keyword .letWord) => declare
  | some (.keyword .ifWord) => condition statement
  | _ => expressionStatement

end

/-! ### Programs -/

/-- A statement with at most as many statements inside each other as `bound` has
characters. -/
def statementWithin : List Char → Parse Stmt
  | [], front => anyStatement (throw .missingOperand) front
  | _ :: bound, front => anyStatement (statementWithin bound) front

/-- A statement. -/
def statement : Parse Stmt := fun front => statementWithin front.behind front

/-- A program, from the token in view to the end of the text. -/
def program : Parse Program := do return ⟨← statements statement none⟩

/-- The program that a text holds. -/
def source (text : List Char) : Parse Program := do
  load text
  program

end Letter.Parse

namespace Letter

/-- The program of a text, or why the text is none. -/
def parse (text : String) : Except SyntaxError Program :=
  match Parse.source text.toList .empty with
  | .ok p _ => .ok p
  | .error e _ => .error e

end Letter
