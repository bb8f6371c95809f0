import Letter.Tree.Text

/-!
# The layout of statements

A statement takes one line or more.  The lines of a block and the statement governed by a
condition stand one level deeper than what governs them.  The line that closes a block is
handed back rather than written, for the word `else` continues it.

Laying out only ever adds lines.  Where a tree has no text, the lines written before are
kept, with the depth at which the fault was met.  The line that closes a block counts as
begun when it is handed back, though the word that continues it may never come.
-/

namespace Letter

/-- A line, and its depth below the place where the layout begins. -/
structure Line where
  /-- The number of blocks and conditions around the line. -/
  depth : Nat
  /-- The text of the line, without its indentation. -/
  text : String
  deriving DecidableEq, Repr

/-- A tree that has no text, and the depth at which it was met. -/
structure Fault where
  /-- Why the tree has no text. -/
  error : LayoutError
  /-- The number of blocks and conditions around the tree. -/
  depth : Nat
  /-- Whether a line had been begun that no word has continued yet. -/
  begun : Bool
  deriving DecidableEq, Repr

/-- Lines written, and what writing them comes to. -/
structure Layout (α : Type) where
  /-- The lines, in order. -/
  lines : List Line
  /-- The value, or the fault that ended the writing. -/
  result : Except Fault α

namespace Layout

/-- Nothing is written. -/
protected def pure {α : Type} (a : α) : Layout α := ⟨[], .ok a⟩

/-- One layout after another. -/
protected def bind {α β : Type} (x : Layout α) (f : α → Layout β) : Layout β :=
  match x.result with
  | .error e => ⟨x.lines, .error e⟩
  | .ok a => ⟨x.lines ++ (f a).lines, (f a).result⟩

instance : Monad Layout where
  pure := Layout.pure
  bind := Layout.bind

/-- A line. -/
def line (text : String) : Layout Unit := ⟨[⟨0, text⟩], .ok ()⟩

/-- What a text comes to, with a fault at the present depth. -/
def ofExcept {α : Type} : Except LayoutError α → Layout α
  | .ok a => ⟨[], .ok a⟩
  | .error e => ⟨[], .error ⟨e, 0, false⟩⟩

/-- The same lines one level deeper. -/
def nested {α : Type} (x : Layout α) : Layout α where
  lines := x.lines.map fun l => { l with depth := l.depth + 1 }
  result := x.result.mapError fun e => { e with depth := e.depth + 1 }

/-- The same lines after one has been begun. -/
def continued {α : Type} (x : Layout α) : Layout α where
  lines := x.lines
  result := x.result.mapError fun e => { e with begun := true }

/-- Whether a layout begins a line. -/
def beginsLine {α : Type} (x : Layout α) : Bool :=
  !x.lines.isEmpty
    || match x.result with
      | .ok _ => false
      | .error e => e.begun

/-- Writes the line that closes a block, if one is handed back. -/
def close : Option String → Layout Unit
  | none => pure ()
  | some text => line text

/-- What stands before a statement on its first line. -/
inductive Before where
  /-- Nothing: the statement is one of a sequence. -/
  | nothing
  /-- A condition, or the word that begins an alternative. -/
  | governor (text : String)
  /-- The word that begins an alternative; a condition goes on the same line. -/
  | otherwise (text : String)
  deriving DecidableEq, Repr

namespace Before

/-- What stands before the brace that opens a block. -/
def opener : Before → String
  | nothing => ""
  | governor text | otherwise text => if text = "" then "" else text ++ " "

/-- A statement that does not go on the line of what governs it. -/
def below (before : Before) (statement : Layout Unit) : Layout (Option String) := do
  match before with
  | nothing => statement
  | governor text | otherwise text =>
    line text
    nested statement
  return none

/-- A condition, given what stands before it on its line. -/
def beside (before : Before) (condition : String → Layout Unit) : Layout (Option String) :=
  match before with
  | otherwise text => do
    condition (text ++ " ")
    return none
  | other => other.below (condition "")

end Before

/-- A condition: its test, the statement it governs and the alternative, if any. -/
def condition (start : String) (test : Except LayoutError String)
    (consequent : Before → Layout (Option String))
    (alternate? : Option (Before → Layout (Option String))) : Layout Unit := do
  let text ← ofExcept test
  let closing ← consequent (.governor (start ++ "if (" ++ text ++ ")"))
  match alternate? with
  | none => close closing
  | some alternate =>
    let word :=
      match closing with
      | none => "else"
      | some text => text ++ " else"
    close (← continued (alternate (.otherwise word)))

end Layout

namespace Tree

open Layout

/-- Whether a tree is the scalar that stands for nothing. -/
def isNull : Tree → Bool
  | scalar .null => true
  | _ => false

mutual

/-- The layout of a statement, given what stands before it. -/
def layoutAfter (before : Before) : Tree → Layout (Option String)
  | program body => before.below (layoutBody body)
  | block body =>
    if body.truth then do
      line (before.opener ++ "\x7b")
      nested (layoutBody body)
      return some "\x7d"
    else return some (before.opener ++ "\x7b\x7d")
  | empty => before.below (line ";")
  | expression e =>
    before.below do
      let text ← ofExcept e.exprWithin
      line (text ++ ";")
  | declare ds =>
    before.below do
      let texts ← ofExcept ds.declarationTexts
      line ("let " ++ ", ".intercalate texts ++ ";")
  | declaration id init =>
    before.below do
      let _ ← ofExcept (declaration id init).declarationText
  | condition test consequent alternate =>
    before.beside fun start =>
      Layout.condition start test.exprWithin (fun b => layoutAfter b consequent)
        (if alternate.isNull then none else some fun b => layoutAfter b alternate)
  | scalar v => before.below (ofExcept (.error (.noField v.typeName "type")))
  | list _ => before.below (ofExcept (.error (.noField "list" "type")))
  | assignment _ _ _ => before.below (ofExcept (.error (.noStatement .assignment)))
  | logical _ _ _ => before.below (ofExcept (.error (.noStatement .logical)))
  | binary _ _ _ => before.below (ofExcept (.error (.noStatement .binary)))
  | unary _ _ => before.below (ofExcept (.error (.noStatement .unary)))
  | member _ _ _ => before.below (ofExcept (.error (.noStatement .member)))
  | call _ _ => before.below (ofExcept (.error (.noStatement .call)))
  | super => before.below (ofExcept (.error (.noStatement .super)))
  | identifier _ => before.below (ofExcept (.error (.noStatement .identifier)))
  | number _ => before.below (ofExcept (.error (.noStatement .number)))
  | string _ => before.below (ofExcept (.error (.noStatement .string)))
  | boolean _ => before.below (ofExcept (.error (.noStatement .boolean)))
  | null => before.below (ofExcept (.error (.noStatement .null)))

/-- The layout of the statements of a program or block. -/
def layoutBody : Tree → Layout Unit
  | list items => layoutItems items
  | scalar (.text s) =>
    if s = "" then pure () else ofExcept (.error (.noField "str" "type"))
  | other => ofExcept (.error (.notList other.typeName))

/-- The layout of statements one after another. -/
def layoutItems : List Tree → Layout Unit
  | [] => pure ()
  | s :: ss => do
    close (← layoutAfter .nothing s)
    layoutItems ss

end

/-- The layout of a statement. -/
def layout (t : Tree) : Layout Unit := do
  close (← t.layoutAfter .nothing)

/-- The layout of a statement or block that is governed by a text. -/
def layoutClause (governor : String) (t : Tree) : Layout Unit := do
  close (← t.layoutAfter (.governor governor))

/-- The layout of a condition that goes on a line begun before. -/
def layoutCondition (start : String) : Tree → Layout Unit
  | condition test consequent alternate =>
    Layout.condition start test.exprWithin (fun b => consequent.layoutAfter b)
      (if alternate.isNull then none else some fun b => alternate.layoutAfter b)
  | other => ofExcept (.error (.noField other.typeName "test"))

end Tree

end Letter
