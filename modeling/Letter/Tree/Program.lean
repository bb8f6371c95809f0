import Letter.Syntax
import Letter.Tree.Basic

/-!
# The tree of a program

Every program has a tree.  Operators become their spellings; disjunction and conjunction
have a kind of node of their own, and the two ways to take a member share one.
-/

namespace Letter

mutual

/-- The tree of an expression. -/
def Expr.toTree : Expr → Tree
  | .identifier name => .identifier (.text name)
  | .number n => .number (.scalar (.integer n))
  | .string s => .string (.text s)
  | .boolean b => .boolean (.scalar (.boolean b))
  | .null => .null
  | .unary op e => .unary (.text op.text) e.toTree
  | .binary op l r =>
    if op.isLogical then .logical (.text op.text) l.toTree r.toTree
    else .binary (.text op.text) l.toTree r.toTree
  | .assign op l r => .assignment (.text op.text) l.toTree r.toTree
  | .member o p => .member (.scalar (.boolean false)) o.toTree (.identifier (.text p))
  | .index o p => .member (.scalar (.boolean true)) o.toTree p.toTree
  | .call c as => .call c.toTree (.list (Expr.toTrees as))
  | .superCall as => .call .super (.list (Expr.toTrees as))

/-- The trees of expressions. -/
def Expr.toTrees : List Expr → List Tree
  | [] => []
  | e :: es => e.toTree :: Expr.toTrees es

end

/-- The tree of a declaration. -/
def Declaration.toTree (d : Declaration) : Tree :=
  .declaration (.identifier (.text d.name))
    (match d.init with
    | none => .scalar .null
    | some e => e.toTree)

mutual

/-- The tree of a statement. -/
def Stmt.toTree : Stmt → Tree
  | .empty => .empty
  | .expression e => .expression e.toTree
  | .block body => .block (.list (Stmt.toTrees body))
  | .declare ds => .declare (.list (ds.map Declaration.toTree))
  | .ifThen test s => .condition test.toTree s.toTree (.scalar .null)
  | .ifElse test s a => .condition test.toTree s.toTree a.toTree

/-- The trees of statements. -/
def Stmt.toTrees : List Stmt → List Tree
  | [] => []
  | s :: ss => s.toTree :: Stmt.toTrees ss

end

/-- The tree of a program. -/
def Program.toTree (p : Program) : Tree := .program (.list (Stmt.toTrees p.body))

end Letter
