import Letter.Proofs.Tree.Same
import Letter.Tree.Program

/-!
# The trees of programs

The trees of the parts of a program are the parts of its tree that they should be, and no
expression is mistaken for a value that is missing.
-/

namespace Letter

namespace Expr

theorem toTrees_eq_map (es : List Expr) :
  toTrees es = es.map toTree
  := by
  induction es with
  | nil => rfl
  | cons e es ih => rw [toTrees, List.map_cons, ih]

theorem toTree_ne_null (e : Expr) :
  e.toTree ≠ .scalar .null
  := by
  cases e with
  | binary op l r =>
    rw [toTree]
    split <;> simp
  | _ => simp [toTree]

end Expr

namespace Stmt

theorem toTrees_eq_map (ss : List Stmt) :
  toTrees ss = ss.map toTree
  := by
  induction ss with
  | nil => rfl
  | cons s ss ih => rw [toTrees, List.map_cons, ih]

end Stmt

end Letter
