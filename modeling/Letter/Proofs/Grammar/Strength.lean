import Letter.Proofs.Grammar.Derivation
import Letter.Tree.Text

/-!
# Binding strength and the layers

The layers are ordered by the binding strength of their operators, without gaps.  Whatever
is derived in a layer is derived in every looser one.

How tightly an operator binds is said twice, by the level at which it is read and by the strength
with which it is written.  The two agree: `BinaryOp.strength_eq_level`.
-/

namespace Letter

/-- The binding strength of the operators of a level. -/
def Level.strength : Level → Nat
  | .disjunction => 2
  | .conjunction => 3
  | .equality => 4
  | .relation => 5
  | .sum => 6
  | .product => 7

/-- An operator is written as tightly as it is read. -/
theorem BinaryOp.strength_eq_level (o : BinaryOp) :
  o.strength = o.level.strength
  := by cases o <;> rfl

namespace Layer

/-- The binding strength of the operators of a layer. -/
def strength : Layer → Nat
  | assignment => assignmentStrength
  | binary level => level.strength
  | unary => unaryStrength
  | call => callStrength
  | member => memberStrength
  | primary => primaryStrength

/-- The next tighter layer. -/
def tighter : Layer → Layer
  | assignment => binary .disjunction
  | binary level => level.tighter
  | unary => call
  | call => member
  | member | primary => primary

theorem strength_level_tighter (level : Level) :
  level.tighter.strength = level.strength + 1
  := by cases level <;> rfl

/-- The layer of an operator binds as tightly as the operator is written to bind. -/
theorem strength_binary (op : BinaryOp) :
  (binary op.level).strength = op.strength
  := op.strength_eq_level.symm

theorem strength_tighter_level (op : BinaryOp) :
  op.level.tighter.strength = op.strength + 1
  := by rw [strength_level_tighter, op.strength_eq_level]

/-- Each layer but the last binds one step looser than the next. -/
theorem strength_tighter {layer : Layer} (h : layer ≠ primary) :
  layer.tighter.strength = layer.strength + 1
  := by
  cases layer with
  | binary level => apply strength_level_tighter level
  | primary => exact absurd rfl h
  | _ => rfl

theorem strength_le_primary (layer : Layer) :
  layer.strength ≤ primaryStrength
  := by
  cases layer with
  | binary level => cases level <;> decide
  | _ => decide

/-- A layer is determined by how tightly it binds. -/
theorem eq_of_strength_eq {layer layer' : Layer} (h : layer.strength = layer'.strength) :
  layer = layer'
  := by
  cases layer <;> cases layer'
  case binary.binary level level' => cases level <;> cases level' <;> first | rfl | cases h
  case binary.assignment level | binary.unary level | binary.call level | binary.member level
      | binary.primary level => cases level <;> cases h
  case assignment.binary level | unary.binary level | call.binary level | member.binary level
      | primary.binary level => cases level <;> cases h
  all_goals first | rfl | cases h

end Layer

namespace Derives

variable {ts : List Token} {e : Expr}

theorem of_tighter {layer : Layer} (h : Derives ts (.expression layer.tighter e)) :
  Derives ts (.expression layer e)
  := by
  cases layer with
  | assignment => apply noAssignment h
  | binary level => apply noBinary h
  | unary => apply noUnary h
  | call => apply noCall h
  | member => apply noMember h
  | primary => exact h

/-- What is derived in a layer is derived in every looser one. -/
theorem loosen {layer layer' : Layer} (h : Derives ts (.expression layer e))
    (hle : layer'.strength ≤ layer.strength) :
  Derives ts (.expression layer' e)
  := by
  -- the induction is on the number of layers in between
  obtain ⟨n, hn⟩ := Nat.exists_eq_add_of_le hle
  induction n generalizing layer' with
  | zero =>
    obtain rfl := Layer.eq_of_strength_eq hn
    exact h
  | succ n ih =>
    have hprimary : layer' ≠ .primary := by
      rintro rfl
      have := layer.strength_le_primary
      rw [hn, Layer.strength] at this
      omega
    have hnext := Layer.strength_tighter hprimary
    apply of_tighter
    apply ih (by omega)
    omega

end Derives

end Letter
