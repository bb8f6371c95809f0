import Letter.Proofs.Printing.RoundTrip

/-!
# The trees of programs that have been read

The tree of a program that can be written is typed: each of its nodes stands where a node of
its kind may stand, and its fields hold what they may hold.  Whatever has been read can be
written, so that whoever is given the tree of a program that has been read need not check
it.
-/

namespace Letter

open Letter.Tree

/-! ### The trees of the parts -/

/-- The tree of an expression that can be written is typed. -/
theorem Expr.Valid.isExpression {e : Expr} (h : e.Valid) :
  e.toTree.IsExpression
  := by
  induction h with
  | identifier h => exact .identifier h
  | @number n h =>
    have hlt : (n : Int) < ((10 ^ maxDigits : Nat) : Int) := Int.ofNat_lt.2 h
    rw [Int.natCast_pow] at hlt
    exact .number (Int.natCast_nonneg n) hlt
  | string h => exact .string h
  | boolean b => exact .boolean b
  | null => exact .null
  | unary _ ih => exact .unary ih
  | @binary op l r _ _ ih ih' =>
    rw [toTree]
    split
    · next hlogical => exact .logical hlogical ih ih'
    · next hlogical => exact .binary (Bool.eq_false_iff.2 hlogical) ih ih'
  | @assign op l r _ htarget _ ih ih' =>
    exact .assignment ih ((isTarget_toTree l).trans htarget) ih'
  | member _ h ih => exact .member ih h
  | index _ _ ih ih' => exact .index ih ih'
  | call _ _ ih ih' =>
    rw [toTree, toTrees_eq_map]
    exact .call ih (List.forall_mem_map.2 ih')
  | superCall _ ih =>
    rw [toTree, toTrees_eq_map]
    exact .superCall (List.forall_mem_map.2 ih)

/-- A declaration that can be written is typed. -/
theorem Declaration.Valid.isDeclaration {d : Declaration} (h : d.Valid) :
  d.toTree.IsDeclaration
  := by
  obtain ⟨name, init⟩ := d
  cases init with
  | none => exact .bare h.name
  | some e => exact .initialized h.name (h.init e rfl).isExpression

/-- The tree of a statement that can be written is typed. -/
theorem Stmt.Valid.isStatement {s : Stmt} (h : s.Valid) :
  s.toTree.IsStatement
  := by
  induction h with
  | empty => exact .empty
  | expression h => exact .expression h.isExpression
  | block _ ih =>
    rw [toTree, toTrees_eq_map]
    exact .block (List.forall_mem_map.2 ih)
  | declare hds hne =>
    exact .declare (List.forall_mem_map.2 fun d hd => (hds d hd).isDeclaration) (by simpa using hne)
  | ifThen he _ ih => exact .ifThen he.isExpression ih
  | ifElse he _ _ ih ih' => exact .ifElse he.isExpression ih ih'

/-- The tree of a program that can be written is typed. -/
theorem Program.Valid.isProgram {p : Program} (h : p.Valid) :
  p.toTree.IsProgram
  := by
  rw [toTree, Stmt.toTrees_eq_map]
  exact .body (List.forall_mem_map.2 fun s hs => (h.body s hs).isStatement)
    (by simpa using h.nonempty)

/-! ### Programs that have been read -/

/-- The tree of a program that has been read is typed, and no condition inside it has an
alternative together with an open consequent. -/
theorem isProgram_of_parse {source : String} {p : Program} (h : parse source = .ok p) :
  p.toTree.IsProgram ∧ ¬ p.toTree.Dangles
  := by
  obtain ⟨hvalid, hattached⟩ := valid_of_parse h
  exact ⟨hvalid.isProgram, (not_dangles_program_iff hvalid).2 hattached⟩

/-- An assignment that is parsed is typed, and no alternative dangles in it. -/
theorem isProgram_of_parse_sampleSource :
  parse sampleSource = .ok sampleProgram ∧ sampleProgram.toTree.IsProgram
    ∧ ¬ sampleProgram.toTree.Dangles
  := ⟨parse_sampleSource, isProgram_of_parse parse_sampleSource⟩

end Letter
