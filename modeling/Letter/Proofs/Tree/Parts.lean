import Letter.Proofs.Tree.Parsed

/-!
# Expressions inside trees

A node inside a typed tree is typed itself if its kind is one of expressions: names that are
declared or taken as members are expressions too, and the only node inside an expression that is
none stands for the function that the present one overrides.

Main statement: `exists_expr_of_inside`.
-/

namespace Letter

/-- Whether the nodes of a kind are expressions. -/
def Kind.isExpression : Kind → Bool
  | assignment | logical | binary | unary | member | call | identifier | number | string
  | boolean | null => true
  | _ => false

namespace Tree

/-- Whether a tree is a node of a kind of expressions. -/
def isExpression (t : Tree) : Bool := (t.kind?.map Kind.isExpression).getD false

theorem IsExpression.isExpression_eq {t : Tree} (h : t.IsExpression) :
  t.isExpression = true
  := by cases h <;> rfl

/-- An expression is no statement. -/
theorem isStatement_of_isExpression {t : Tree} (h : t.isExpression = true) :
  (t.kind?.map Kind.isStatement).getD false = false
  := by cases t <;> first | rfl | cases h

/-- Whether all expressions inside a tree are typed. -/
def HoldsTyped (t : Tree) : Prop := ∀ u : Tree, u.Inside t → u.isExpression = true → u.IsExpression

/-- All expressions inside a typed expression are typed if those inside its children are. -/
theorem holdsTyped_of_children {t : Tree} (h : t.IsExpression)
    (hchildren : ∀ c ∈ t.children, c.HoldsTyped) :
  t.HoldsTyped
  := by
  intro u hu hkind
  obtain rfl | ⟨c, hc, hinside⟩ := inside_iff.1 hu
  · exact h
  · apply hchildren c hc u hinside hkind

/-- All expressions inside a tree that is none are typed if those inside its children are. -/
theorem holdsTyped_of_other {t : Tree} (h : t.isExpression = false)
    (hchildren : ∀ c ∈ t.children, c.HoldsTyped) :
  t.HoldsTyped
  := by
  intro u hu hkind
  obtain rfl | ⟨c, hc, hinside⟩ := inside_iff.1 hu
  · rw [h] at hkind
    cases hkind
  · apply hchildren c hc u hinside hkind

@[simp]
theorem holdsTyped_scalar (v : Scalar) :
  (scalar v).HoldsTyped
  := holdsTyped_of_other rfl nofun

@[simp]
theorem holdsTyped_text (s : String) :
  (text s).HoldsTyped
  := holdsTyped_scalar _

/-- A list holds typed parts if its items do. -/
theorem holdsTyped_list {ts : List Tree} (h : ∀ t ∈ ts, t.HoldsTyped) :
  (list ts).HoldsTyped
  := holdsTyped_of_other rfl h

theorem holdsTyped_identifier {name : String} (h : IsName name) :
  (identifier (text name)).HoldsTyped
  := holdsTyped_of_children (.identifier h) (by simp [children])

/-- All expressions inside a typed expression are typed. -/
theorem IsExpression.holdsTyped {t : Tree} (h : t.IsExpression) :
  t.HoldsTyped
  := by
  induction h with
  | identifier h => exact holdsTyped_identifier h
  | number nonneg h =>
    apply holdsTyped_of_children (.number nonneg h)
    simp [children]
  | string h =>
    apply holdsTyped_of_children (.string h)
    simp [children]
  | boolean b =>
    apply holdsTyped_of_children (.boolean b)
    simp [children]
  | null =>
    apply holdsTyped_of_children .null
    simp [children]
  | unary argument ih =>
    apply holdsTyped_of_children (.unary argument)
    simpa [children] using ih
  | logical h left right ih ih' =>
    apply holdsTyped_of_children (.logical h left right)
    simpa [children] using ⟨ih, ih'⟩
  | binary h left right ih ih' =>
    apply holdsTyped_of_children (.binary h left right)
    simpa [children] using ⟨ih, ih'⟩
  | assignment target h value ih ih' =>
    apply holdsTyped_of_children (.assignment target h value)
    simpa [children] using ⟨ih, ih'⟩
  | member object h ih =>
    apply holdsTyped_of_children (.member object h)
    simpa [children] using ⟨ih, holdsTyped_identifier h⟩
  | index object property ih ih' =>
    apply holdsTyped_of_children (.index object property)
    simpa [children] using ⟨ih, ih'⟩
  | call callee arguments ih ih' =>
    apply holdsTyped_of_children (.call callee arguments)
    simpa [children] using ⟨ih, holdsTyped_list ih'⟩
  | superCall arguments ih =>
    apply holdsTyped_of_children (.superCall arguments)
    have hsuper : super.HoldsTyped := holdsTyped_of_other rfl (by simp [children])
    simpa [children] using ⟨hsuper, holdsTyped_list ih⟩

/-- All parts of a typed declaration are typed. -/
theorem IsDeclaration.holdsTyped {t : Tree} (h : t.IsDeclaration) :
  t.HoldsTyped
  := by
  cases h with
  | bare h =>
    apply holdsTyped_of_other rfl
    simpa [children] using holdsTyped_identifier h
  | initialized h init =>
    apply holdsTyped_of_other rfl
    simpa [children] using ⟨holdsTyped_identifier h, init.holdsTyped⟩

/-- All expressions inside a typed statement are typed. -/
theorem IsStatement.holdsTyped {t : Tree} (h : t.IsStatement) :
  t.HoldsTyped
  := by
  induction h with
  | empty => exact holdsTyped_of_other rfl nofun
  | expression h =>
    apply holdsTyped_of_other rfl
    simpa [children] using h.holdsTyped
  | block _ ih =>
    apply holdsTyped_of_other rfl
    simpa [children] using holdsTyped_list ih
  | declare h _ =>
    apply holdsTyped_of_other rfl
    simpa [children] using holdsTyped_list fun t ht => (h t ht).holdsTyped
  | ifThen h _ ih =>
    apply holdsTyped_of_other rfl
    simpa [children] using ⟨h.holdsTyped, ih⟩
  | ifElse h _ _ ih ih' =>
    apply holdsTyped_of_other rfl
    simpa [children] using ⟨h.holdsTyped, ih, ih'⟩

/-- All expressions inside a typed program are typed. -/
theorem IsProgram.holdsTyped {t : Tree} (h : t.IsProgram) :
  t.HoldsTyped
  := by
  cases h with
  | body h _ =>
    apply holdsTyped_of_other rfl
    simpa [children] using holdsTyped_list fun t ht => (h t ht).holdsTyped

end Tree

/-- An expression inside the tree of a program that has been read is the tree of an expression that
can be written. -/
theorem exists_expr_of_inside {source : String} {p : Program} {t : Tree}
    (h : parse source = .ok p) (hinside : t.Inside p.toTree) (hkind : t.isExpression = true) :
  ∃ e : Expr, e.Valid ∧ e.toTree = t
  := by
  obtain ⟨htyped, -⟩ := isProgram_of_parse h
  apply (htyped.holdsTyped t hinside hkind).exists_toTree

end Letter
