import Mathlib.Logic.Relation
import Letter.Tree.Layout

/-!
# What is inside a tree

The parts of a tree are the trees inside it, at any depth.  Trees that are the same have
parts that are the same.  A tree dangles if one of its parts is a condition with an
alternative and with an open consequent: the text of such a condition attaches the
alternative to another one.
-/

namespace Letter

theorem Scalar.same_refl (v : Scalar) :
  v.same v = true
  := by
  rw [same]
  cases h : v.fraction? with
  | none => simp
  | some q => simp

theorem Scalar.eq_null_iff_of_same {v w : Scalar} (h : v.same w = true) :
  v = .null ↔ w = .null
  := by
  rw [same] at h
  constructor <;>
  · rintro rfl
    split at h <;> simp_all [fraction?]

namespace Tree

/-! ### Trees that are the same -/

mutual

theorem same_refl : ∀ t : Tree, t.same t = true
  | scalar v => v.same_refl
  | list ts => sameItems_refl ts
  | program t | block t | expression t | declare t | identifier t | number t | string t
  | boolean t => same_refl t
  | empty | super | null => rfl
  | declaration t u | unary t u | call t u => by rw [same, same_refl t, same_refl u]; rfl
  | condition t u v | assignment t u v | logical t u v | binary t u v | member t u v => by
    rw [same, same_refl t, same_refl u, same_refl v]
    rfl

theorem sameItems_refl : ∀ ts : List Tree, sameItems ts ts = true
  | [] => rfl
  | t :: ts => by rw [sameItems, same_refl t, sameItems_refl ts]; rfl

end

/-- The fields of a node, and the items of a list. -/
def children : Tree → List Tree
  | scalar _ | empty | super | null => []
  | list ts => ts
  | program t | block t | expression t | declare t | identifier t | number t | string t
  | boolean t => [t]
  | declaration t u | unary t u | call t u => [t, u]
  | condition t u v | assignment t u v | logical t u v | binary t u v | member t u v => [t, u, v]

theorem exists_same_item {ts us : List Tree} (h : sameItems ts us = true) :
  ∀ t ∈ ts, ∃ u ∈ us, t.same u = true
  := by
  induction ts generalizing us with
  | nil => simp
  | cons t ts ih =>
    cases us with
    | nil => cases h
    | cons u us =>
      rw [sameItems, Bool.and_eq_true] at h
      rw [List.forall_mem_cons]
      refine ⟨⟨u, List.mem_cons_self, h.1⟩, fun t' ht' => ?_⟩
      obtain ⟨u', hu', hsame⟩ := ih h.2 t' ht'
      exact ⟨u', List.mem_cons_of_mem u hu', hsame⟩

/-- Trees that are the same have the same children. -/
theorem sameItems_children {t u : Tree} (h : t.same u = true) :
  sameItems t.children u.children = true
  := by
  cases t with
  | scalar _ | empty | super | null => cases u <;> first | rfl | cases h
  | list ts => cases u <;> first | exact h | cases h
  | program t | block t | expression t | declare t | identifier t | number t | string t
  | boolean t =>
    cases u <;> first | cases h | exact (Bool.and_true _).trans h
  | declaration t₁ t₂ | unary t₁ t₂ | call t₁ t₂ =>
    cases u <;> first | cases h | simpa [children, sameItems, same] using h
  | condition t₁ t₂ t₃ | assignment t₁ t₂ t₃ | logical t₁ t₂ t₃ | binary t₁ t₂ t₃
  | member t₁ t₂ t₃ =>
    cases u <;> first | cases h | simpa [children, sameItems, same, and_assoc] using h

/-! ### Parts -/

/-- Whether a tree is another one or inside it. -/
def Inside (part t : Tree) : Prop := Relation.ReflTransGen (fun t u => u ∈ t.children) t part

/-- What is inside a tree is the tree itself, or it is inside one of its children. -/
theorem inside_iff {part t : Tree} :
  part.Inside t ↔ part = t ∨ ∃ u ∈ t.children, part.Inside u
  := by
  rw [Inside, Relation.ReflTransGen.cases_head_iff]
  apply or_congr eq_comm Iff.rfl

/-- Trees that are the same have the same parts. -/
theorem Inside.exists_same {part t u : Tree} (h : part.Inside t) (hsame : t.same u = true) :
  ∃ part', part'.Inside u ∧ part.same part' = true
  := by
  induction h with
  | refl => exact ⟨u, .refl, hsame⟩
  | tail _ hchild ih =>
    obtain ⟨v, hv, hsame'⟩ := ih
    obtain ⟨w, hw, hsame''⟩ := exists_same_item (sameItems_children hsame') _ hchild
    exact ⟨w, hv.tail hw, hsame''⟩

/-! ### Alternatives -/

/-- Whether a tree is a condition to which an alternative behind it would be attached. -/
def isOpen : Tree → Bool
  | condition _ _ alternate => alternate.isNull || alternate.isOpen
  | _ => false

/-- Whether inside a tree there is a condition with an alternative and with an open
consequent. -/
def Dangles (t : Tree) : Prop :=
  ∃ test consequent alternate, (condition test consequent alternate).Inside t
    ∧ alternate.isNull = false ∧ consequent.isOpen = true

theorem isNull_of_same {t u : Tree} (h : t.same u = true) :
  t.isNull = u.isNull
  := by
  cases t with
  | scalar v =>
    cases u with
    | scalar w =>
      have hnull := Scalar.eq_null_iff_of_same h
      cases v <;> cases w <;> simp_all [isNull]
    | _ => cases h
  | _ => cases u <;> first | rfl | cases h

theorem isOpen_of_same : ∀ {t u : Tree}, t.same u = true → t.isOpen = u.isOpen
  | t, u, h => by
    cases t with
    | condition _ _ a =>
      cases u with
      | condition _ _ b =>
        simp only [same, Bool.and_eq_true] at h
        rw [isOpen, isOpen, isNull_of_same h.2, isOpen_of_same h.2]
      | _ => cases h
    | _ => cases u <;> first | rfl | cases h

/-- Trees that are the same dangle alike. -/
theorem Dangles.of_same {t u : Tree} (h : t.Dangles) (hsame : t.same u = true) :
  u.Dangles
  := by
  obtain ⟨test, c, a, hinside, hnull, hopen⟩ := h
  obtain ⟨part, hpart, hsame'⟩ := hinside.exists_same hsame
  cases part with
  | condition test' c' a' =>
    simp only [same, Bool.and_eq_true] at hsame'
    exact ⟨test', c', a', hpart, isNull_of_same hsame'.2 ▸ hnull,
      isOpen_of_same hsame'.1.2 ▸ hopen⟩
  | _ => cases hsame'

/-- A tree dangles by itself or by one of its children. -/
theorem dangles_iff {t : Tree} :
  t.Dangles ↔ (∃ test consequent alternate, condition test consequent alternate = t
    ∧ alternate.isNull = false ∧ consequent.isOpen = true) ∨ ∃ u ∈ t.children, u.Dangles
  := by
  constructor
  · rintro ⟨test, c, a, hinside, h⟩
    obtain heq | ⟨u, hu, hinside⟩ := inside_iff.1 hinside
    · exact .inl ⟨test, c, a, heq, h⟩
    · exact .inr ⟨u, hu, test, c, a, hinside, h⟩
  · rintro (⟨test, c, a, heq, h⟩ | ⟨u, hu, test, c, a, hinside, h⟩)
    · exact ⟨test, c, a, inside_iff.2 (.inl heq), h⟩
    · exact ⟨test, c, a, inside_iff.2 (.inr ⟨u, hu, hinside⟩), h⟩

/-- A tree that is no condition dangles by one of its children. -/
theorem dangles_iff_children {t : Tree} (h : ∀ test c a, condition test c a ≠ t) :
  t.Dangles ↔ ∃ u ∈ t.children, u.Dangles
  := by
  rw [dangles_iff]
  constructor
  · rintro (⟨test, c, a, heq, -⟩ | hchild)
    · exact absurd heq (h test c a)
    · exact hchild
  · exact .inr

/-- A condition dangles if it has an alternative behind an open statement, or if one of its parts
does. -/
theorem dangles_condition {test consequent alternate : Tree} :
  (condition test consequent alternate).Dangles
    ↔ (alternate.isNull = false ∧ consequent.isOpen = true)
      ∨ test.Dangles ∨ consequent.Dangles ∨ alternate.Dangles
  := by
  have hself : (∃ test' c a, condition test' c a = condition test consequent alternate
      ∧ a.isNull = false ∧ c.isOpen = true)
      ↔ alternate.isNull = false ∧ consequent.isOpen = true := by
    constructor
    · rintro ⟨_, _, _, ⟨⟩, h⟩
      exact h
    · exact fun h => ⟨_, _, _, rfl, h⟩
  rw [dangles_iff, hself]
  simp [children]

theorem not_dangles_scalar (v : Scalar) :
  ¬ (scalar v).Dangles
  := by
  rw [dangles_iff_children (by simp)]
  simp [children]

end Tree

end Letter
