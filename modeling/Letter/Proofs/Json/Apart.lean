import Letter.Proofs.Json.Compact
import Letter.Proofs.Tree.Interchange
import Letter.Proofs.Tree.Program
import Letter.Proofs.Tree.Texts

/-!
# Texts in the JSON values of programs

The texts in the JSON value of a program are tags, names of fields, operators, names and the texts
of string literals.  All but the last are made of word characters or ASCII, so that halves of pairs
stand apart in all of them if they do in the string literals.

Main statement: `Program.Valid.apart_toJson`.
-/

namespace Letter

variable {coding : Coding}

/-! ### Texts that hold no halves -/

/-- Halves stand apart in a name, for it holds none. -/
theorem IsName.apart {name : String} (h : IsName name) :
  coding.Apart name
  := Coding.apart_of_forall_isPrivate fun c hc =>
    isPrivate_eq_false_of_isWordChar (h.word c hc)

/-- Whether a text is in ASCII. -/
def isAscii (s : String) : Bool := s.toList.all fun c => c.toNat < 0x80

/-- Halves stand apart in a text in ASCII, for it holds none. -/
theorem Coding.apart_of_isAscii {s : String} (h : isAscii s = true) :
  coding.Apart s
  := by
  refine apart_of_forall_isPrivate fun c hc => isPrivate_eq_false_of_lt ?_
  have hlt : c.toNat < 0x80 := of_decide_eq_true (List.all_eq_true.1 h c hc)
  omega

theorem Kind.isAscii_tag (kind : Kind) :
  isAscii kind.tag = true
  := by cases kind <;> decide

theorem Kind.isAscii_field (kind : Kind) :
  ∀ f ∈ kind.fields, isAscii f.name = true
  := by cases kind <;> decide

theorem UnaryOp.isAscii_text (op : UnaryOp) :
  isAscii op.text = true
  := by cases op <;> decide

theorem BinaryOp.isAscii_text (op : BinaryOp) :
  isAscii op.text = true
  := by cases op <;> decide

theorem AssignOp.isAscii_text (op : AssignOp) :
  isAscii op.text = true
  := by cases op <;> decide

namespace Tree

theorem apart_text {s : String} (h : coding.Apart s) :
  (text s).toJson.Apart coding
  := .scalar h

theorem apart_ascii {s : String} (h : isAscii s = true) :
  (text s).toJson.Apart coding
  := apart_text (Coding.apart_of_isAscii h)

theorem apart_list {ts : List Tree} (h : ∀ t ∈ ts, t.toJson.Apart coding) :
  (list ts).toJson.Apart coding
  := by
  rw [toJson, toJsons_eq_map]
  exact .list (List.forall_mem_map.2 h)

/-- Halves stand apart in a node if they do in the values of its fields. -/
theorem apart_object {kind : Kind} {values : List Json} (h : ∀ v ∈ values, v.Apart coding) :
  (object kind values).Apart coding
  := by
  refine .object (List.forall_mem_cons.2 ⟨?_, fun m hm => ?_⟩)
    (List.forall_mem_cons.2 ⟨.scalar (Coding.apart_of_isAscii kind.isAscii_tag), fun m hm => ?_⟩)
  · exact Coding.apart_of_isAscii (s := "type") (by decide)
  · obtain ⟨f, hf, hname⟩ := List.mem_map.1 (List.of_mem_zip hm).1
    rw [← hname]
    exact Coding.apart_of_isAscii (kind.isAscii_field f hf)
  · exact h m.2 (List.of_mem_zip hm).2

/-- Halves stand apart in an identifier, for its name holds none. -/
theorem apart_identifier {name : String} (h : IsName name) :
  (identifier (text name)).toJson.Apart coding
  := apart_object (by simpa using apart_text h.apart)

end Tree

open Letter.Tree

/-! ### Programs -/

/-- Halves stand apart in an expression if they do in its string literals. -/
theorem Expr.Valid.apart_toJson {e : Expr} (h : e.Valid) (hs : ∀ s ∈ e.texts, coding.Apart s) :
  e.toTree.toJson.Apart coding
  := by
  have hboolean (b : Bool) : (scalar (.boolean b)).toJson.Apart coding := .scalar trivial
  have harguments {es : List Expr} (hs : ∀ s ∈ listTexts es, coding.Apart s)
      (ih : ∀ e ∈ es, (∀ s ∈ e.texts, coding.Apart s) → e.toTree.toJson.Apart coding) :
      (list (Expr.toTrees es)).toJson.Apart coding := by
    rw [listTexts_eq_flatMap] at hs
    rw [Expr.toTrees_eq_map]
    exact apart_list (List.forall_mem_map.2 fun e he => ih e he fun s hse =>
      hs s (List.mem_flatMap.2 ⟨e, he, hse⟩))
  induction h with
  | identifier h => exact apart_identifier h
  | number => exact apart_object (by simpa [toJson] using .scalar trivial)
  | string => exact apart_object (by simpa using apart_text (hs _ (List.mem_singleton_self _)))
  | boolean b => exact apart_object (by simpa using hboolean b)
  | null => exact apart_object (List.forall_mem_nil _)
  | @unary op e _ ih =>
    exact apart_object (by simp [apart_ascii op.isAscii_text, ih hs])
  | @binary op l r _ _ ih ih' =>
    simp only [texts, List.mem_append, or_imp, forall_and] at hs
    have hop : (text op.text).toJson.Apart coding := apart_ascii op.isAscii_text
    rw [Expr.toTree]
    split
    · exact apart_object (by simp [hop, ih hs.1, ih' hs.2])
    · exact apart_object (by simp [hop, ih hs.1, ih' hs.2])
  | @assign op l r _ _ _ ih ih' =>
    simp only [texts, List.mem_append, or_imp, forall_and] at hs
    have hop : (text op.text).toJson.Apart coding := apart_ascii op.isAscii_text
    exact apart_object (by simp [hop, ih hs.1, ih' hs.2])
  | member _ h ih => exact apart_object (by simp [hboolean, apart_identifier h, ih hs])
  | index _ _ ih ih' =>
    simp only [texts, List.mem_append, or_imp, forall_and] at hs
    exact apart_object (by simp [hboolean, ih hs.1, ih' hs.2])
  | call _ _ ih ih' =>
    simp only [texts, List.mem_append, or_imp, forall_and] at hs
    exact apart_object (by simp [ih hs.1, harguments hs.2 ih'])
  | superCall _ ih =>
    have hsuper : super.toJson.Apart coding := apart_object (List.forall_mem_nil _)
    exact apart_object (by simp [hsuper, harguments hs ih])

/-- Halves stand apart in a declaration if they do in its string literals. -/
theorem Declaration.Valid.apart_toJson {d : Declaration} (h : d.Valid)
    (hs : ∀ s ∈ d.texts, coding.Apart s) :
  d.toTree.toJson.Apart coding
  := by
  obtain ⟨name, init⟩ := d
  have hname : (identifier (text name)).toJson.Apart coding := apart_identifier h.name
  cases init with
  | none =>
    have hnull : (scalar .null).toJson.Apart coding := .scalar trivial
    exact apart_object (by simp [hname, hnull])
  | some e =>
    have hinit : e.toTree.toJson.Apart coding := (h.init e rfl).apart_toJson hs
    exact apart_object (by simp [hname, hinit])

/-- Halves stand apart in a statement if they do in its string literals. -/
theorem Stmt.Valid.apart_toJson {s : Stmt} (h : s.Valid) (hs : ∀ t ∈ s.texts, coding.Apart t) :
  s.toTree.toJson.Apart coding
  := by
  induction h with
  | empty => exact apart_object (List.forall_mem_nil _)
  | expression h => exact apart_object (by simpa using h.apart_toJson hs)
  | block _ ih =>
    rw [texts, listTexts_eq_flatMap] at hs
    rw [Stmt.toTree, Stmt.toTrees_eq_map]
    have hbody : (list (_ : List Tree)).toJson.Apart coding :=
      apart_list (List.forall_mem_map.2 fun s hmem => ih s hmem fun t ht =>
        hs t (List.mem_flatMap.2 ⟨s, hmem, ht⟩))
    exact apart_object (by simpa using hbody)
  | declare h _ =>
    have hlist : (list (_ : List Tree)).toJson.Apart coding :=
      apart_list (List.forall_mem_map.2 fun d hd => (h d hd).apart_toJson fun t ht =>
        hs t (List.mem_flatMap.2 ⟨d, hd, ht⟩))
    exact apart_object (by simpa using hlist)
  | ifThen h _ ih =>
    simp only [texts, List.mem_append, or_imp, forall_and] at hs
    have hnull : (scalar .null).toJson.Apart coding := .scalar trivial
    exact apart_object (by simp [h.apart_toJson hs.1, hnull, ih hs.2])
  | ifElse h _ _ ih ih' =>
    simp only [texts, List.mem_append, or_imp, forall_and] at hs
    exact apart_object (by simp [h.apart_toJson hs.1.1, ih hs.1.2, ih' hs.2])

/-- Halves of pairs stand apart in the JSON value of a program if they do in its string literals. -/
theorem Program.Valid.apart_toJson {p : Program} (h : p.Valid)
    (hs : ∀ t ∈ p.texts, coding.Apart t) :
  p.toTree.toJson.Apart coding
  := by
  rw [Program.texts, Stmt.listTexts_eq_flatMap] at hs
  rw [Program.toTree, Stmt.toTrees_eq_map]
  have hbody : (list (p.body.map Stmt.toTree)).toJson.Apart coding :=
    apart_list (List.forall_mem_map.2 fun s hmem => (h.body s hmem).apart_toJson fun t ht =>
      hs t (List.mem_flatMap.2 ⟨s, hmem, ht⟩))
  exact apart_object (by simpa using hbody)

end Letter
