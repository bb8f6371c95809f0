import Letter.Proofs.Printing.Spells
import Letter.Proofs.Tree.Program

/-!
# The text of an expression spells its tokens

An expression that can be written has a text, and the text spells the tokens of its
standard form.
-/

namespace Letter

namespace Expr

theorem ofText?_text (op : BinaryOp) :
  BinaryOp.ofText? op.text = some op
  := by cases op <;> decide

theorem operatorStrength_text (op : BinaryOp) :
  (Tree.text op.text).operatorStrength = .ok op.strength
  := by rw [Tree.text, Tree.operatorStrength, ofText?_text]

/-- The tree of an expression binds as tightly as the layer of the expression. -/
theorem strength_toTree (e : Expr) :
  e.toTree.strength = .ok e.layer.strength
  := by
  cases e with
  | binary op l r =>
    rw [toTree]
    split <;> exact (operatorStrength_text op).trans (congrArg _ (Layer.strength_binary op).symm)
  | _ => rfl

/-- The names in an expression are texts. -/
theorem oddName?_toTree (e : Expr) :
  e.toTree.oddName? = none
  := by
  cases e with
  | binary op l r =>
    rw [toTree]
    split <;> rfl
  | _ => rfl

/-- An expression is written as part of something longer as it is by itself. -/
theorem within_toTree (e : Expr) (s : String) :
  e.toTree.within s = .ok s
  := Tree.within_eq_ok e.oddName?_toTree s

/-- Two operands are put together with an operator and blanks. -/
theorem joined_toTree (op : String) (left right : Expr) (l r : String) :
  Tree.joined (.text op) left.toTree right.toTree l r = .ok (l ++ " " ++ op ++ " " ++ r)
  := Tree.joined_eq_ok left.oddName?_toTree right.oddName?_toTree op l r

theorem exprWithin_toTree (e : Expr) :
  e.toTree.exprWithin = e.toTree.exprText
  := Tree.exprWithin_eq_exprText e.oddName?_toTree

theorem shown_text (s : String) :
  (Tree.text s).shown = .ok s
  := rfl

/-- A number below the bound is written in its digits. -/
theorem shown_number {n : Int} (h : n.natAbs < 10 ^ maxDigits) :
  (Tree.scalar (.integer n)).shown = .ok (toString n)
  := by
  have hlength := (Nat.length_toDigits_le_iff (b := 10) (by decide) (by decide)).2 h
  have hshort : (Tree.scalar (.integer n)).showsLong = false :=
    decide_eq_false (Nat.not_lt.2 hlength)
  rw [Tree.shown, hshort]
  rfl

/-- An operand is put in parentheses where its tokens are. -/
theorem parenthesized_spells {e : Expr} {s : String} {ts : List Token} (h : Spells s ts)
    (minimum : Nat) :
  ∃ s', e.toTree.parenthesized minimum s = .ok s' ∧ Spells s' (e.operand minimum ts)
  := by
  rw [Tree.parenthesized, strength_toTree, operand]
  by_cases hlt : e.layer.strength < minimum
  · exact ⟨_, if_pos hlt, by rw [if_pos hlt]; exact h.parens⟩
  · exact ⟨_, if_neg hlt, by rw [if_neg hlt]; exact h⟩

theorem calleeStrength_toTree (c : Expr) :
  c.toTree.calleeStrength = c.calleeStrength
  := by
  cases c with
  | binary op l r =>
    rw [toTree]
    split <;> rfl
  | _ => rfl

theorem unlistable?_toTrees (es : List Expr) (index : Nat) :
  Tree.unlistable? index (toTrees es) = none
  := by
  induction es generalizing index with
  | nil => rfl
  | cons e es ih => rw [toTrees, Tree.unlistable?, oddName?_toTree, ih]

/-- Expressions each of which has a text have texts. -/
theorem exprTexts_spell {es : List Expr}
    (h : ∀ e ∈ es, ∃ s, e.toTree.exprText = .ok s ∧ Spells s e.tokens) :
  ∃ ss, Tree.exprTexts (toTrees es) = .ok ss ∧ List.Forall₂ Spells ss (listTokens es)
  := by
  induction es with
  | nil => exact ⟨[], rfl, .nil⟩
  | cons e es ih =>
    rw [List.forall_mem_cons] at h
    obtain ⟨⟨s, hs, hspells⟩, hes⟩ := h
    obtain ⟨ss, hss, hspell⟩ := ih hes
    refine ⟨s :: ss, ?_, .cons hspells hspell⟩
    rw [toTrees, Tree.exprTexts, hs, hss]
    rfl

/-- Arguments each of which has a text have texts. -/
theorem argumentTexts_spell {es : List Expr}
    (h : ∀ e ∈ es, ∃ s, e.toTree.exprText = .ok s ∧ Spells s e.tokens) :
  ∃ ss, Tree.argumentTexts (.list (toTrees es)) = .ok ss
    ∧ List.Forall₂ Spells ss (listTokens es)
  := by
  obtain ⟨ss, hss, hspell⟩ := exprTexts_spell h
  refine ⟨ss, ?_, hspell⟩
  rw [Tree.argumentTexts, hss]
  change Tree.listed _ _ = _
  rw [Tree.listed, unlistable?_toTrees]

/-- A number in ASCII digits can be read as a numeral. -/
theorem valid_numeral (n : Nat) :
  (Token.numeral n).Valid
  := by
  rw [Token.numeral, Token.Valid, Nat.toString_eq_ofList_toDigits, String.toList_ofList]
  exact ⟨Nat.toDigits_ne_nil, fun _ => isDecimalDigit_of_mem_toDigits⟩

/-- A text that does not hold both quotes can be read between its preferred ones. -/
theorem valid_string {s : String} (h : ¬ ('"' ∈ s.toList ∧ '\'' ∈ s.toList)) :
  (Token.string (.preferred s) s).Valid
  := by
  rw [Token.Valid, Quote.preferred]
  split
  · next hdouble => exact fun hsingle => h ⟨hdouble, hsingle⟩
  · next hdouble => exact hdouble

/-- A text that does not hold both quotes is written between its preferred ones. -/
theorem quotedText_text {s : String} (h : ¬ ('"' ∈ s.toList ∧ '\'' ∈ s.toList)) :
  (Tree.text s).quotedText = .ok (Token.string (.preferred s) s).text
  := by
  rw [Tree.text, Tree.quotedText, Tree.betweenQuotes, Quote.preferred]
  by_cases hdouble : '"' ∈ s.toList
  · have hsingle : '\'' ∉ s.toList := fun hsingle => h ⟨hdouble, hsingle⟩
    simp [hdouble, hsingle]
    rfl
  · simp [hdouble]
    rfl

/-- An expression that can be written has a text that spells its tokens. -/
theorem Valid.exprText_spells {e : Expr} (h : e.Valid) :
  ∃ s, e.toTree.exprText = .ok s ∧ Spells s e.tokens
  := by
  induction h with
  | identifier h => exact ⟨_, rfl, .token (t := .identifier _) h (by simp)⟩
  | @number n h => exact ⟨_, shown_number h, .token (valid_numeral n) (by simp [Token.numeral])⟩
  | string h => exact ⟨_, quotedText_text h, .token (valid_string h) (by simp)⟩
  | boolean b =>
    cases b with
    | true => exact ⟨_, rfl, .token (t := .keyword .trueWord) trivial (by simp)⟩
    | false => exact ⟨_, rfl, .token (t := .keyword .falseWord) trivial (by simp)⟩
  | null => exact ⟨_, rfl, .token (t := .keyword .nullWord) trivial (by simp)⟩
  | @unary op e _ ih =>
    obtain ⟨s, hs, hspells⟩ := ih
    obtain ⟨s', hs', hspells'⟩ := parenthesized_spells (e := e) hspells unaryStrength
    refine ⟨_, ?_, hspells'.unary op⟩
    rw [toTree, Tree.exprText, hs]
    simp only [bind, Except.bind, shown_text, hs', within_toTree]
    rfl
  | @binary op l r _ _ ih ih' =>
    obtain ⟨s, hs, hspells⟩ := ih
    obtain ⟨s₁, hs₁, hspells₁⟩ := parenthesized_spells (e := l) hspells op.strength
    obtain ⟨t, ht, htells⟩ := ih'
    obtain ⟨t₁, ht₁, htells₁⟩ := parenthesized_spells (e := r) htells (op.strength + 1)
    refine ⟨_, ?_, hspells₁.between (.binary op) htells₁⟩
    rw [toTree]
    split <;>
    · rw [Tree.exprText, operatorStrength_text, hs, ht]
      simp only [bind, Except.bind, hs₁, ht₁]
      apply joined_toTree
  | @assign op l r _ _ _ ih ih' =>
    obtain ⟨s, hs, hspells⟩ := ih
    obtain ⟨s₁, hs₁, hspells₁⟩ := parenthesized_spells (e := l) hspells memberStrength
    obtain ⟨t, ht, htells⟩ := ih'
    obtain ⟨t₁, ht₁, htells₁⟩ := parenthesized_spells (e := r) htells assignmentStrength
    refine ⟨_, ?_, hspells₁.between (.assign op) htells₁⟩
    rw [toTree, Tree.exprText, hs, ht]
    simp only [bind, Except.bind, hs₁, ht₁]
    apply joined_toTree
  | @member o name _ hname ih =>
    obtain ⟨s, hs, hspells⟩ := ih
    obtain ⟨s₁, hs₁, hspells₁⟩ := parenthesized_spells (e := o) hspells memberStrength
    refine ⟨_, ?_, hspells₁.member hname⟩
    rw [toTree, Tree.exprText, hs]
    simp only [bind, Except.bind, hs₁, within_toTree]
    rfl
  | @index o p _ _ ih ih' =>
    obtain ⟨s, hs, hspells⟩ := ih
    obtain ⟨s₁, hs₁, hspells₁⟩ := parenthesized_spells (e := o) hspells memberStrength
    obtain ⟨t, ht, htells⟩ := ih'
    refine ⟨_, ?_, hspells₁.index htells⟩
    rw [toTree, Tree.exprText, hs, ht]
    simp only [bind, Except.bind, hs₁, within_toTree]
    rfl
  | @call c es _ _ ih ih' =>
    obtain ⟨s, hs, hspells⟩ := ih
    obtain ⟨s₁, hs₁, hspells₁⟩ := parenthesized_spells (e := c) hspells c.calleeStrength
    obtain ⟨ss, hss, hall⟩ := argumentTexts_spell ih'
    refine ⟨_, ?_, hspells₁.call hall⟩
    rw [toTree, Tree.exprText, hs, hss, calleeStrength_toTree]
    simp only [bind, Except.bind, hs₁, within_toTree]
    rfl
  | superCall _ ih =>
    obtain ⟨ss, hss, hall⟩ := argumentTexts_spell ih
    have hsuper : Spells Keyword.superWord.text [.keyword .superWord] :=
      .token (t := .keyword .superWord) trivial (by simp)
    refine ⟨_, ?_, hsuper.call hall⟩
    rw [toTree, Tree.exprText, hss]
    rfl

end Expr

end Letter
