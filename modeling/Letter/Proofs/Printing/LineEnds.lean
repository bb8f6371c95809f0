import Letter.Proofs.Printing.Statement
import Letter.Proofs.Text.LineEnds
import Letter.Proofs.Tree.Texts
import Mathlib.Data.List.Forall2

/-!
# Line ends in the text of a program

The text of a program has line feeds for the ends of its lines, but for those in string
literals, which stand in it as they are.  With line feeds for these as well, it is the text of
another program: the one whose string literals have line feeds for the ends of their lines.

Main statement: `Program.Valid.format_unifies`.
-/

namespace Letter

/-! ### Pairs of results -/

section

variable {ε α β γ δ : Type} {R : α → β → Prop} {S : γ → δ → Prop}

/-- Two computations come to values that are related. -/
def Agree (R : α → β → Prop) (x : Except ε α) (y : Except ε β) : Prop :=
  ∃ a b, x = .ok a ∧ y = .ok b ∧ R a b

/-- Computations that agree may be followed by ones that agree on related values. -/
theorem Agree.bind {x : Except ε α} {y : Except ε β} {f : α → Except ε γ} {g : β → Except ε δ}
    (h : Agree R x y) (hfg : ∀ a b, R a b → Agree S (f a) (g b)) :
  Agree S (x >>= f) (y >>= g)
  := by
  obtain ⟨a, b, rfl, rfl, hab⟩ := h
  exact hfg a b hab

theorem Agree.pure {a : α} {b : β} (h : R a b) :
  Agree R (Pure.pure a : Except ε α) (Pure.pure b)
  := ⟨a, b, rfl, rfl, h⟩

end

/-! ### Texts without line ends -/

namespace Unifies

theorem name {s : String} (h : IsName s) :
  Unifies s s
  := by
  apply of_notMem
  intro hreturn
  exact absurd (h.word _ hreturn) (by decide)

theorem spaced {s s' t t' : String} {op : String} (hop : '\r' ∉ op.toList) (h : Unifies s s')
    (ht : Unifies t t') :
  Unifies (s ++ " " ++ op ++ " " ++ t) (s' ++ " " ++ op ++ " " ++ t')
  := by
  have hblank : Unifies " " " " := of_notMem (by decide)
  exact (((h.append hblank).append (of_notMem hop)).append hblank).append ht

theorem parens {s s' : String} (h : Unifies s s') :
  Unifies ("(" ++ s ++ ")") ("(" ++ s' ++ ")")
  := ((of_notMem (by decide)).append h).append (of_notMem (by decide))

theorem intercalate {ss ss' : List String} {sep : String} (hsep : '\r' ∉ sep.toList)
    (h : List.Forall₂ Unifies ss ss') :
  Unifies (sep.intercalate ss) (sep.intercalate ss')
  := by
  induction h with
  | nil => exact of_notMem List.not_mem_nil
  | @cons s s' ss ss' hs hss ih =>
    cases hss with
    | nil => simpa using hs
    | cons hs' hss =>
      rw [String.intercalate_cons_cons, String.intercalate_cons_cons]
      exact (hs.append (of_notMem hsep)).append ih

end Unifies

namespace Expr

/-- An expression with line feeds for the ends of the lines in its string literals. -/
abbrev unified (e : Expr) : Expr := e.mapTexts withLineFeeds

/-- Line feeds for line ends bring no quotes into a text. -/
theorem keepsQuotable_withLineFeeds :
  KeepsQuotable withLineFeeds
  := by
  intro s h
  rwa [mem_withLineFeeds_iff (by decide) (by decide), mem_withLineFeeds_iff (by decide) (by decide)]

theorem preferred_withLineFeeds (s : String) :
  Quote.preferred (withLineFeeds s) = Quote.preferred s
  := by simp only [Quote.preferred, mem_withLineFeeds_iff (c := '"') (by decide) (by decide)]

theorem parenthesized_unifies {e : Expr} {s s' : String} (h : Unifies s s') (minimum : Nat) :
  Agree Unifies (e.toTree.parenthesized minimum s) (e.unified.toTree.parenthesized minimum s')
  := by
  rw [Tree.parenthesized, Tree.parenthesized, strength_toTree, strength_toTree, layer_mapTexts]
  by_cases hlt : e.layer.strength < minimum
  · exact ⟨_, _, if_pos hlt, if_pos hlt, h.parens⟩
  · exact ⟨_, _, if_neg hlt, if_neg hlt, h⟩

theorem within_unifies {e : Expr} {s s' : String} (h : Unifies s s') :
  Agree Unifies (e.toTree.within s) (e.unified.toTree.within s')
  := ⟨_, _, within_toTree e s, within_toTree _ s', h⟩

theorem joined_unifies {l r : Expr} {s s' t t' op : String} (hop : '\r' ∉ op.toList)
    (h : Unifies s s') (ht : Unifies t t') :
  Agree Unifies (Tree.joined (.text op) l.toTree r.toTree s t)
    (Tree.joined (.text op) l.unified.toTree r.unified.toTree s' t')
  := ⟨_, _, joined_toTree op l r s t, joined_toTree op _ _ s' t', h.spaced hop ht⟩

theorem exprTexts_unify {es : List Expr}
    (h : ∀ e ∈ es, Agree Unifies e.toTree.exprText e.unified.toTree.exprText) :
  Agree (List.Forall₂ Unifies) (Tree.exprTexts (toTrees es))
    (Tree.exprTexts (toTrees (es.map unified)))
  := by
  induction es with
  | nil => exact .pure .nil
  | cons e es ih =>
    rw [List.forall_mem_cons] at h
    exact h.1.bind fun s s' hs => (ih h.2).bind fun ss ss' hss => .pure (.cons hs hss)

theorem argumentTexts_unify {es : List Expr}
    (h : ∀ e ∈ es, Agree Unifies e.toTree.exprText e.unified.toTree.exprText) :
  Agree (List.Forall₂ Unifies) (Tree.argumentTexts (.list (toTrees es)))
    (Tree.argumentTexts (.list (toTrees (mapListTexts withLineFeeds es))))
  := by
  rw [mapListTexts_eq_map]
  refine (exprTexts_unify h).bind fun ss ss' hss => ?_
  rw [Tree.listed, Tree.listed, unlistable?_toTrees, unlistable?_toTrees]
  exact .pure hss

theorem return_notMem_operator (op : BinaryOp) :
  '\r' ∉ op.text.toList
  := by cases op <;> decide

/-- An expression that can be written and the one with line feeds in its string literals have
texts, which differ in line ends alone. -/
theorem Valid.exprText_unifies {e : Expr} (h : e.Valid) :
  Agree Unifies e.toTree.exprText e.unified.toTree.exprText
  := by
  have hplain {s : String} (h : '\r' ∉ s.toList) : Unifies s s := .of_notMem h
  induction h with
  | identifier h => exact .pure (.name h)
  | @number n hlt =>
    refine ⟨_, _, shown_number hlt, shown_number hlt, hplain fun hreturn => ?_⟩
    exact absurd ((valid_numeral n).2 _ hreturn) (by decide)
  | @string s h =>
    refine ⟨_, _, quotedText_text h, quotedText_text (keepsQuotable_withLineFeeds s h), ?_⟩
    rw [Token.text, Token.text, preferred_withLineFeeds]
    cases Quote.preferred s <;> exact .between (by decide) (by decide) s
  | boolean b => cases b <;> exact .pure (hplain (by decide))
  | null => exact .pure (hplain (by decide))
  | @unary op e _ ih =>
    rw [unified, Expr.mapTexts, toTree, toTree, Tree.exprText, Tree.exprText]
    have hop : Unifies op.text op.text := hplain (by cases op <;> decide)
    refine .bind (.pure hop) fun o o' ho => ?_
    refine ih.bind fun s s' hs => (parenthesized_unifies hs _).bind fun t t' ht => ?_
    exact (within_unifies ht).bind fun u u' hu => .pure (ho.append hu)
  | @binary op l r _ _ ih ih' =>
    rw [unified, Expr.mapTexts, toTree, toTree]
    split <;>
    · rw [Tree.exprText, Tree.exprText, operatorStrength_text]
      refine ih.bind fun s s' hs => (parenthesized_unifies hs _).bind fun t t' ht => ?_
      refine ih'.bind fun u u' hu => (parenthesized_unifies hu _).bind fun v v' hv => ?_
      exact joined_unifies (return_notMem_operator op) ht hv
  | @assign op l r _ _ _ ih ih' =>
    rw [unified, Expr.mapTexts, toTree, toTree, Tree.exprText, Tree.exprText]
    refine ih.bind fun s s' hs => (parenthesized_unifies hs _).bind fun t t' ht => ?_
    refine ih'.bind fun u u' hu => (parenthesized_unifies hu _).bind fun v v' hv => ?_
    exact joined_unifies (by cases op <;> decide) ht hv
  | @member o name _ hname ih =>
    rw [unified, Expr.mapTexts, toTree, toTree, Tree.exprText, Tree.exprText]
    refine ih.bind fun s s' hs => (parenthesized_unifies hs _).bind fun t t' ht => ?_
    refine (within_unifies ht).bind fun u u' hu => ?_
    exact .pure ((hu.append (hplain (by decide))).append (.name hname))
  | @index o p _ _ ih ih' =>
    rw [unified, Expr.mapTexts, toTree, toTree, Tree.exprText, Tree.exprText]
    refine ih.bind fun s s' hs => (parenthesized_unifies hs _).bind fun t t' ht => ?_
    refine (within_unifies ht).bind fun o o' ho => ?_
    refine ih'.bind fun u u' hu => (within_unifies hu).bind fun p p' hp => ?_
    exact .pure (((ho.append (hplain (by decide))).append hp).append (hplain (by decide)))
  | @call c es _ _ ih ih' =>
    rw [unified, Expr.mapTexts, toTree, toTree, Tree.exprText, Tree.exprText, calleeStrength_toTree,
      calleeStrength_toTree, calleeStrength_mapTexts]
    refine ih.bind fun s s' hs => (parenthesized_unifies hs _).bind fun t t' ht => ?_
    refine (argumentTexts_unify ih').bind fun ss ss' hss => (within_unifies ht).bind fun u u' hu => ?_
    have hhead := hu.append (hplain (s := "(") (by decide))
    exact .pure ((hhead.append (.intercalate (by decide) hss)).append (hplain (by decide)))
  | @superCall es _ ih =>
    rw [unified, Expr.mapTexts, toTree, toTree, Tree.exprText, Tree.exprText]
    refine (argumentTexts_unify ih).bind fun ss ss' hss => ?_
    have hhead : Unifies ("super" ++ "(") ("super" ++ "(") := hplain (by decide)
    exact .pure ((hhead.append (.intercalate (by decide) hss)).append (hplain (by decide)))

theorem Valid.exprWithin_unifies {e : Expr} (h : e.Valid) :
  Agree Unifies e.toTree.exprWithin e.unified.toTree.exprWithin
  := by
  rw [exprWithin_toTree, exprWithin_toTree]
  exact h.exprText_unifies

end Expr

/-! ### Declarations -/

namespace Declaration

/-- A declaration with line feeds for the ends of the lines in its string literals. -/
abbrev unified (d : Declaration) : Declaration := d.mapTexts withLineFeeds

/-- A declaration and the one with line feeds have texts that differ in line ends alone. -/
theorem Valid.declarationText_unifies {d : Declaration} (h : d.Valid) :
  Agree Unifies d.toTree.declarationText d.unified.toTree.declarationText
  := by
  obtain ⟨name, init⟩ := d
  cases init with
  | none => exact .pure (.name h.name)
  | some e =>
    change Agree Unifies (toTree ⟨name, some e⟩).declarationText
      (toTree ⟨name, some e.unified⟩).declarationText
    rw [toTree_some, toTree_some, Tree.declarationText, Tree.declarationText]
    · have hname : Unifies name name := .name h.name
      refine .bind (.pure hname) fun s s' hs => .bind (.pure hs) fun t t' ht => ?_
      refine (h.init e rfl).exprWithin_unifies.bind fun u u' hu => .pure ?_
      exact (ht.append (.of_notMem (by decide))).append hu
    · apply e.unified.toTree_ne_null
    · apply e.toTree_ne_null

theorem declarationTexts_unify {ds : List Declaration} (h : ∀ d ∈ ds, d.Valid) :
  Agree (List.Forall₂ Unifies) (Tree.list (ds.map toTree)).declarationTexts
    (Tree.list ((ds.map unified).map toTree)).declarationTexts
  := by
  have hall : Agree (List.Forall₂ Unifies) ((ds.map toTree).mapM Tree.declarationText)
      (((ds.map unified).map toTree).mapM Tree.declarationText) := by
    induction ds with
    | nil => exact .pure .nil
    | cons d ds ih =>
      rw [List.forall_mem_cons] at h
      rw [List.map_cons, List.map_cons, List.map_cons, List.mapM_cons, List.mapM_cons]
      exact h.1.declarationText_unifies.bind fun s s' hs => (ih h.2).bind fun ss ss' hss =>
        .pure (.cons hs hss)
  rw [Tree.declarationTexts, Tree.declarationTexts]
  refine hall.bind fun ss ss' hss => ?_
  rw [Tree.listed, Tree.listed, unlistable?_bareDeclared, unlistable?_bareDeclared]
  exact .pure hss

end Declaration

/-! ### Lines -/

/-- Two lines at one depth, which differ in line ends alone. -/
structure Line.Unifies (l l' : Line) : Prop where
  depth : l.depth = l'.depth
  text : Letter.Unifies l.text l'.text

namespace Layout

variable {α β γ δ : Type} {R : α → β → Prop} {S : γ → δ → Prop}

/-- Two layouts come to values that are related, and their lines differ in line ends alone. -/
structure Agree (R : α → β → Prop) (x : Layout α) (y : Layout β) : Prop where
  lines : List.Forall₂ Line.Unifies x.lines y.lines
  result : Letter.Agree R x.result y.result

namespace Agree

variable {x : Layout α} {y : Layout β}

theorem pure {a : α} {b : β} (h : R a b) :
  Agree R (Pure.pure a : Layout α) (Pure.pure b)
  := ⟨.nil, .pure h⟩

/-- Layouts that agree may be followed by ones that agree on related values. -/
theorem bind {f : α → Layout γ} {g : β → Layout δ} (h : x.Agree R y)
    (hfg : ∀ a b, R a b → (f a).Agree S (g b)) :
  (x >>= f).Agree S (y >>= g)
  := by
  obtain ⟨hlines, a, b, ha, hb, hab⟩ := h
  obtain ⟨hlines', hresult⟩ := hfg a b hab
  constructor
  · rw [lines_bind ha, lines_bind hb]
    exact List.rel_append hlines hlines'
  · rw [result_bind ha, result_bind hb]
    exact hresult

theorem ofExcept {a : Except LayoutError α} {b : Except LayoutError β} (h : Letter.Agree R a b) :
  (Layout.ofExcept a).Agree R (Layout.ofExcept b)
  := by
  obtain ⟨a, b, rfl, rfl, h⟩ := h
  exact .pure h

theorem line {s s' : String} (h : Unifies s s') :
  (line s).Agree Eq (line s')
  := ⟨.cons ⟨rfl, h⟩ .nil, .pure rfl⟩

theorem nested (h : x.Agree R y) :
  x.nested.Agree R y.nested
  := by
  obtain ⟨hlines, a, b, ha, hb, hab⟩ := h
  constructor
  · rw [Layout.nested, Layout.nested, List.forall₂_map_left_iff, List.forall₂_map_right_iff]
    exact hlines.imp fun l l' h => ⟨congrArg (· + 1) h.depth, h.text⟩
  · rw [Layout.nested, Layout.nested, ha, hb]
    exact .pure hab

theorem continued (h : x.Agree R y) :
  x.continued.Agree R y.continued
  := by
  obtain ⟨hlines, a, b, ha, hb, hab⟩ := h
  refine ⟨hlines, ?_⟩
  rw [Layout.continued, Layout.continued, ha, hb]
  exact .pure hab

theorem close {closing closing' : Option String} (h : Option.Rel Unifies closing closing') :
  (close closing).Agree Eq (Layout.close closing')
  := by
  cases h with
  | none => exact .pure rfl
  | some h => exact .line h

end Agree

/-- What stands before two statements differs in line ends alone. -/
inductive Before.Agree : Before → Before → Prop where
  | nothing : Before.Agree .nothing .nothing
  | governor {s s' : String} (h : Unifies s s') : Before.Agree (.governor s) (.governor s')
  | otherwise {s s' : String} (h : Unifies s s') : Before.Agree (.otherwise s) (.otherwise s')

theorem Before.Agree.opener {b b' : Before} (h : b.Agree b') :
  Unifies b.opener b'.opener
  := by
  have hblank : Unifies " " " " := .of_notMem (by decide)
  cases h with
  | nothing => exact .of_notMem List.not_mem_nil
  | @governor s s' h | @otherwise s s' h =>
    rw [Before.opener, Before.opener]
    by_cases hempty : s = ""
    · rw [if_pos hempty, if_pos (h.eq_empty_iff.1 hempty)]
      exact .of_notMem List.not_mem_nil
    · rw [if_neg hempty, if_neg (hempty ∘ h.eq_empty_iff.2)]
      exact h.append hblank

/-- A statement that goes on a line of its own. -/
theorem Before.Agree.below {b b' : Before} {x y : Layout Unit} (h : b.Agree b')
    (hxy : x.Agree Eq y) :
  (b.below x).Agree (Option.Rel Unifies) (b'.below y)
  := by
  cases h with
  | nothing => exact hxy.bind fun _ _ _ => .pure .none
  | governor h | otherwise h =>
    exact (Layout.Agree.line h).bind fun _ _ _ => hxy.nested.bind fun _ _ _ => .pure .none

/-- A condition, which goes on the line of the word that begins an alternative. -/
theorem Before.Agree.beside {b b' : Before} {condition condition' : String → Layout Unit}
    (h : b.Agree b')
    (hc : ∀ s s', Unifies s s' → (condition s).Agree Eq (condition' s')) :
  (b.beside condition).Agree (Option.Rel Unifies) (b'.beside condition')
  := by
  have hnothing := hc "" "" (.of_notMem List.not_mem_nil)
  cases h with
  | nothing => exact Before.Agree.nothing.below hnothing
  | governor h => exact (Before.Agree.governor h).below hnothing
  | otherwise h =>
    exact (hc _ _ (h.append (.of_notMem (by decide)))).bind fun _ _ _ => .pure .none

/-- The word that begins an alternative, after the line that closes the consequent. -/
theorem unifies_elseWord {closing closing' : Option String} :
  Option.Rel Unifies closing closing' →
    Unifies (match closing with | none => "else" | some text => text ++ " else")
      (match closing' with | none => "else" | some text => text ++ " else")
  := by
  intro h
  cases h with
  | none => exact .of_notMem (by decide)
  | some h => exact h.append (.of_notMem (by decide))

section

variable {start start' : String} {text text' : Except LayoutError String}
  {consequent consequent' : Before → Layout (Option String)}
  (hstart : Unifies start start') (htext : Letter.Agree Unifies text text')
  (hconsequent : ∀ b b', b.Agree b' →
    (consequent b).Agree (Option.Rel Unifies) (consequent' b'))

include hstart htext hconsequent

/-- A condition without an alternative. -/
theorem Agree.condition :
  (Layout.condition start text consequent none).Agree Eq
    (Layout.condition start' text' consequent' none)
  := by
  refine (Agree.ofExcept htext).bind fun s s' hs => ?_
  have hhead := (hstart.append (.of_notMem (s := "if (") (by decide))).append hs
  refine (hconsequent _ _ (.governor (hhead.append (.of_notMem (by decide))))).bind ?_
  exact fun closing closing' hclosing => .close hclosing

/-- A condition with an alternative. -/
theorem Agree.condition_otherwise {alternate alternate' : Before → Layout (Option String)}
    (halternate : ∀ b b', b.Agree b' →
      (alternate b).Agree (Option.Rel Unifies) (alternate' b')) :
  (Layout.condition start text consequent (some alternate)).Agree Eq
    (Layout.condition start' text' consequent' (some alternate'))
  := by
  refine (Agree.ofExcept htext).bind fun s s' hs => ?_
  have hhead := (hstart.append (.of_notMem (s := "if (") (by decide))).append hs
  refine (hconsequent _ _ (.governor (hhead.append (.of_notMem (by decide))))).bind ?_
  intro closing closing' hclosing
  have hword := unifies_elseWord hclosing
  exact (halternate _ _ (.otherwise hword)).continued.bind fun _ _ h => .close h

end

end Layout

/-! ### Statements -/

namespace Stmt

/-- A statement with line feeds for the ends of the lines in its string literals. -/
abbrev unified (s : Stmt) : Stmt := s.mapTexts withLineFeeds

/-- Statements are laid out alike if each of them is. -/
theorem layoutItems_agree {ss : List Stmt}
    (h : ∀ s ∈ ss, ∀ b b', b.Agree b' →
      (s.toTree.layoutAfter b).Agree (Option.Rel Unifies) (s.unified.toTree.layoutAfter b')) :
  (Tree.layoutItems (toTrees ss)).Agree Eq
    (Tree.layoutItems (toTrees (mapListTexts withLineFeeds ss)))
  := by
  induction ss with
  | nil => exact .pure rfl
  | cons s ss ih =>
    rw [List.forall_mem_cons] at h
    rw [mapListTexts, toTrees, toTrees, Tree.layoutItems, Tree.layoutItems]
    refine (h.1 _ _ .nothing).bind fun closing closing' hclosing => ?_
    exact (Layout.Agree.close hclosing).bind fun _ _ _ => ih h.2

/-- A statement and the one with line feeds are laid out alike behind what is alike. -/
theorem Valid.layoutAfter_agree {s : Stmt} (h : s.Valid) :
  ∀ b b', b.Agree b' →
    (s.toTree.layoutAfter b).Agree (Option.Rel Unifies) (s.unified.toTree.layoutAfter b')
  := by
  have hplain {s : String} (h : '\r' ∉ s.toList) : Unifies s s := .of_notMem h
  induction h with
  | empty =>
    intro b b' hb
    exact hb.below (.line (hplain (by decide)))
  | @expression e he =>
    intro b b' hb
    rw [unified, Stmt.mapTexts, toTree, toTree, Tree.layoutAfter, Tree.layoutAfter]
    refine hb.below ((Layout.Agree.ofExcept he.exprWithin_unifies).bind fun s s' hs => ?_)
    exact .line (hs.append (hplain (by decide)))
  | @block ss _ ih =>
    intro b b' hb
    have hbody := layoutItems_agree ih
    rw [unified, Stmt.mapTexts, toTree, toTree, Tree.layoutAfter, Tree.layoutAfter]
    cases ss with
    | nil => exact .pure (.some (hb.opener.append (hplain (s := "\x7b\x7d") (by decide))))
    | cons s ss =>
      have hopen := Layout.Agree.line (hb.opener.append (hplain (s := "\x7b") (by decide)))
      exact hopen.bind fun _ _ _ => hbody.nested.bind fun _ _ _ =>
        .pure (.some (hplain (by decide)))
  | @declare ds hds hne =>
    intro b b' hb
    rw [unified, Stmt.mapTexts, toTree, toTree, Tree.layoutAfter, Tree.layoutAfter]
    have htexts := Layout.Agree.ofExcept (Declaration.declarationTexts_unify hds)
    refine hb.below (htexts.bind fun ss ss' hss => .line ?_)
    have hlist : Unifies (", ".intercalate ss) (", ".intercalate ss') :=
      .intercalate (by decide) hss
    have hword : Unifies "let " "let " := hplain (by decide)
    exact (hword.append hlist).append (hplain (by decide))
  | @ifThen e s he _ ih =>
    intro b b' hb
    rw [unified, Stmt.mapTexts, toTree, toTree, Tree.layoutAfter, Tree.layoutAfter]
    exact hb.beside fun _ _ hstart => .condition hstart he.exprWithin_unifies ih
  | @ifElse e s a he _ _ ih ih' =>
    intro b b' hb
    have hnull : a.toTree.isNull = false := by cases a <;> rfl
    have hnull' : a.unified.toTree.isNull = false := by cases a <;> rfl
    rw [unified, Stmt.mapTexts, toTree, toTree, Tree.layoutAfter, Tree.layoutAfter, hnull, hnull']
    exact hb.beside fun _ _ hstart =>
      .condition_otherwise hstart he.exprWithin_unifies ih ih'

end Stmt

/-! ### Programs -/

/-- Lines that differ in line ends alone make texts that do so. -/
theorem Layout.join_unifies {ls ls' : List Line} (h : List.Forall₂ Line.Unifies ls ls') :
  Unifies ("\n".intercalate (ls.map fun l => Buffer.margin l.depth ++ l.text))
    ("\n".intercalate (ls'.map fun l => Buffer.margin l.depth ++ l.text))
  := by
  apply Unifies.intercalate (by decide)
  rw [List.forall₂_map_left_iff, List.forall₂_map_right_iff]
  refine h.imp fun l l' hl => ?_
  rw [hl.depth]
  refine (Unifies.of_notMem fun hreturn => ?_).append hl.text
  rw [Buffer.margin, blanks, String.toList_ofList] at hreturn
  exact absurd (List.eq_of_mem_replicate hreturn) (by decide)

namespace Program

/-- A program with line feeds for the ends of the lines in its string literals. -/
abbrev unified (p : Program) : Program := p.mapTexts withLineFeeds

/-- Only a program without carriage returns in its string literals stays as it is. -/
theorem unified_eq_self_iff {p : Program} :
  p.unified = p ↔ ∀ s ∈ p.texts, '\r' ∉ s.toList
  := by simp only [unified, mapTexts_eq_self_iff, withLineFeeds_eq_self_iff]

/-- A program that can be written and the one with line feeds in its string literals have
texts, which differ in line ends alone. -/
theorem Valid.format_unifies {p : Program} (h : p.Valid) :
  Agree Unifies p.format p.unified.format
  := by
  have hbody := Stmt.layoutItems_agree fun s hs => (h.body s hs).layoutAfter_agree
  have hlayout : p.toTree.layout.Agree Eq p.unified.toTree.layout :=
    (Layout.Before.Agree.nothing.below hbody).bind fun _ _ hclosing => .close hclosing
  obtain ⟨hlines, _, _, hresult, hresult', -⟩ := hlayout
  exact ⟨_, _, Tree.emit_of_layout rfl rfl hresult, Tree.emit_of_layout rfl rfl hresult',
    Layout.join_unifies hlines⟩

end Program

end Letter
