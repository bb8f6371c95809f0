import Letter.Proofs.Printing.Outcome
import Letter.Tree.Writer

/-!
# Nodes for which there is no writer

A node is written by what is found under a name made of its tag.  Trees are laid out by cases on
their kinds instead, and this comes to the same: a node is refused as a statement exactly if there
is nothing under the name for statements, and as an expression exactly if there is nothing under
the one for expressions.  So is every node inside a tree that cannot be laid out because of it.

Main statements: `Tree.layout_eq_noStatement_iff`, `Tree.exprText_eq_noExpression_iff`.
-/

namespace Letter

/-! ### Errors that name a kind -/

/-- An error that names a kind names one for which there is no writer. -/
def LayoutError.Justified : LayoutError → Prop
  | noStatement kind => kind.statementWriter ∉ writers
  | noExpression kind => kind.expressionWriter ∉ writers
  | _ => True

instance : DecidablePred LayoutError.Justified
  | .noStatement kind => inferInstanceAs (Decidable (kind.statementWriter ∉ writers))
  | .noExpression kind => inferInstanceAs (Decidable (kind.expressionWriter ∉ writers))
  | .noField _ _ | .notList _ | .notText _ | .unknownOperator _ | .compoundOperator _
  | .bothQuotes _ | .notTextItem _ _ | .longInteger | .noMargin _ => inferInstanceAs (Decidable True)

/-- All errors that a text may come to are justified. -/
def OnlyJustified {α : Type} (x : Except LayoutError α) : Prop :=
  ∀ e, x = .error e → e.Justified

namespace OnlyJustified

variable {α β : Type}

theorem ok (a : α) :
  OnlyJustified (.ok a)
  := nofun

theorem error {e : LayoutError} (h : e.Justified) :
  OnlyJustified (.error e : Except LayoutError α)
  := by
  rintro _ ⟨⟩
  exact h

/-- One text after another comes to justified errors if both do. -/
theorem bind {x : Except LayoutError α} {f : α → Except LayoutError β} (hx : OnlyJustified x)
    (hf : ∀ a, OnlyJustified (f a)) :
  OnlyJustified (x >>= f)
  := by
  cases x with
  | ok a => exact hf a
  | error e => exact error (hx e rfl)

end OnlyJustified

namespace Tree

/-! ### Expressions -/

theorem onlyJustified_operatorStrength (o : Tree) :
  OnlyJustified o.operatorStrength
  := by
  cases o with
  | scalar v =>
    cases v with
    | text s =>
      rw [operatorStrength]
      cases BinaryOp.ofText? s with
      | some op => exact .ok _
      | none => exact .error trivial
    | _ => exact .error trivial
  | _ => exact .error trivial

theorem onlyJustified_parenthesized (minimum : Nat) (operand : Tree) (text : String) :
  OnlyJustified (operand.parenthesized minimum text)
  := by
  have hstrength : OnlyJustified operand.strength := by
    cases operand with
    | logical o _ _ | binary o _ _ => apply onlyJustified_operatorStrength
    | _ => exact .ok _
  refine hstrength.bind fun n => ?_
  split <;> exact .ok _

theorem onlyJustified_shown (t : Tree) :
  OnlyJustified t.shown
  := by
  rw [shown]
  split
  · exact .error trivial
  · exact .ok _

theorem onlyJustified_within (t : Tree) (text : String) :
  OnlyJustified (t.within text)
  := by
  rw [within]
  cases t.oddName? with
  | some name => apply onlyJustified_shown
  | none => exact .ok _

theorem onlyJustified_joined (o left right : Tree) (l r : String) :
  OnlyJustified (joined o left right l r)
  := (onlyJustified_within _ _).bind fun _ => (onlyJustified_shown _).bind fun _ =>
    (onlyJustified_within _ _).bind fun _ => .ok _

theorem onlyJustified_quotedText (t : Tree) :
  OnlyJustified t.quotedText
  := by
  have hbetween (d s : Bool) (t : Tree) : OnlyJustified (betweenQuotes d s t) := by
    refine (onlyJustified_shown t).bind fun text => ?_
    split
    · exact .ok _
    · split
      · exact .ok _
      · exact .error trivial
  cases t with
  | scalar v =>
    cases v with
    | text s => apply hbetween
    | _ => exact .error trivial
  | list ts => apply hbetween
  | _ => exact .error trivial

theorem onlyJustified_listed (ts : List Tree) (texts : List String) :
  OnlyJustified (listed ts texts)
  := by
  have hunlistable (index : Nat) : ∀ e, unlistable? index ts = some e → e.Justified := by
    induction ts generalizing index with
    | nil => nofun
    | cons t ts ih =>
      intro e he
      rw [unlistable?] at he
      cases hname : t.oddName? with
      | some name =>
        rw [hname] at he
        cases he
        trivial
      | none =>
        rw [hname] at he
        exact ih _ e he
  rw [listed]
  cases he : unlistable? 0 ts with
  | some e => exact .error (hunlistable 0 e he)
  | none => exact .ok _

/-- An operand comes to justified errors if it does so itself, and so does what follows it. -/
theorem onlyJustified_operand {minimum : Nat} {operand : Tree} {α : Type}
    {f : String → Except LayoutError α} (h : OnlyJustified operand.exprText)
    (hf : ∀ text, OnlyJustified (f text)) :
  OnlyJustified (operand.exprText >>= fun text => operand.parenthesized minimum text >>= f)
  := h.bind fun _ => (onlyJustified_parenthesized _ _ _).bind hf

mutual

/-- A node is refused as an expression only if there is no writer for it. -/
theorem onlyJustified_exprText : (t : Tree) → OnlyJustified t.exprText
  | assignment o l r => by
    rw [exprText]
    exact onlyJustified_operand (onlyJustified_exprText l) fun _ =>
      onlyJustified_operand (onlyJustified_exprText r) fun _ => onlyJustified_joined _ _ _ _ _
  | logical o l r => by
    rw [exprText]
    exact (onlyJustified_operatorStrength o).bind fun _ =>
      onlyJustified_operand (onlyJustified_exprText l) fun _ =>
        onlyJustified_operand (onlyJustified_exprText r) fun _ => onlyJustified_joined _ _ _ _ _
  | binary o l r => by
    rw [exprText]
    exact (onlyJustified_operatorStrength o).bind fun _ =>
      onlyJustified_operand (onlyJustified_exprText l) fun _ =>
        onlyJustified_operand (onlyJustified_exprText r) fun _ => onlyJustified_joined _ _ _ _ _
  | unary o argument => by
    rw [exprText]
    exact (onlyJustified_shown o).bind fun _ =>
      onlyJustified_operand (onlyJustified_exprText argument) fun _ =>
        (onlyJustified_within _ _).bind fun _ => .ok _
  | member computed object property => by
    rw [exprText]
    exact onlyJustified_operand (onlyJustified_exprText object) fun _ =>
      (onlyJustified_within _ _).bind fun _ => (onlyJustified_exprText property).bind fun _ =>
        (onlyJustified_within _ _).bind fun _ => .ok _
  | call callee arguments => by
    rw [exprText]
    exact onlyJustified_operand (onlyJustified_exprText callee) fun _ =>
      (onlyJustified_argumentTexts arguments).bind fun _ =>
        (onlyJustified_within _ _).bind fun _ => .ok _
  | number value => onlyJustified_shown value
  | string value => onlyJustified_quotedText value
  | super | identifier _ | boolean _ | null => .ok _
  | scalar _ | list _ => .error trivial
  | program _ | block _ | empty | expression _ | declare _ | declaration _ _ | condition _ _ _ =>
    .error (by decide)

theorem onlyJustified_argumentTexts (t : Tree) : OnlyJustified t.argumentTexts := by
  cases t with
  | list ts =>
    rw [argumentTexts]
    exact (onlyJustified_exprTexts ts).bind fun _ => onlyJustified_listed ts _
  | scalar v =>
    cases v with
    | text s =>
      rw [argumentTexts]
      split
      · exact .ok _
      · exact .error trivial
    | _ => exact .error trivial
  | _ => exact .error trivial

theorem onlyJustified_exprTexts : (ts : List Tree) → OnlyJustified (exprTexts ts)
  | [] => .ok _
  | t :: ts => by
    rw [exprTexts]
    exact (onlyJustified_exprText t).bind fun _ =>
      (onlyJustified_exprTexts ts).bind fun _ => .ok _

end

/-- A node is refused as an expression exactly if there is nothing under the name for
expressions. -/
theorem exprText_eq_noExpression_iff {t : Tree} {kind : Kind} (hkind : t.kind? = some kind) :
  t.exprText = .error (.noExpression kind) ↔ kind.expressionWriter ∉ writers
  := by
  refine ⟨onlyJustified_exprText t _, fun hmissing => ?_⟩
  cases t with
  | program | block | empty | expression | declare | declaration | condition =>
    cases hkind
    rfl
  | scalar | list => cases hkind
  | _ =>
    cases hkind
    exact absurd (by decide) hmissing

theorem onlyJustified_exprWithin (t : Tree) :
  OnlyJustified t.exprWithin
  := (onlyJustified_exprText t).bind fun _ => onlyJustified_within _ _

/-! ### Declarations -/

theorem onlyJustified_nameText (t : Tree) :
  OnlyJustified t.nameText
  := by
  cases t with
  | identifier _ => exact .ok _
  | _ => exact .error trivial

/-- In a declaration only nodes without a writer are refused. -/
theorem onlyJustified_declarationText (t : Tree) :
  OnlyJustified t.declarationText
  := by
  cases t with
  | declaration id init =>
    by_cases hnull : init = scalar .null
    · rw [hnull]
      exact onlyJustified_nameText id
    · rw [declarationText]
      · exact (onlyJustified_nameText id).bind fun _ => (onlyJustified_within _ _).bind fun _ =>
          (onlyJustified_exprWithin init).bind fun _ => .ok _
      · exact hnull
  | _ => exact .error trivial

theorem onlyJustified_declarationTexts (t : Tree) :
  OnlyJustified t.declarationTexts
  := by
  cases t with
  | list ts =>
    have hall : OnlyJustified (ts.mapM declarationText) := by
      induction ts with
      | nil => exact .ok _
      | cons t ts ih =>
        rw [List.mapM_cons]
        exact (onlyJustified_declarationText t).bind fun _ => ih.bind fun _ => .ok _
    rw [declarationTexts]
    exact hall.bind fun _ => onlyJustified_listed _ _
  | scalar v =>
    cases v with
    | text s =>
      rw [declarationTexts]
      split
      · exact .ok _
      · exact .error trivial
    | _ => exact .error trivial
  | _ => exact .error trivial

end Tree

/-! ### Layouts -/

namespace Layout

/-- A statement below a line comes to the same errors as by itself. -/
theorem onlyJustified_below (before : Before) {x : Layout Unit} (h : OnlyJustified x.outcome) :
  OnlyJustified (before.below x).outcome
  := by
  cases before with
  | nothing =>
    rw [Before.below, outcome_bind]
    exact h.bind fun _ => .ok _
  | governor s | otherwise s =>
    rw [Before.below, outcome_bind]
    refine OnlyJustified.bind (.ok ()) fun _ => ?_
    rw [outcome_bind, outcome_nested]
    exact h.bind fun _ => .ok _

theorem onlyJustified_beside (before : Before) {c : String → Layout Unit}
    (h : ∀ start, OnlyJustified (c start).outcome) :
  OnlyJustified (before.beside c).outcome
  := by
  cases before with
  | nothing | governor s => apply onlyJustified_below _ (h "")
  | otherwise s =>
    rw [Before.beside, outcome_bind]
    exact (h (s ++ " ")).bind fun _ => .ok _

theorem onlyJustified_close {x : Layout (Option String)} (h : OnlyJustified x.outcome) :
  OnlyJustified (x >>= close).outcome
  := by
  rw [outcome_bind]
  refine h.bind fun closing => ?_
  rw [outcome_close]
  exact .ok _

/-- A condition comes to the errors of its test and of the statements that it governs. -/
theorem onlyJustified_condition (start : String) {test : Except LayoutError String}
    {consequent : Before → Layout (Option String)}
    {alternate? : Option (Before → Layout (Option String))} (htest : OnlyJustified test)
    (hconsequent : ∀ b, OnlyJustified (consequent b).outcome)
    (halternate : ∀ alternate ∈ alternate?, ∀ b, OnlyJustified (alternate b).outcome) :
  OnlyJustified (condition start test consequent alternate?).outcome
  := by
  rw [condition, outcome_bind, outcome_ofExcept]
  refine htest.bind fun text => ?_
  rw [outcome_bind]
  refine (hconsequent _).bind fun closing => ?_
  cases alternate? with
  | none =>
    change OnlyJustified (close closing).outcome
    rw [outcome_close]
    exact .ok _
  | some alternate =>
    apply onlyJustified_close
    rw [outcome_continued]
    apply halternate alternate rfl

end Layout

/-! ### Statements -/

namespace Tree

open Layout

mutual

/-- A node is refused as a statement only if there is no writer for it. -/
theorem onlyJustified_layoutAfter (before : Before) :
    (t : Tree) → OnlyJustified (t.layoutAfter before).outcome
  | program body => onlyJustified_below before (onlyJustified_layoutBody body)
  | block body => by
    rw [layoutAfter]
    split
    · rw [outcome_bind]
      refine OnlyJustified.bind (.ok ()) fun _ => ?_
      rw [outcome_bind, outcome_nested]
      exact (onlyJustified_layoutBody body).bind fun _ => .ok _
    · exact .ok _
  | empty => onlyJustified_below before (.ok ())
  | expression e => by
    rw [layoutAfter]
    apply onlyJustified_below
    rw [outcome_bind, outcome_ofExcept]
    exact (onlyJustified_exprWithin e).bind fun _ => .ok _
  | declare ds => by
    rw [layoutAfter]
    apply onlyJustified_below
    rw [outcome_bind, outcome_ofExcept]
    exact (onlyJustified_declarationTexts ds).bind fun _ => .ok _
  | declaration id init => by
    rw [layoutAfter]
    apply onlyJustified_below
    rw [outcome_bind, outcome_ofExcept]
    exact (onlyJustified_declarationText _).bind fun _ => .ok _
  | condition test consequent alternate => by
    rw [layoutAfter]
    apply onlyJustified_beside before fun start => ?_
    apply onlyJustified_condition start (onlyJustified_exprWithin test)
      fun b => onlyJustified_layoutAfter b consequent
    split
    · nofun
    · rintro _ ⟨⟩ b
      apply onlyJustified_layoutAfter b alternate
  | scalar _ | list _ => onlyJustified_below before (.error trivial)
  | assignment _ _ _ | logical _ _ _ | binary _ _ _ | unary _ _ | member _ _ _ | call _ _ | super
  | identifier _ | number _ | string _ | boolean _ | null =>
    onlyJustified_below before (.error (by decide))

theorem onlyJustified_layoutBody (t : Tree) : OnlyJustified (layoutBody t).outcome := by
  cases t with
  | list ts =>
    rw [layoutBody]
    apply onlyJustified_layoutItems ts
  | scalar v =>
    cases v with
    | text s =>
      rw [layoutBody]
      split
      · exact .ok _
      · exact .error trivial
    | _ => exact .error trivial
  | _ => exact .error trivial

/-- Among statements only nodes without a writer are refused. -/
theorem onlyJustified_layoutItems : (ts : List Tree) → OnlyJustified (layoutItems ts).outcome
  | [] => .ok _
  | t :: ts => by
    rw [layoutItems, outcome_bind]
    refine (onlyJustified_layoutAfter .nothing t).bind fun closing => ?_
    rw [outcome_bind, outcome_close]
    exact OnlyJustified.bind (.ok ()) fun _ => onlyJustified_layoutItems ts

end

/-- A node is refused as a statement exactly if there is nothing under the name for statements. -/
theorem layout_eq_noStatement_iff {t : Tree} {kind : Kind} (hkind : t.kind? = some kind) :
  t.layout.outcome = .error (.noStatement kind) ↔ kind.statementWriter ∉ writers
  := by
  refine ⟨onlyJustified_close (onlyJustified_layoutAfter .nothing t) _, fun hmissing => ?_⟩
  cases t with
  | assignment | logical | binary | unary | member | call | super | identifier | number | string
  | boolean | null =>
    cases hkind
    rfl
  | scalar | list => cases hkind
  | _ =>
    cases hkind
    exact absurd (by decide) hmissing

end Tree

end Letter
