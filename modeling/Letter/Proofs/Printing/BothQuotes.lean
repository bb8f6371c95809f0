import Letter.Proofs.Printing.Expression
import Letter.Proofs.Printing.Outcome
import Letter.Proofs.Tree.Interchange
import Letter.Proofs.Tree.Typed
import Letter.Tree.Buffer

/-!
# Texts that cannot be quoted

A tree is proper if each of its fields holds what the field is declared to hold.  Unlike a typed
tree it need not be a program: names may be any texts, numbers may be negative, lists may be
empty, and a text may hold both quotes.

A proper tree is written part by part, from left to right, and each text in it is put between
quotes when it is come to.  So the tree has a text unless one of these holds both quotes, and then
the error tells the first one that does.

Main statement: `Tree.emit_error_iff_bothQuotes`.
-/

namespace Letter

/-- Whether a text holds both quotes. -/
def HoldsBothQuotes (s : String) : Prop := '"' ∈ s.toList ∧ '\'' ∈ s.toList

instance (s : String) : Decidable (HoldsBothQuotes s) :=
  inferInstanceAs (Decidable (_ ∧ _))

namespace Tree

/-! ### Proper trees -/

/-- The expressions whose fields hold what they are declared to hold.  The value of a number is an
integer in the wide sense, which includes the truth values, unlike in `IsExpression`: a tree need
only be written here, and a field that is declared to hold an integer may hold a truth value. -/
inductive ProperExpression : Tree → Prop where
  | assignment {l r : Tree} (op : String) (target : ProperExpression l) (h : l.isTarget = true)
      (value : ProperExpression r) : ProperExpression (assignment (text op) l r)
  | logical {l r : Tree} (op : BinaryOp) (left : ProperExpression l)
      (right : ProperExpression r) : ProperExpression (logical (text op.text) l r)
  | binary {l r : Tree} (op : BinaryOp) (left : ProperExpression l)
      (right : ProperExpression r) : ProperExpression (binary (text op.text) l r)
  | unary {t : Tree} (op : String) (argument : ProperExpression t) :
      ProperExpression (unary (text op) t)
  | member {o p : Tree} (computed : Bool) (object : ProperExpression o)
      (property : ProperExpression p) :
      ProperExpression (member (scalar (.boolean computed)) o p)
  | call {c : Tree} {ts : List Tree} (callee : ProperExpression c)
      (arguments : ∀ t ∈ ts, ProperExpression t) : ProperExpression (call c (list ts))
  | superCall {ts : List Tree} (arguments : ∀ t ∈ ts, ProperExpression t) :
      ProperExpression (call super (list ts))
  | identifier (name : String) : ProperExpression (identifier (text name))
  | number {n : Int} (h : n.natAbs < 10 ^ maxDigits) :
      ProperExpression (number (scalar (.integer n)))
  /-- A truth value in the place of an integer. -/
  | truthNumber (b : Bool) : ProperExpression (number (scalar (.boolean b)))
  | string (s : String) : ProperExpression (string (text s))
  | boolean (b : Bool) : ProperExpression (boolean (scalar (.boolean b)))
  | null : ProperExpression null

/-- The declarations whose fields hold what they are declared to hold. -/
inductive ProperDeclaration : Tree → Prop where
  | bare (name : String) :
      ProperDeclaration (declaration (identifier (text name)) (scalar .null))
  | initialized {t : Tree} (name : String) (init : ProperExpression t) :
      ProperDeclaration (declaration (identifier (text name)) t)

/-- The statements whose fields hold what they are declared to hold. -/
inductive ProperStatement : Tree → Prop where
  | block {ts : List Tree} (body : ∀ t ∈ ts, ProperStatement t) : ProperStatement (block (list ts))
  | empty : ProperStatement empty
  | expression {t : Tree} (h : ProperExpression t) : ProperStatement (expression t)
  | declare {ts : List Tree} (h : ∀ t ∈ ts, ProperDeclaration t) :
      ProperStatement (declare (list ts))
  | ifThen {test c : Tree} (h : ProperExpression test) (consequent : ProperStatement c) :
      ProperStatement (condition test c (scalar .null))
  | ifElse {test c a : Tree} (h : ProperExpression test) (consequent : ProperStatement c)
      (alternate : ProperStatement a) : ProperStatement (condition test c a)

/-- The programs, statements and expressions whose fields hold what they are declared to hold. -/
inductive Proper : Tree → Prop where
  | program {ts : List Tree} (body : ∀ t ∈ ts, ProperStatement t) : Proper (program (list ts))
  | statement {t : Tree} (h : ProperStatement t) : Proper t
  | expression {t : Tree} (h : ProperExpression t) : Proper t

/-! ### The texts in a tree -/

mutual

/-- The values of the string literals in a tree, from left to right. -/
def strings : Tree → List String
  | scalar _ | empty | super | null => []
  | list ts => listStrings ts
  | string (scalar (.text s)) => [s]
  | program t | block t | expression t | declare t | identifier t | number t | string t
  | boolean t => strings t
  | declaration t u | unary t u | call t u => strings t ++ strings u
  | condition t u v | assignment t u v | logical t u v | binary t u v | member t u v =>
    strings t ++ strings u ++ strings v

/-- The values of the string literals in trees, from left to right. -/
def listStrings : List Tree → List String
  | [] => []
  | t :: ts => strings t ++ listStrings ts

end

theorem mem_listStrings_iff {ts : List Tree} {s : String} :
  s ∈ listStrings ts ↔ ∃ t ∈ ts, s ∈ t.strings
  := by
  induction ts with
  | nil => simp [listStrings]
  | cons t ts ih => simp [listStrings, ih]

/-- A text is the value of a string literal, or it stands in one of the children. -/
theorem mem_strings_iff_children {t : Tree} {s : String} :
  s ∈ t.strings ↔ string (text s) = t ∨ ∃ u ∈ t.children, s ∈ u.strings
  := by
  cases t with
  | list ts => simp [strings, children, mem_listStrings_iff]
  | string v =>
    cases v with
    | scalar v => cases v <;> simp [strings, children, text, eq_comm]
    | _ => simp [strings, children, text]
  | _ => simp [strings, children]

/-- The texts in a tree are the values of the string literals inside it. -/
theorem mem_strings_iff_inside {t : Tree} {s : String} :
  s ∈ t.strings ↔ (string (text s)).Inside t
  := by
  rw [mem_strings_iff_children, inside_iff]
  apply or_congr Iff.rfl
  exact exists_congr fun u => and_congr_right fun hu => mem_strings_iff_inside
termination_by sizeOf t
decreasing_by exact sizeOf_lt_of_mem_children hu

end Tree

/-! ### Putting texts between quotes -/

/-- What a computation comes to that puts texts between quotes, one after another: an error that
tells the first one that holds both, and a value if none does. -/
def Quotes {α : Type} (x : Except LayoutError α) (ss : List String) : Prop :=
  match ss.find? HoldsBothQuotes with
  | none => ∃ a, x = .ok a
  | some s => x = .error (.bothQuotes (quoted s))

namespace Quotes

variable {α β : Type}

theorem ok (a : α) :
  Quotes (.ok a) []
  := ⟨a, rfl⟩

/-- First the texts of the first computation are quoted, then those of what follows it. -/
theorem bind {x : Except LayoutError α} {f : α → Except LayoutError β} {ss ts : List String}
    (hx : Quotes x ss) (hf : ∀ a, x = .ok a → Quotes (f a) ts) :
  Quotes (x >>= f) (ss ++ ts)
  := by
  rw [Quotes] at hx ⊢
  rw [List.find?_append]
  cases hfirst : ss.find? HoldsBothQuotes with
  | none =>
    rw [hfirst] at hx
    obtain ⟨a, rfl⟩ := hx
    apply hf a rfl
  | some s =>
    rw [hfirst] at hx
    rw [hx]
    rfl

/-- What follows a computation may quote nothing more. -/
theorem bind_ok {x : Except LayoutError α} {f : α → Except LayoutError β} {ss : List String}
    (hx : Quotes x ss) (hf : ∀ a, x = .ok a → ∃ b, f a = .ok b) :
  Quotes (x >>= f) ss
  := by
  have hnone : ∀ a, x = .ok a → Quotes (f a) [] := hf
  rw [← List.append_nil ss]
  apply hx.bind hnone

/-- What precedes a computation may quote nothing. -/
theorem ok_bind {x : Except LayoutError α} {f : α → Except LayoutError β} {ss : List String}
    {a : α} (hx : x = .ok a) (hf : Quotes (f a) ss) :
  Quotes (x >>= f) ss
  := by
  rw [hx]
  exact hf

/-- There is an error exactly if one of the texts holds both quotes, and it tells the first. -/
theorem error_iff {x : Except LayoutError α} {ss : List String} (h : Quotes x ss) :
  ((∃ e, x = .error e) ↔ ∃ s ∈ ss, HoldsBothQuotes s)
    ∧ ∀ e, x = .error e → ∃ s, ss.find? HoldsBothQuotes = some s ∧ e = .bothQuotes (quoted s)
  := by
  rw [Quotes] at h
  cases hfirst : ss.find? HoldsBothQuotes with
  | none =>
    rw [hfirst] at h
    obtain ⟨a, rfl⟩ := h
    have hnone : ¬ ∃ s ∈ ss, HoldsBothQuotes s := by simpa using hfirst
    exact ⟨iff_of_false nofun hnone, nofun⟩
  | some s =>
    rw [hfirst] at h
    have hsome : HoldsBothQuotes s := by simpa using List.find?_some hfirst
    refine ⟨iff_of_true ⟨_, h⟩ ⟨s, List.mem_of_find?_eq_some hfirst, hsome⟩, fun e he => ?_⟩
    rw [h] at he
    cases he
    exact ⟨s, rfl, rfl⟩

end Quotes

/-! ### Expressions -/

namespace Tree

theorem ProperExpression.exists_strength {t : Tree} (h : t.ProperExpression) :
  ∃ n, t.strength = .ok n
  := by
  cases h with
  | logical op _ _ | binary op _ _ => exact ⟨_, Expr.operatorStrength_text op⟩
  | _ => exact ⟨_, rfl⟩

theorem ProperExpression.oddName?_eq {t : Tree} (h : t.ProperExpression) :
  t.oddName? = none
  := by cases h <;> rfl

theorem ProperExpression.within_eq {t : Tree} (h : t.ProperExpression) (text : String) :
  t.within text = .ok text
  := within_eq_ok h.oddName?_eq text

theorem ProperExpression.exists_joined {left right : Tree} (hleft : left.ProperExpression)
    (hright : right.ProperExpression) (op l r : String) :
  ∃ s, joined (text op) left right l r = .ok s
  := ⟨_, joined_eq_ok hleft.oddName?_eq hright.oddName?_eq op l r⟩

theorem unlistable?_eq_none {ts : List Tree} (h : ∀ t ∈ ts, t.oddName? = none) (index : Nat) :
  unlistable? index ts = none
  := by
  induction ts generalizing index with
  | nil => rfl
  | cons t ts ih =>
    rw [List.forall_mem_cons] at h
    rw [unlistable?, h.1]
    apply ih h.2

theorem exists_listed {ts : List Tree} (h : ∀ t ∈ ts, t.oddName? = none) (texts : List String) :
  ∃ ss, listed ts texts = .ok ss
  := ⟨texts, by rw [listed, unlistable?_eq_none h]⟩

/-- An operand quotes its texts; then parentheses may be put around it. -/
theorem quotes_operand {t : Tree} {minimum : Nat} {ss : List String} (ht : Quotes t.exprText ss)
    (hstrength : ∃ n, t.strength = .ok n) {α : Type} {f : String → Except LayoutError α}
    {ts : List String} (hf : ∀ text, Quotes (f text) ts) :
  Quotes (t.exprText >>= fun text => t.parenthesized minimum text >>= f) (ss ++ ts)
  := by
  obtain ⟨n, hn⟩ := hstrength
  refine ht.bind fun text _ => ?_
  rw [parenthesized, hn]
  change Quotes ((if n < minimum then pure ("(" ++ text ++ ")") else pure text) >>= f) ts
  split <;> apply hf

/-- The last operand of an expression. -/
theorem quotes_lastOperand {t : Tree} {minimum : Nat} {ss : List String}
    (ht : Quotes t.exprText ss) (hstrength : ∃ n, t.strength = .ok n) {α : Type}
    {f : String → Except LayoutError α} (hf : ∀ text, ∃ a, f text = .ok a) :
  Quotes (t.exprText >>= fun text => t.parenthesized minimum text >>= f) ss
  := by
  rw [← List.append_nil ss]
  exact quotes_operand ht hstrength hf

/-- Expressions quote their texts one after another. -/
theorem quotes_exprTexts {ts : List Tree} (h : ∀ t ∈ ts, Quotes t.exprText t.strings) :
  Quotes (exprTexts ts) (listStrings ts)
  := by
  induction ts with
  | nil => exact .ok []
  | cons t ts ih =>
    rw [List.forall_mem_cons] at h
    rw [exprTexts, listStrings]
    refine h.1.bind fun text _ => ?_
    exact (ih h.2).bind_ok fun texts _ => ⟨_, rfl⟩

theorem quotes_argumentTexts {ts : List Tree} (h : ∀ t ∈ ts, t.ProperExpression)
    (hquotes : ∀ t ∈ ts, Quotes t.exprText t.strings) :
  Quotes (list ts).argumentTexts (listStrings ts)
  := by
  rw [argumentTexts]
  exact (quotes_exprTexts hquotes).bind_ok fun texts _ =>
    exists_listed (fun t ht => (h t ht).oddName?_eq) texts

/-- A text is quoted unless it holds both quotes. -/
theorem quotes_quotedText (s : String) :
  Quotes (text s).quotedText [s]
  := by
  by_cases h : HoldsBothQuotes s
  · have hrefused : (text s).quotedText = .error (.bothQuotes (quoted s)) := by
      obtain ⟨hdouble, hsingle⟩ := h
      rw [text, quotedText, betweenQuotes]
      simp [hdouble, hsingle]
      rfl
    rw [hrefused, Quotes, List.find?_cons_of_pos (by simpa using h)]
  · rw [Expr.quotedText_text h, Quotes, List.find?_cons_of_neg (by simpa using h)]
    exact ⟨_, rfl⟩

/-- A proper expression quotes its texts from left to right. -/
theorem ProperExpression.quotes_exprText {t : Tree} (h : t.ProperExpression) :
  Quotes t.exprText t.strings
  := by
  induction h with
  | assignment op target _ value ih ih' =>
    rw [exprText]
    refine quotes_operand ih target.exists_strength fun l => ?_
    exact quotes_lastOperand ih' value.exists_strength fun r => target.exists_joined value op l r
  | logical op left right ih ih' | binary op left right ih ih' =>
    rw [exprText]
    refine .ok_bind (Expr.operatorStrength_text op) ?_
    refine quotes_operand ih left.exists_strength fun l => ?_
    exact quotes_lastOperand ih' right.exists_strength fun r => left.exists_joined right op.text l r
  | unary op argument ih =>
    rw [exprText]
    refine .ok_bind (Expr.shown_text op) ?_
    refine quotes_lastOperand ih argument.exists_strength fun a => ?_
    rw [argument.within_eq]
    exact ⟨_, rfl⟩
  | member computed object property ih ih' =>
    rw [exprText]
    refine quotes_operand ih object.exists_strength fun o => ?_
    refine .ok_bind (object.within_eq o) ?_
    refine ih'.bind_ok fun p _ => ?_
    rw [property.within_eq]
    exact ⟨_, rfl⟩
  | call callee arguments ih ih' =>
    rw [exprText, strings, strings]
    refine quotes_operand ih callee.exists_strength fun head => ?_
    refine (quotes_argumentTexts arguments ih').bind_ok fun texts _ => ?_
    rw [callee.within_eq]
    exact ⟨_, rfl⟩
  | superCall arguments ih' =>
    rw [exprText, strings, strings]
    refine quotes_operand (t := super) (.ok _) ⟨_, rfl⟩ fun head => ?_
    exact (quotes_argumentTexts arguments ih').bind_ok fun texts _ => ⟨_, rfl⟩
  | identifier name => exact .ok _
  | number h => exact ⟨_, Expr.shown_number h⟩
  | truthNumber _ => exact .ok _
  | string s => exact quotes_quotedText s
  | boolean _ => exact .ok _
  | null => exact .ok _

theorem ProperExpression.quotes_exprWithin {t : Tree} (h : t.ProperExpression) :
  Quotes t.exprWithin t.strings
  := by
  rw [exprWithin_eq_exprText h.oddName?_eq]
  exact h.quotes_exprText

/-! ### Declarations -/

theorem ProperExpression.ne_null {t : Tree} (h : t.ProperExpression) :
  t ≠ scalar .null
  := by cases h <;> simp

/-- A proper declaration quotes the texts of its value. -/
theorem ProperDeclaration.quotes_declarationText {t : Tree} (h : t.ProperDeclaration) :
  Quotes t.declarationText t.strings
  := by
  cases h with
  | bare name => exact .ok _
  | initialized name init =>
    rw [declarationText]
    · refine .ok_bind (a := name) rfl (.ok_bind (a := name) rfl ?_)
      exact init.quotes_exprWithin.bind_ok fun text _ => ⟨_, rfl⟩
    · exact init.ne_null

theorem ProperDeclaration.oddName?_bareDeclared {t : Tree} (h : t.ProperDeclaration) :
  t.bareDeclared.oddName? = none
  := by
  cases h with
  | bare name => rfl
  | initialized name init =>
    rw [bareDeclared]
    · rfl
    · intro id hid
      exact init.ne_null (declaration.inj hid).2

/-- Declarations quote their texts one after another. -/
theorem quotes_declarationTexts {ts : List Tree} (h : ∀ t ∈ ts, t.ProperDeclaration) :
  Quotes (list ts).declarationTexts (listStrings ts)
  := by
  have hall : Quotes (ts.mapM declarationText) (listStrings ts) := by
    induction ts with
    | nil => exact .ok []
    | cons t ts ih =>
      rw [List.forall_mem_cons] at h
      rw [List.mapM_cons, listStrings]
      refine h.1.quotes_declarationText.bind fun text _ => ?_
      exact (ih h.2).bind_ok fun texts _ => ⟨_, rfl⟩
  rw [declarationTexts]
  refine hall.bind_ok fun texts _ => exists_listed ?_ texts
  exact List.forall_mem_map.2 fun t ht => (h t ht).oddName?_bareDeclared

end Tree

/-! ### Layouts -/

namespace Layout

variable {α β : Type}

theorem quotes_close {x : Layout (Option String)} {ss : List String} (h : Quotes x.outcome ss) :
  Quotes (x >>= close).outcome ss
  := by
  rw [outcome_bind]
  exact h.bind_ok fun closing _ => ⟨(), outcome_close closing⟩

/-- A statement below a line quotes the same texts as by itself. -/
theorem quotes_below (before : Before) {x : Layout Unit} {ss : List String}
    (h : Quotes x.outcome ss) :
  Quotes (before.below x).outcome ss
  := by
  cases before with
  | nothing =>
    rw [Before.below, outcome_bind]
    exact h.bind_ok fun _ _ => ⟨none, rfl⟩
  | governor s | otherwise s =>
    rw [Before.below, outcome_bind]
    refine .ok_bind (a := ()) rfl ?_
    rw [outcome_bind, outcome_nested]
    exact h.bind_ok fun _ _ => ⟨none, rfl⟩

theorem quotes_beside (before : Before) {c : String → Layout Unit} {ss : List String}
    (h : ∀ start, Quotes (c start).outcome ss) :
  Quotes (before.beside c).outcome ss
  := by
  cases before with
  | nothing | governor s => apply quotes_below _ (h "")
  | otherwise s =>
    rw [Before.beside, outcome_bind]
    exact (h (s ++ " ")).bind_ok fun _ _ => ⟨none, rfl⟩

/-- A condition quotes the texts of its test, then those of the statement that it governs, and
then those of the alternative. -/
theorem quotes_condition (start : String) {test : Except LayoutError String}
    {consequent : Before → Layout (Option String)}
    {alternate? : Option (Before → Layout (Option String))} {ss ts us : List String}
    (htest : Quotes test ss) (hconsequent : ∀ b, Quotes (consequent b).outcome ts)
    (hnone : alternate? = none → us = [])
    (hsome : ∀ alternate ∈ alternate?, ∀ b, Quotes (alternate b).outcome us) :
  Quotes (condition start test consequent alternate?).outcome (ss ++ ts ++ us)
  := by
  rw [condition, outcome_bind, outcome_ofExcept, List.append_assoc]
  refine htest.bind fun text _ => ?_
  rw [outcome_bind]
  refine (hconsequent _).bind fun closing _ => ?_
  cases alternate? with
  | none =>
    rw [hnone rfl]
    exact ⟨(), outcome_close closing⟩
  | some alternate =>
    apply quotes_close
    rw [outcome_continued]
    apply hsome alternate rfl

end Layout

/-! ### Statements -/

namespace Tree

open Layout

/-- Statements quote their texts one after another. -/
theorem quotes_layoutItems {ts : List Tree}
    (h : ∀ t ∈ ts, ∀ before, Quotes (t.layoutAfter before).outcome t.strings) :
  Quotes (layoutItems ts).outcome (listStrings ts)
  := by
  induction ts with
  | nil => exact .ok ()
  | cons t ts ih =>
    rw [List.forall_mem_cons] at h
    rw [layoutItems, listStrings, outcome_bind]
    refine (h.1 .nothing).bind fun closing _ => ?_
    rw [outcome_bind]
    exact .ok_bind (outcome_close closing) (ih h.2)

theorem ProperStatement.isNull_eq {t : Tree} (h : t.ProperStatement) :
  t.isNull = false
  := by cases h <;> rfl

/-- A proper statement quotes its texts from left to right, whatever stands before it. -/
theorem ProperStatement.quotes_layoutAfter {t : Tree} (h : t.ProperStatement) :
  ∀ before, Quotes (t.layoutAfter before).outcome t.strings
  := by
  induction h with
  | @block ts body ih =>
    intro before
    rw [layoutAfter, strings, strings]
    split
    · rw [outcome_bind]
      refine .ok_bind (a := ()) rfl ?_
      rw [outcome_bind, outcome_nested]
      exact (quotes_layoutItems ih).bind_ok fun _ _ => ⟨_, rfl⟩
    · next htruth =>
      obtain rfl : ts = [] := by simpa [truth] using htruth
      exact .ok _
  | empty =>
    intro before
    have hline : Quotes (line ";").outcome [] := .ok ()
    exact quotes_below before hline
  | expression h =>
    intro before
    rw [layoutAfter]
    apply quotes_below
    rw [outcome_bind, outcome_ofExcept]
    exact h.quotes_exprWithin.bind_ok fun text _ => ⟨(), rfl⟩
  | declare h =>
    intro before
    rw [layoutAfter]
    apply quotes_below
    rw [outcome_bind, outcome_ofExcept]
    exact (quotes_declarationTexts h).bind_ok fun texts _ => ⟨(), rfl⟩
  | ifThen h _ ih =>
    intro before
    rw [layoutAfter, strings]
    apply quotes_beside before fun start => ?_
    exact quotes_condition start h.quotes_exprWithin ih (fun _ => rfl) nofun
  | ifElse h _ alternate ih ih' =>
    intro before
    rw [layoutAfter, strings, alternate.isNull_eq]
    apply quotes_beside before fun start => ?_
    refine quotes_condition start h.quotes_exprWithin ih nofun ?_
    rintro _ ⟨⟩ b
    apply ih' b

theorem ProperStatement.isStatement_kind {t : Tree} (h : t.ProperStatement) :
  (t.kind?.map Kind.isStatement).getD false = true
  := by cases h <;> rfl

theorem ProperExpression.isStatement_kind {t : Tree} (h : t.ProperExpression) :
  (t.kind?.map Kind.isStatement).getD false = false
  := by cases h <;> rfl

theorem Proper.oddName?_eq {t : Tree} (h : t.Proper) :
  t.oddName? = none
  := by
  cases h with
  | program _ => rfl
  | statement h => cases h <;> rfl
  | expression h => exact h.oddName?_eq

/-- A proper tree quotes its texts from left to right when it is laid out as a whole. -/
theorem Proper.quotes_whole {t : Tree} (h : t.Proper) :
  Quotes (Buffer.whole t).outcome t.strings
  := by
  cases h with
  | program body =>
    apply quotes_close
    apply quotes_below .nothing
    exact quotes_layoutItems fun t ht => (body t ht).quotes_layoutAfter
  | statement h =>
    rw [Buffer.whole, if_pos h.isStatement_kind]
    apply quotes_close (h.quotes_layoutAfter .nothing)
  | expression h =>
    rw [Buffer.whole, if_neg (by rw [h.isStatement_kind]; simp), outcome_bind, outcome_ofExcept]
    exact h.quotes_exprText.bind_ok fun text _ => ⟨(), rfl⟩

/-- The text of a tree that is no odd name comes to what its layout comes to. -/
theorem emit_eq_outcome {t : Tree} (h : t.oddName? = none) :
  ∃ text, t.emit = (Buffer.whole t).outcome.map fun _ => text
  := by
  rw [emit, Buffer.emit, h]
  dsimp only
  rw [Buffer.write_clear, Buffer.add, outcome]
  cases (Buffer.whole t).result with
  | ok a => exact ⟨_, rfl⟩
  | error e => exact ⟨"", rfl⟩

/-- A proper tree has a text unless one of the string literals inside it holds both quotes, and
then the error tells the value of the first one from left to right. -/
theorem emit_error_iff_bothQuotes {t : Tree} (h : t.Proper) :
  ((∃ e, t.emit = .error e) ↔ ∃ s, (string (text s)).Inside t ∧ HoldsBothQuotes s)
    ∧ ∀ e, t.emit = .error e →
      ∃ s, t.strings.find? HoldsBothQuotes = some s ∧ e = .bothQuotes (quoted s)
  := by
  obtain ⟨text, hemit⟩ := emit_eq_outcome h.oddName?_eq
  have hquotes : Quotes t.emit t.strings := by
    rw [hemit]
    exact h.quotes_whole.bind_ok fun _ _ => ⟨text, rfl⟩
  simp only [← mem_strings_iff_inside]
  exact hquotes.error_iff

/-- A condition with a text that holds both quotes in each of its parts. -/
def unquotable : Tree :=
  condition (call (identifier (text "f")) (list [string (text "a"), string (text "1'\"")]))
    (block (list [expression (string (text "2'\""))])) (expression (string (text "3'\"")))

/-- The first of three texts with both quotes is told, which is an argument in the test. -/
theorem emit_error_iff_bothQuotes_unquotable :
  unquotable.Proper ∧ unquotable.strings = ["a", "1'\"", "2'\"", "3'\""]
    ∧ unquotable.emit = .error (.bothQuotes (quoted "1'\""))
  := by
  have hstatement : unquotable.ProperStatement := by
    refine .ifElse (.call (.identifier "f") ?_) (.block ?_) (.expression (.string _))
    · simpa using ⟨.string _, .string _⟩
    · simpa using .expression (.string _)
  have hproper : unquotable.Proper := .statement hstatement
  obtain ⟨herror, hfirst⟩ := emit_error_iff_bothQuotes hproper
  have hinside : (string (text "3'\"")).Inside unquotable :=
    mem_strings_iff_inside.1 (by decide)
  obtain ⟨e, he⟩ := herror.2 ⟨_, hinside, by decide⟩
  obtain ⟨s, hs, rfl⟩ := hfirst e he
  obtain rfl : "1'\"" = s := Option.some.inj hs
  exact ⟨hproper, rfl, he⟩

end Tree

end Letter
