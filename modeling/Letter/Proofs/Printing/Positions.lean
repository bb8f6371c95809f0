import Letter.Proofs.Printing.Lines
import Letter.Proofs.Results
import Letter.Tree.Buffer
import Mathlib.Logic.Relation

/-!
# What stands in statement positions

A tree that has a text is written part by part, and each part that is come to is written as a
statement, an expression or a declaration: `Tree.IsWritten.of_reaches`.  So what stands where a
statement is expected is a statement, with two exceptions.  Of a program the statements are
written, as if they stood in its place.  Of a declaration nothing is written, though its text is
worked out.

Main statement: `Tree.emit_statement_positions`.
-/

namespace Letter

/-! ### Layouts that come to an end -/

namespace Layout

variable {α β : Type}

instance : LawfulMonad Layout :=
  .mk' Layout
    (fun x => by
      change Layout.bind x Layout.pure = x
      obtain ⟨lines, result⟩ := x
      cases result <;> simp [Layout.bind, Layout.pure])
    (fun a f => by
      change Layout.bind (Layout.pure a) f = f a
      simp [Layout.bind, Layout.pure])
    (fun x f g => by
      change Layout.bind (Layout.bind x f) g = Layout.bind x fun a => Layout.bind (f a) g
      obtain ⟨lines, result⟩ := x
      cases result with
      | error e => rfl
      | ok a => cases hresult : (f a).result <;> simp [Layout.bind, hresult])

/-- A layout that comes to an end. -/
def Ends (x : Layout α) : Prop := ∃ a, x.result = .ok a

theorem Ends.of_bind {x : Layout α} {f : α → Layout β} (h : (x >>= f).Ends) :
  ∃ a, x.result = .ok a ∧ (f a).Ends
  := by
  obtain ⟨b, hb⟩ := h
  cases hx : x.result with
  | ok a => exact ⟨a, rfl, b, (result_bind hx f).symm.trans hb⟩
  | error e =>
    have herror : (x >>= f).result = .error e := by
      change (Layout.bind x f).result = _
      rw [Layout.bind, hx]
    cases herror.symm.trans hb

theorem Ends.of_nested {x : Layout α} (h : x.nested.Ends) :
  x.Ends
  := h.imp fun _ => mapError_eq_ok.1

theorem Ends.of_continued {x : Layout α} (h : x.continued.Ends) :
  x.Ends
  := h.imp fun _ => mapError_eq_ok.1

theorem Ends.of_ofExcept {x : Except LayoutError α} (h : (ofExcept x).Ends) :
  ∃ a, x = .ok a
  := by
  cases x with
  | ok a => exact ⟨a, rfl⟩
  | error e =>
    obtain ⟨_, ⟨⟩⟩ := h

/-- A statement below a line comes to an end if the whole does. -/
theorem Ends.of_below {b : Before} {x : Layout Unit} (h : (b.below x).Ends) :
  x.Ends
  := by
  cases b with
  | nothing =>
    obtain ⟨_, hx, -⟩ := h.of_bind
    exact ⟨_, hx⟩
  | governor s | otherwise s =>
    obtain ⟨_, -, hlater⟩ := h.of_bind
    obtain ⟨_, hx, -⟩ := hlater.of_bind
    exact Ends.of_nested ⟨_, hx⟩

theorem Ends.of_beside {b : Before} {c : String → Layout Unit} (h : (b.beside c).Ends) :
  ∃ start, (c start).Ends
  := by
  cases b with
  | nothing => exact ⟨"", h.of_below⟩
  | governor s => exact ⟨"", h.of_below⟩
  | otherwise s =>
    obtain ⟨_, hc, -⟩ := h.of_bind
    exact ⟨s ++ " ", _, hc⟩

/-- A condition is written with its test, the statement that it governs and the alternative. -/
theorem Ends.of_condition {start : String} {test : Except LayoutError String}
    {consequent : Before → Layout (Option String)}
    {alternate? : Option (Before → Layout (Option String))}
    (h : (condition start test consequent alternate?).Ends) :
  (∃ text, test = .ok text) ∧ (∃ b, (consequent b).Ends)
    ∧ ∀ alternate ∈ alternate?, ∃ b, (alternate b).Ends
  := by
  obtain ⟨text, htest, h⟩ := h.of_bind
  obtain ⟨closing, hconsequent, h⟩ := h.of_bind
  refine ⟨Ends.of_ofExcept ⟨text, htest⟩, ⟨_, closing, hconsequent⟩, ?_⟩
  rintro alternate rfl
  obtain ⟨last, halternate, -⟩ := h.of_bind
  exact ⟨_, Ends.of_continued ⟨last, halternate⟩⟩

end Layout

namespace Tree

open Layout

/-! ### The parts that are written -/

/-- The items of a list. -/
def items : Tree → List Tree
  | list ts => ts
  | _ => []

/-- What stands in the statement positions of a node. -/
def statements : Tree → List Tree
  | program body | block body => body.items
  | condition _ consequent alternate =>
    if alternate.isNull then [consequent] else [consequent, alternate]
  | _ => []

/-- What stands in a node where an expression or a declaration is expected; operators, names and
the values of literals are but shown. -/
def terms : Tree → List Tree
  | expression e => [e]
  | declare ds => ds.items
  | declaration _ init => if init.isNull then [] else [init]
  | condition test _ _ => [test]
  | assignment _ l r | logical _ l r | binary _ l r => [l, r]
  | unary _ argument => [argument]
  | member _ o p => [o, p]
  | call callee arguments => callee :: arguments.items
  | _ => []

/-- Writing a tree comes to each of its parts, and in turn to theirs. -/
def Reaches : Tree → Tree → Prop :=
  Relation.ReflTransGen fun t u => u ∈ t.statements ++ t.terms

/-- Whether a tree is a statement. -/
def isStatement : Tree → Bool
  | block _ | empty | expression _ | declare _ | condition _ _ _ => true
  | _ => false

/-- A tree that can be laid out where a statement is expected. -/
def IsLaid (t : Tree) : Prop := ∃ before, (t.layoutAfter before).Ends

/-- A tree that can be written as a statement, an expression or a declaration. -/
def IsWritten (t : Tree) : Prop :=
  t.IsLaid ∨ (∃ text, t.exprText = .ok text) ∨ ∃ text, t.declarationText = .ok text

/-- Statements that are laid out one after another are all laid out. -/
theorem isLaid_of_layoutItems {ts : List Tree} (h : (layoutItems ts).Ends) :
  ∀ t ∈ ts, t.IsLaid
  := by
  induction ts with
  | nil => nofun
  | cons t ts ih =>
    rw [layoutItems] at h
    obtain ⟨closing, ht, hlater⟩ := h.of_bind
    obtain ⟨_, -, hts⟩ := hlater.of_bind
    exact List.forall_mem_cons.2 ⟨⟨_, closing, ht⟩, ih hts⟩

theorem isLaid_of_layoutBody {body : Tree} (h : (layoutBody body).Ends) :
  ∀ t ∈ body.items, t.IsLaid
  := by
  cases body with
  | list ts => exact isLaid_of_layoutItems h
  | _ => nofun

/-- What stands where a statement is expected in a tree that is written can be laid out. -/
theorem IsWritten.of_mem_statements {t s : Tree} (h : t.IsWritten) (hs : s ∈ t.statements) :
  s.IsLaid
  := by
  obtain ⟨before, h⟩ | ⟨text, h⟩ | ⟨text, h⟩ := h
  · cases t with
    | program body => exact isLaid_of_layoutBody h.of_below s hs
    | block body =>
      rw [layoutAfter] at h
      split at h
      · obtain ⟨_, -, h⟩ := h.of_bind
        obtain ⟨_, hbody, -⟩ := h.of_bind
        exact isLaid_of_layoutBody (.of_nested ⟨_, hbody⟩) s hs
      · next htruth =>
        cases body with
        | list ts =>
          obtain rfl : ts = [] := by simpa [truth] using htruth
          cases hs
        | _ => cases hs
    | condition test consequent alternate =>
      obtain ⟨start, h⟩ := h.of_beside
      obtain ⟨-, hconsequent, halternate⟩ := h.of_condition
      rw [statements] at hs
      split at hs
      · obtain rfl := List.mem_singleton.1 hs
        exact hconsequent
      · next hnull =>
        rw [List.mem_cons, List.mem_singleton] at hs
        obtain rfl | rfl := hs
        · exact hconsequent
        · exact halternate _ (by rw [if_neg hnull]; rfl)
    | _ => cases hs
  · cases t <;> first | cases hs | cases h
  · cases t <;> first | cases hs | cases h

/-! ### Expressions and declarations -/

theorem exists_ok_of_bind {α β : Type} {x : Except LayoutError α} {f : α → Except LayoutError β}
    {b : β} (h : (x >>= f) = .ok b) :
  ∃ a, x = .ok a ∧ f a = .ok b
  := by
  cases x with
  | ok a => exact ⟨a, rfl, h⟩
  | error e => cases h

theorem isWritten_of_exprTexts {ts : List Tree} {texts : List String}
    (h : exprTexts ts = .ok texts) :
  ∀ t ∈ ts, t.IsWritten
  := by
  induction ts generalizing texts with
  | nil => nofun
  | cons t ts ih =>
    rw [exprTexts] at h
    obtain ⟨text, ht, hlater⟩ := exists_ok_of_bind h
    obtain ⟨later, hts, -⟩ := exists_ok_of_bind hlater
    exact List.forall_mem_cons.2 ⟨.inr (.inl ⟨text, ht⟩), ih hts⟩

theorem isWritten_of_argumentTexts {arguments : Tree} {texts : List String}
    (h : argumentTexts arguments = .ok texts) :
  ∀ t ∈ arguments.items, t.IsWritten
  := by
  cases arguments with
  | list ts =>
    rw [argumentTexts] at h
    obtain ⟨texts, hts, -⟩ := exists_ok_of_bind h
    exact isWritten_of_exprTexts hts
  | _ => nofun

theorem isWritten_of_declarationTexts {ds : Tree} {texts : List String}
    (h : declarationTexts ds = .ok texts) :
  ∀ d ∈ ds.items, d.IsWritten
  := by
  cases ds with
  | list ts =>
    rw [declarationTexts] at h
    obtain ⟨texts, hts, -⟩ := exists_ok_of_bind h
    clear h
    induction ts generalizing texts with
    | nil => nofun
    | cons t ts ih =>
      rw [List.mapM_cons] at hts
      obtain ⟨text, ht, hlater⟩ := exists_ok_of_bind hts
      obtain ⟨later, hts, -⟩ := exists_ok_of_bind hlater
      exact List.forall_mem_cons.2 ⟨.inr (.inr ⟨text, ht⟩), ih later hts⟩
  | _ => nofun

theorem isWritten_of_exprWithin {t : Tree} {text : String} (h : t.exprWithin = .ok text) :
  t.IsWritten
  := by
  obtain ⟨text', htext, -⟩ := exists_ok_of_bind h
  exact .inr (.inl ⟨text', htext⟩)

theorem isWritten_of_mem_pair {l r : Tree} (hl : l.IsWritten) (hr : r.IsWritten) :
  ∀ t ∈ [l, r], t.IsWritten
  := by simp [hl, hr]

/-- An operand that has a text, and what follows it. -/
theorem isWritten_of_operand {minimum : Nat} {operand : Tree} {α : Type}
    {f : String → Except LayoutError α} {a : α}
    (h : (operand.exprText >>= fun text => operand.parenthesized minimum text >>= f) = .ok a) :
  operand.IsWritten ∧ ∃ text, f text = .ok a
  := by
  obtain ⟨text, htext, h⟩ := exists_ok_of_bind h
  obtain ⟨text', -, h⟩ := exists_ok_of_bind h
  exact ⟨.inr (.inl ⟨text, htext⟩), text', h⟩

/-- The parts of an expression that has a text have texts. -/
theorem isWritten_of_exprText {t u : Tree} {text : String} (h : t.exprText = .ok text)
    (hu : u ∈ t.terms) :
  u.IsWritten
  := by
  cases t with
  | assignment o l r =>
    obtain ⟨hl, _, h⟩ := isWritten_of_operand h
    obtain ⟨hr, -⟩ := isWritten_of_operand h
    exact isWritten_of_mem_pair hl hr u hu
  | logical o l r | binary o l r =>
    obtain ⟨_, -, h⟩ := exists_ok_of_bind h
    obtain ⟨hl, _, h⟩ := isWritten_of_operand h
    obtain ⟨hr, -⟩ := isWritten_of_operand h
    exact isWritten_of_mem_pair hl hr u hu
  | unary o argument =>
    obtain ⟨_, -, h⟩ := exists_ok_of_bind h
    obtain ⟨hargument, -⟩ := isWritten_of_operand h
    obtain rfl := List.mem_singleton.1 hu
    exact hargument
  | member computed o p =>
    obtain ⟨ho, _, h⟩ := isWritten_of_operand h
    obtain ⟨_, -, h⟩ := exists_ok_of_bind h
    obtain ⟨_, hp, -⟩ := exists_ok_of_bind h
    exact isWritten_of_mem_pair ho (.inr (.inl ⟨_, hp⟩)) u hu
  | call callee arguments =>
    obtain ⟨hcallee, _, h⟩ := isWritten_of_operand h
    obtain ⟨_, harguments, -⟩ := exists_ok_of_bind h
    rw [terms, List.mem_cons] at hu
    obtain rfl | hu := hu
    · exact hcallee
    · exact isWritten_of_argumentTexts harguments u hu
  | super | identifier | number | string | boolean | null => cases hu
  | _ => cases h

/-- The value in a declaration that has a text is written. -/
theorem isWritten_of_declarationText {t u : Tree} {text : String}
    (h : t.declarationText = .ok text) (hu : u ∈ t.terms) :
  u.IsWritten
  := by
  cases t with
  | declaration id init =>
    rw [terms] at hu
    split at hu
    · cases hu
    · next hnull =>
      obtain rfl := List.mem_singleton.1 hu
      rw [declarationText] at h
      · obtain ⟨_, -, h⟩ := exists_ok_of_bind h
        obtain ⟨_, -, h⟩ := exists_ok_of_bind h
        obtain ⟨_, hinit, -⟩ := exists_ok_of_bind h
        exact isWritten_of_exprWithin hinit
      · rintro rfl
        exact hnull rfl
  | _ => cases h

/-- What stands where an expression or declaration is expected in a tree that is written is
written too. -/
theorem IsWritten.of_mem_terms {t u : Tree} (h : t.IsWritten) (hu : u ∈ t.terms) :
  u.IsWritten
  := by
  obtain ⟨before, h⟩ | ⟨text, h⟩ | ⟨text, h⟩ := h
  · cases t with
    | expression e =>
      obtain ⟨_, he, -⟩ := h.of_below.of_bind
      obtain ⟨_, he⟩ := Ends.of_ofExcept ⟨_, he⟩
      obtain rfl := List.mem_singleton.1 hu
      exact isWritten_of_exprWithin he
    | declare ds =>
      obtain ⟨_, hds, -⟩ := h.of_below.of_bind
      obtain ⟨_, hds⟩ := Ends.of_ofExcept ⟨_, hds⟩
      exact isWritten_of_declarationTexts hds u hu
    | declaration id init =>
      obtain ⟨_, hd, -⟩ := h.of_below.of_bind
      obtain ⟨_, hd⟩ := Ends.of_ofExcept ⟨_, hd⟩
      exact isWritten_of_declarationText hd hu
    | condition test consequent alternate =>
      obtain ⟨start, h⟩ := h.of_beside
      obtain ⟨⟨_, htest⟩, -⟩ := h.of_condition
      obtain rfl := List.mem_singleton.1 hu
      exact isWritten_of_exprWithin htest
    | program | block | empty | scalar | list | super | identifier | number | string | boolean
    | null => cases hu
    | _ =>
      obtain ⟨_, ⟨⟩⟩ := h.of_below
  · exact isWritten_of_exprText h hu
  · exact isWritten_of_declarationText h hu

/-- Whatever writing a tree comes to is written. -/
theorem IsWritten.of_reaches {t u : Tree} (h : t.IsWritten) (hreach : t.Reaches u) :
  u.IsWritten
  := by
  induction hreach with
  | refl => exact h
  | tail _ hu ih =>
    obtain hu | hu := List.mem_append.1 hu
    · exact .inl (ih.of_mem_statements hu)
    · exact ih.of_mem_terms hu

/-- What is laid out where a statement is expected is a statement, unless it is a program or a
declaration. -/
theorem IsLaid.isStatement {s : Tree} (h : s.IsLaid) (hprogram : s.kind? ≠ some .program)
    (hdeclaration : ∀ text, s.declarationText ≠ .ok text) :
  s.isStatement = true
  := by
  obtain ⟨before, h⟩ := h
  cases s with
  | block | empty | expression | declare | condition => rfl
  | program => exact absurd rfl hprogram
  | declaration id init =>
    obtain ⟨_, hd, -⟩ := h.of_below.of_bind
    obtain ⟨text, hd⟩ := Ends.of_ofExcept ⟨_, hd⟩
    exact absurd hd (hdeclaration text)
  | _ =>
    obtain ⟨_, ⟨⟩⟩ := h.of_below

/-! ### Programs and declarations among statements -/

/-- Statements are laid out one after another. -/
theorem layoutItems_append (ss ss' : List Tree) :
  layoutItems (ss ++ ss') = layoutItems ss >>= fun _ => layoutItems ss'
  := by
  induction ss with
  | nil => rfl
  | cons s ss ih => simp only [List.cons_append, layoutItems, ih, bind_assoc]

/-- Of a program among other statements the statements are laid out. -/
theorem layoutItems_program (pre inner post : List Tree) :
  layoutItems (pre ++ program (list inner) :: post) = layoutItems (pre ++ inner ++ post)
  := by
  have hprogram : layoutAfter .nothing (program (list inner))
      = layoutItems inner >>= fun _ => pure none := rfl
  rw [layoutItems_append, layoutItems_append, layoutItems_append, layoutItems, hprogram]
  simp [close]

/-- A declaration among statements is left out. -/
theorem layoutItems_declaration (pre post : List Tree) {id init : Tree} {text : String}
    (h : (declaration id init).declarationText = .ok text) :
  layoutItems (pre ++ declaration id init :: post) = layoutItems (pre ++ post)
  := by
  have hdeclaration : layoutAfter .nothing (declaration id init) = pure none := by
    change (ofExcept (declaration id init).declarationText >>= fun _ => pure ()) >>= _ = _
    rw [h]
    rfl
  rw [layoutItems_append, layoutItems_append, layoutItems, hdeclaration]
  simp [close]

/-- One tree becomes another one if among the statements of a program or block, at any depth, a
program gives way to its statements, or a declaration that has a text is left out. -/
inductive Flattens : Tree → Tree → Prop where
  | program (pre inner post : List Tree) :
      Flattens (list (pre ++ program (list inner) :: post)) (list (pre ++ inner ++ post))
  | declaration (pre post : List Tree) {id init : Tree} {text : String}
      (h : (declaration id init).declarationText = .ok text) :
      Flattens (list (pre ++ declaration id init :: post)) (list (pre ++ post))
  | item {s s' : Tree} (pre post : List Tree) (h : Flattens s s') :
      Flattens (list (pre ++ s :: post)) (list (pre ++ s' :: post))
  | inner {body body' : Tree} (h : Flattens body body') : Flattens (program body) (program body')
  /-- A block without statements is written on one line, other than one in which nothing is
  written. -/
  | block {body body' : Tree} (h : Flattens body body') (htruth : body'.truth = true) :
      Flattens (block body) (block body')
  | consequent {test c c' a : Tree} (h : Flattens c c') :
      Flattens (condition test c a) (condition test c' a)
  | alternate {test c a a' : Tree} (h : Flattens a a') :
      Flattens (condition test c a) (condition test c a')

/-- What flattens is no empty list. -/
theorem Flattens.truth_eq {t u : Tree} (h : t.Flattens u) :
  t.truth = true
  := by cases h <;> simp [truth]

theorem Flattens.isNull_eq {t u : Tree} (h : t.Flattens u) :
  t.isNull = false ∧ u.isNull = false
  := by cases h <;> simp [isNull]

/-- Trees of which one becomes the other are laid out alike, as statements and as bodies. -/
theorem Flattens.layout_eq {t u : Tree} (h : t.Flattens u) :
  (∀ before, t.layoutAfter before = u.layoutAfter before) ∧ layoutBody t = layoutBody u
  := by
  induction h with
  | program pre inner post => exact ⟨fun _ => rfl, layoutItems_program pre inner post⟩
  | declaration pre post h => exact ⟨fun _ => rfl, layoutItems_declaration pre post h⟩
  | item pre post _ ih =>
    refine ⟨fun _ => rfl, ?_⟩
    rw [layoutBody, layoutBody, layoutItems_append, layoutItems_append, layoutItems, layoutItems,
      ih.1]
  | inner _ ih => exact ⟨fun before => by rw [layoutAfter, layoutAfter, ih.2], rfl⟩
  | block h htruth ih =>
    refine ⟨fun before => ?_, rfl⟩
    rw [layoutAfter, layoutAfter, if_pos h.truth_eq, if_pos htruth, ih.2]
  | consequent _ ih => exact ⟨fun before => by simp only [layoutAfter, ih.1], rfl⟩
  | alternate h ih =>
    refine ⟨fun before => ?_, rfl⟩
    simp only [layoutAfter, h.isNull_eq.1, h.isNull_eq.2, ih.1]

/-- The text of a program depends on the layout of its body alone. -/
theorem emit_program_congr {body body' : Tree} (h : layoutBody body = layoutBody body') :
  (program body).emit = (program body').emit
  := by
  have hwhole : Buffer.whole (program body) = Buffer.whole (program body') := by
    change (program body).layout = (program body').layout
    rw [layout, layout, layoutAfter, layoutAfter, h]
  simp only [emit, Buffer.emit, oddName?, hwhole]

/-- A program that has a text can be laid out. -/
theorem isLaid_of_emit {body : Tree} {text : String} (h : (program body).emit = .ok text) :
  (program body).IsLaid
  := by
  have hwhole : Buffer.whole (program body)
      = layoutAfter .nothing (program body) >>= close := rfl
  cases hresult : (layoutAfter .nothing (program body) >>= close).result with
  | ok a =>
    obtain ⟨closing, hbody, -⟩ := Ends.of_bind ⟨a, hresult⟩
    exact ⟨_, closing, hbody⟩
  | error e =>
    simp only [emit, Buffer.emit, oddName?, Buffer.write_clear, hwhole, Buffer.add, hresult] at h
    cases h

/-- A program has no text if in a statement position, at any depth, there is something else than a
statement, except that a program there gives way to its statements, and a declaration that has a
text is left out. -/
theorem emit_statement_positions (body : Tree) :
  (∀ u s, (program body).Reaches u → s ∈ u.statements → s.isStatement = false →
      s.kind? ≠ some .program → (∀ text, s.declarationText ≠ .ok text) →
      ∃ e, (program body).emit = .error e)
    ∧ ∀ body', body.Flattens body' → (program body).emit = (program body').emit
  := by
  refine ⟨fun u s hreach hs hstatement hprogram hdeclaration => ?_,
    fun body' h => emit_program_congr h.layout_eq.2⟩
  cases hemit : (program body).emit with
  | error e => exact ⟨e, rfl⟩
  | ok text =>
    have hwritten : u.IsWritten := IsWritten.of_reaches (.inl (isLaid_of_emit hemit)) hreach
    have hlaid := hwritten.of_mem_statements hs
    exact absurd (hlaid.isStatement hprogram hdeclaration) (by simp [hstatement])

/-- A body with one condition, which governs a block of statements. -/
def conditional (ss : List Tree) : Tree := list [condition null (block (list ss)) (scalar .null)]

/-- A literal, a program and a declaration among the statements that a condition governs. -/
theorem emit_statement_positions_samples :
  (∃ e, (program (conditional [null])).emit = .error e)
    ∧ (program (conditional [program (list [empty])])).emit = (program (conditional [empty])).emit
    ∧ (program (conditional [empty, declaration (identifier (text "x")) null])).emit
      = (program (conditional [empty])).emit
  := by
  have hreach : (program (conditional [null])).Reaches (block (list [null])) := by
    apply Relation.ReflTransGen.head (b := condition null (block (list [null])) (scalar .null))
    · simp [conditional, statements, items]
    · apply Relation.ReflTransGen.single
      simp [statements, isNull]
  have hmem : null ∈ (block (list [null])).statements := by simp [statements, items]
  have hdeep {ss ss' : List Tree} (h : (list ss).Flattens (list ss'))
      (htruth : (list ss').truth = true) : (conditional ss).Flattens (conditional ss') :=
    .item [] [] (.consequent (.block h htruth))
  exact ⟨(emit_statement_positions _).1 _ null hreach hmem rfl (by decide) nofun,
    (emit_statement_positions _).2 _ (hdeep (.program [] [empty] []) rfl),
    (emit_statement_positions _).2 _ (hdeep (.declaration [empty] [] rfl) rfl)⟩

/-- Not every node that is no statement keeps a program from having a text if it stands in a
statement position. -/
theorem not_forall_emit_error :
  ¬ ∀ body u s, (program body).Reaches u → s ∈ u.statements → s.isStatement = false →
      ∃ e, (program body).emit = .error e
  := by
  intro h
  let d := declaration (identifier (text "x")) (scalar .null)
  obtain ⟨e, he⟩ := h (list [d]) _ d .refl (List.mem_singleton_self d) rfl
  have hemit : (program (list [d])).emit = .ok "" := rfl
  cases hemit.symm.trans he

end Tree

end Letter
