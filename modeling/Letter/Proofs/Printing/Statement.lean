import Letter.Proofs.Printing.Expression
import Letter.Proofs.Printing.Lines
import Letter.Tree.Buffer

/-!
# The text of a program is cut into its tokens

A program that can be written has a text, and the text is cut into the tokens of the
standard form.
-/

namespace Letter

open Layout

/-! ### Declarations -/

namespace Declaration

theorem toTree_some (name : String) (e : Expr) :
  toTree ⟨name, some e⟩ = .declaration (.identifier (.text name)) e.toTree
  := rfl

/-- A declaration that can be written has a text that spells its tokens. -/
theorem Valid.declarationText_spells {d : Declaration} (h : d.Valid) :
  ∃ s, d.toTree.declarationText = .ok s ∧ Spells s d.tokens
  := by
  obtain ⟨name, init⟩ := d
  have hname : Spells name [.identifier name] := .token (t := .identifier name) h.name (by simp)
  cases init with
  | none => exact ⟨name, rfl, hname⟩
  | some e =>
    obtain ⟨s, hs, hspells⟩ := (h.init e rfl).exprText_spells
    refine ⟨name ++ " = " ++ s, ?_, ?_⟩
    · rw [toTree_some, Tree.declarationText, Expr.exprWithin_toTree, hs]
      · rfl
      · apply e.toTree_ne_null
    · have hassign := hname.between (.assign .set) hspells
      rw [show " = " = " " ++ (Operator.assign .set).text ++ " " from rfl]
      change Spells _ ([.identifier name] ++ .operator (.assign .set) :: e.tokens)
      simpa only [String.append_assoc] using hassign

theorem unlistable?_bareDeclared (ds : List Declaration) (index : Nat) :
  Tree.unlistable? index ((ds.map toTree).map Tree.bareDeclared) = none
  := by
  induction ds generalizing index with
  | nil => rfl
  | cons d ds ih =>
    have hname : d.toTree.bareDeclared.oddName? = none := by
      obtain ⟨name, init⟩ := d
      cases init with
      | none => rfl
      | some e =>
        rw [toTree_some, Tree.bareDeclared]
        · rfl
        · exact fun _ h => e.toTree_ne_null (Tree.declaration.inj h).2
    rw [List.map_cons, List.map_cons, Tree.unlistable?, hname, ih]

/-- Declarations that can be written have texts that spell their tokens. -/
theorem declarationTexts_spell {ds : List Declaration} (h : ∀ d ∈ ds, d.Valid) :
  ∃ ss, (Tree.list (ds.map toTree)).declarationTexts = .ok ss
    ∧ List.Forall₂ Spells ss (ds.map tokens)
  := by
  have hall : ∃ ss, (ds.map toTree).mapM Tree.declarationText = Except.ok ss
      ∧ List.Forall₂ Spells ss (ds.map tokens) := by
    induction ds with
    | nil => exact ⟨[], rfl, .nil⟩
    | cons d ds ih =>
      rw [List.forall_mem_cons] at h
      obtain ⟨s, hs, hspells⟩ := h.1.declarationText_spells
      obtain ⟨ss, hss, hspell⟩ := ih h.2
      refine ⟨s :: ss, ?_, .cons hspells hspell⟩
      rw [List.map_cons, List.mapM_cons, hs, hss]
      rfl
  obtain ⟨ss, hss, hspell⟩ := hall
  refine ⟨ss, ?_, hspell⟩
  rw [Tree.declarationTexts, hss]
  change Tree.listed _ _ = _
  rw [Tree.listed, unlistable?_bareDeclared]

end Declaration

/-! ### Statements -/

namespace Stmt

theorem spells_semicolon {s : String} {ts : List Token} (h : Spells s ts) :
  Spells (s ++ ";") (ts ++ [.delimiter .semicolon])
  := h.delimited .semicolon

/-- A list of declarations, at least one. -/
theorem spells_declare {ss : List String} {tss : List (List Token)}
    (h : List.Forall₂ Spells ss tss) (hne : tss ≠ []) :
  Spells ("let " ++ ", ".intercalate ss ++ ";")
    (.keyword .letWord
      :: ([.delimiter .comma].intercalate tss ++ [.delimiter .semicolon]))
  := by
  have hword : Spells "let" [.keyword .letWord] :=
    .token (t := .keyword .letWord) trivial (by simp)
  have hall := spells_semicolon (hword.spaced (Spells.separated h hne))
  exact hall

/-- Statements one after another, each of which spells its tokens. -/
theorem layoutItems_spell {ss : List Stmt}
    (h : ∀ s ∈ ss, ∀ b bs, b.Spell bs → (s.toTree.layoutAfter b).SpellUpTo (bs ++ s.tokens)) :
  (Tree.layoutItems (toTrees ss)).Spell (listTokens ss)
  := by
  induction ss with
  | nil => exact ⟨rfl, .nil⟩
  | cons s ss ih =>
    rw [List.forall_mem_cons] at h
    rw [listTokens, toTrees, Tree.layoutItems]
    apply (h.1 .nothing [] rfl).close_bind
    apply ih h.2

/-- A statement that can be written spells its tokens behind those of what stands before it. -/
theorem Valid.layoutAfter_spell {s : Stmt} (h : s.Valid) :
  ∀ b bs, b.Spell bs → (s.toTree.layoutAfter b).SpellUpTo (bs ++ s.tokens)
  := by
  induction h with
  | empty =>
    intro b bs hb
    have hsemi : Spells ";" [.delimiter .semicolon] :=
      .token (t := .delimiter .semicolon) trivial (by simp)
    rw [toTree, Tree.layoutAfter]
    apply below_spellUpTo hb (.line hsemi)
  | @expression e he =>
    intro b bs hb
    obtain ⟨s, hs, hspells⟩ := he.exprText_spells
    rw [toTree, Tree.layoutAfter, e.exprWithin_toTree, hs]
    apply below_spellUpTo hb (.ofExcept (.line (spells_semicolon hspells)))
  | @block ss _ ih =>
    intro b bs hb
    have hbody := layoutItems_spell ih
    rw [toTree, Tree.layoutAfter]
    cases ss with
    | nil =>
      have hbraces : Spells "\x7b\x7d" [.delimiter .leftBrace, .delimiter .rightBrace] :=
        (Spells.token (t := .delimiter .leftBrace) trivial (by simp)).delimited .rightBrace
      exact ⟨_, [], _, rfl, rfl, .nil, spells_opener hb hbraces⟩
    | cons s ss =>
      have hleft : Spells "\x7b" [.delimiter .leftBrace] :=
        .token (t := .delimiter .leftBrace) trivial (by simp)
      have hright : Spells "\x7d" [.delimiter .rightBrace] :=
        .token (t := .delimiter .rightBrace) trivial (by simp)
      have hall := SpellUpTo.bind (x := line (b.opener ++ "\x7b"))
        (f := fun _ => nested (Tree.layoutItems (toTrees (s :: ss))) >>= fun _ =>
          pure (some "\x7d")) rfl (.line (spells_opener hb hleft))
        (.bind hbody.deeper.result hbody.deeper.lines
          ⟨some "\x7d", [], [.delimiter .rightBrace], rfl, rfl, .nil, hright⟩)
      rw [List.append_assoc] at hall
      exact hall
  | @declare ds hds hne =>
    intro b bs hb
    obtain ⟨ss, hss, hspell⟩ := Declaration.declarationTexts_spell hds
    rw [toTree, Tree.layoutAfter, hss]
    refine below_spellUpTo hb (.ofExcept (.line (spells_declare hspell ?_)))
    simpa using hne
  | @ifThen e s he _ ih =>
    intro b bs hb
    obtain ⟨text, htext, hspells⟩ := he.exprText_spells
    rw [toTree, Tree.layoutAfter, e.exprWithin_toTree, htext]
    apply beside_spellUpTo hb fun _ _ hstart => condition_spell hstart hspells ih
  | @ifElse e s a he _ _ ih ih' =>
    intro b bs hb
    obtain ⟨text, htext, hspells⟩ := he.exprText_spells
    have hnull : a.toTree.isNull = false := by cases a <;> rfl
    rw [toTree, Tree.layoutAfter, e.exprWithin_toTree, htext, hnull]
    apply beside_spellUpTo hb fun _ _ hstart =>
      condition_spell_otherwise hstart hspells ih ih'

end Stmt

/-! ### Programs -/

/-- The layout of a program that can be written spells its tokens. -/
theorem Program.Valid.layout_spell {p : Program} (h : p.Valid) :
  p.toTree.layout.Spell p.tokens
  := by
  have hbody := Stmt.layoutItems_spell fun s hs => (h.body s hs).layoutAfter_spell
  apply (below_spellUpTo (b := .nothing) rfl hbody).close

/-- Lines below other ones, and the text of the lines alone. -/
theorem written_cons_eq (margin : Nat → String) (l : Line) (ls : List Line) :
  written (fun n => (margin n).toList) (l :: ls)
    = '\n' :: ("\n".intercalate ((l :: ls).map fun l => margin l.depth ++ l.text)).toList
  := by
  induction ls generalizing l with
  | nil => simp [written]
  | cons l' ls ih =>
    have hlater := ih l'
    rw [written, List.flatMap_cons]
    rw [written] at hlater
    rw [hlater]
    simp only [List.map_cons, String.intercalate_cons_cons]
    simp

/-- The text of lines that spell tokens is cut into these. -/
theorem LinesSpell.cut {ls : List Line} {ts : List Token} (h : LinesSpell ls ts)
    (margin : Nat → String) (hm : ∀ n, ∀ c ∈ (margin n).toList, isBlank c = true) :
  Cut ("\n".intercalate (ls.map fun l => margin l.depth ++ l.text)).toList ts
  := by
  have hall := h (fun n => (margin n).toList) hm [] [] endsWord_nil .nil
  rw [List.append_nil, List.append_nil] at hall
  cases ls with
  | nil => simpa [written] using hall
  | cons l ls =>
    rw [written_cons_eq] at hall
    apply (Cut.blank_iff (by decide)).1 hall

theorem isBlank_of_mem_margin {n : Int} {c : Char} (h : c ∈ (Buffer.margin n).toList) :
  isBlank c = true
  := by
  rw [Buffer.margin, blanks, String.toList_ofList] at h
  rw [List.eq_of_mem_replicate h]
  decide

/-- The text of a statement or program whose layout comes to an end. -/
theorem Tree.emit_of_layout {t : Tree} (hkind : (t.kind?.map Kind.isStatement) = some true)
    (hname : t.oddName? = none) (h : t.layout.result = .ok ()) :
  t.emit = .ok ("\n".intercalate
    (t.layout.lines.map fun l => Buffer.margin l.depth ++ l.text))
  := by
  have hwhole : Buffer.whole t = t.layout := by rw [Buffer.whole, hkind]; rfl
  rw [emit, Buffer.emit, hname]
  dsimp only
  rw [Buffer.write_clear, hwhole, Buffer.add, h]
  simp [Buffer.text, Buffer.clear]

/-- The text of a whole expression is its text as a part of a longer one. -/
theorem Tree.emit_of_exprText {t : Tree} {text : String}
    (hkind : (t.kind?.map Kind.isStatement).getD false = false) (hname : t.oddName? = none)
    (h : t.exprText = .ok text) :
  t.emit = .ok text
  := by
  have hwhole : Buffer.whole t = Layout.line text := by
    rw [Buffer.whole, hkind, h]
    rfl
  rw [emit, Buffer.emit, hname]
  dsimp only
  rw [Buffer.write_clear, hwhole, Buffer.add, Layout.line]
  simp [Buffer.text, Buffer.clear, Buffer.margin, blanks]

/-- A program that can be written has a text, and that is cut into the tokens of the
standard form. -/
theorem Program.Valid.exists_format {p : Program} (h : p.Valid) :
  ∃ text, p.format = .ok text ∧ tokenize text = .ok p.tokens
  := by
  obtain ⟨hresult, hlines⟩ := h.layout_spell
  refine ⟨_, Tree.emit_of_layout rfl rfl hresult, ?_⟩
  rw [tokenize_eq_ok_iff]
  apply hlines.cut (fun n => Buffer.margin n) fun _ _ => isBlank_of_mem_margin

end Letter
