import Letter.Grammar.Statement
import Letter.Proofs.Grammar.Sound

/-!
# What is read as a program is derived as one

If a text is read as a program, then it is cut into tokens that are derived as the program.

An open statement is never followed by the word that begins an alternative: the condition
inside it would have taken that word.  This is what the derivation of a condition with an
alternative asks of its consequent, and it is kept along with what has been derived.
-/

namespace Letter

namespace Parse

/-- Whatever statement is read has been derived, and no alternative follows if it is open. -/
def ReadsStatement (S : Parse Stmt) : Prop :=
  ∀ f s g, S f = .ok s g → f.Takes (.statement s) g
    ∧ (s.isOpen = true → g.next? ≠ some (.keyword .elseWord))

theorem ReadsStatement.reads {S : Parse Stmt} (hS : ReadsStatement S) :
  Reads S .statement
  := fun f s g h => (hS f s g h).1

/-- No alternative belongs to a statement that is not open. -/
theorem elseWord_of_closed {s : Stmt} {g : Front} (h : s.isOpen = false) :
  s.isOpen = true → g.next? ≠ some (.keyword .elseWord)
  := by
  intro hopen
  rw [h] at hopen
  cases hopen

/-! ### Declarations -/

theorem map_eq_ok {α β : Type} {k : α → β} {p : Parse α} {f g : Front} {b : β} :
  (k <$> p) f = .ok b g ↔ ∃ a, p f = .ok a g ∧ k a = b
  := by
  change EStateM.map k p f = .ok b g ↔ _
  rw [EStateM.map]
  cases p f with
  | ok a g' =>
    simp only [EStateM.Result.ok.injEq]
    constructor
    · rintro ⟨rfl, rfl⟩
      exact ⟨a, ⟨rfl, rfl⟩, rfl⟩
    · rintro ⟨_, ⟨rfl, rfl⟩, rfl⟩
      exact ⟨rfl, rfl⟩
  | error e g' => simp

theorem kind_eq_simpleAssign {t : Token} (h : t.kind = .operators .simpleAssign) :
  t = .operator (.assign .set)
  := by
  cases t with
  | operator o =>
    cases o with
    | assign o => cases o <;> simp_all [Token.kind, Operator.operatorClass]
    | binary o => simp [Token.kind, Operator.operatorClass] at h
    | not => simp [Token.kind, Operator.operatorClass] at h
  | _ => simp [Token.kind] at h

/-- A name and what is set behind it are taken as a declaration with a value. -/
theorem takes_initialized {f₀ f g : Front} {name : String} {e : Expr}
    (hview : f₀.next? = some (.identifier name)) (hadv : advance f₀ = .ok () f)
    (h : initializer f = .ok e g) :
  f₀.Takes (.declaration ⟨name, some e⟩) g
  := by
  obtain ⟨t, f₁, heat, h⟩ := bind_eq_ok.1 h
  obtain ⟨ht, hkind, hadv'⟩ := eat_eq_ok.1 heat
  obtain rfl := kind_eq_simpleAssign hkind
  obtain ⟨ts, hreach, hts, hshort⟩ := reads_expression _ _ _ h
  refine ⟨_, .take hview hadv (.take ht hadv' hreach), .initialized hts, ?_⟩
  simpa [Token.Short] using hshort

theorem reads_declaration :
  Reads declaration .declaration
  := by
  intro f d h hp
  obtain ⟨n, g, hname, hp⟩ := bind_eq_ok.1 hp
  obtain ⟨hview, hadv⟩ := name_eq_ok.1 hname
  obtain ⟨b, _, hsees, hp⟩ := bind_eq_ok.1 hp
  cases hsees
  split at hp
  · obtain ⟨_, _, hnone, hp⟩ := bind_eq_ok.1 hp
    cases hnone
    cases hp
    exact .one hview hadv .bareName trivial
  · obtain ⟨_, _, hmap, hp⟩ := bind_eq_ok.1 hp
    cases hp
    obtain ⟨e, hinit, rfl⟩ := map_eq_ok.1 hmap
    apply takes_initialized hview hadv hinit

theorem reads_declarations :
  Reads declarations .declarations
  := reads_separated reads_declaration (fun _ _ => .lastDeclaration)
    (fun _ _ _ _ => .nextDeclaration)

theorem readsStatement_declare :
  ReadsStatement declare
  := by
  intro f s h hp
  obtain ⟨_, g, hword, hp⟩ := bind_eq_ok.1 hp
  obtain ⟨ds, g', hlist, hp⟩ := bind_eq_ok.1 hp
  obtain ⟨_, _, hsemi, hp⟩ := bind_eq_ok.1 hp
  cases hp
  obtain ⟨hview, hadv⟩ := skipWord_eq_ok.1 hword
  obtain ⟨hview', hadv'⟩ := skip_eq_ok.1 hsemi
  obtain ⟨ts, hreach, hts, hshort⟩ := reads_declarations _ _ _ hlist
  refine ⟨⟨_, .take hview hadv (hreach.trans (.one hview' hadv')), .declare hts, ?_⟩,
    elseWord_of_closed rfl⟩
  simpa [Token.Short, or_imp, forall_and] using hshort

/-! ### Statements -/

theorem readsStatement_emptyStatement :
  ReadsStatement emptyStatement
  := by
  intro f s h hp
  obtain ⟨_, g, hsemi, hp⟩ := bind_eq_ok.1 hp
  cases hp
  obtain ⟨hview, hadv⟩ := skip_eq_ok.1 hsemi
  exact ⟨.one hview hadv .empty trivial, elseWord_of_closed rfl⟩

theorem readsStatement_expressionStatement :
  ReadsStatement expressionStatement
  := by
  intro f s h hp
  obtain ⟨e, g, he, hp⟩ := bind_eq_ok.1 hp
  obtain ⟨_, _, hsemi, hp⟩ := bind_eq_ok.1 hp
  cases hp
  obtain ⟨hview, hadv⟩ := skip_eq_ok.1 hsemi
  obtain ⟨ts, hreach, hts, hshort⟩ := reads_expression _ _ _ he
  refine ⟨⟨_, hreach.trans (.one hview hadv), .expressionStatement hts, ?_⟩,
    elseWord_of_closed rfl⟩
  simpa [Token.Short, or_imp, forall_and] using hshort

section

variable {S : Parse Stmt} (hS : ReadsStatement S)

include hS

/-- Statements are read as they are derived, whatever stops them. -/
theorem reads_statements (stop : Option TokenKind) :
  Reads (statements S stop) .statements
  := by
  intro f ss h hp
  obtain ⟨s, g, hfirst, hp⟩ := bind_eq_ok.1 hp
  obtain ⟨later, _, hlater, hp⟩ := bind_eq_ok.1 hp
  cases hp
  have hrest : (later = [] ∧ g = h) ∨ g.Takes (.statements later) h := by
    apply manyWithin_induct (I := fun g later h => (later = [] ∧ g = h)
      ∨ g.Takes (.statements later) h) _ _ hlater
    · exact fun _ => .inl ⟨rfl, rfl⟩
    · intro f₁ _ s₁ f₂ ss₁ h₁ _ hs hrest
      obtain ⟨rfl, rfl⟩ | hrest := hrest
      · exact .inr ((hS.reads _ _ _ hs).mono fun _ => .lastStatement)
      · exact .inr ((hS.reads _ _ _ hs).append hrest fun _ _ => .nextStatement)
  obtain ⟨rfl, rfl⟩ | hrest := hrest
  · apply (hS.reads _ _ _ hfirst).mono fun _ => .lastStatement
  · apply (hS.reads _ _ _ hfirst).append hrest fun _ _ => .nextStatement

theorem readsStatement_block :
  ReadsStatement (block S)
  := by
  intro f s h hp
  obtain ⟨_, g, hleft, hp⟩ := bind_eq_ok.1 hp
  obtain ⟨b, _, hsees, hp⟩ := bind_eq_ok.1 hp
  cases hsees
  split at hp
  · obtain ⟨_, _, hnil, hp⟩ := bind_eq_ok.1 hp
    cases hnil
    obtain ⟨_, _, hright, hp⟩ := bind_eq_ok.1 hp
    cases hp
    exact ⟨.enclosed_nil hleft hright .emptyBlock, elseWord_of_closed rfl⟩
  · obtain ⟨body, g', hbody, hp⟩ := bind_eq_ok.1 hp
    obtain ⟨_, _, hright, hp⟩ := bind_eq_ok.1 hp
    cases hp
    have hstatements := reads_statements hS _ _ _ _ hbody
    exact ⟨.enclosed hleft hstatements hright fun _ => .block, elseWord_of_closed rfl⟩

/-- Conditions are read as they are derived, an alternative going with the innermost one. -/
theorem readsStatement_condition :
  ReadsStatement (condition S)
  := by
  intro f s h hp
  obtain ⟨_, f₁, hword, hp⟩ := bind_eq_ok.1 hp
  obtain ⟨_, f₂, hleft, hp⟩ := bind_eq_ok.1 hp
  obtain ⟨e, f₃, htest, hp⟩ := bind_eq_ok.1 hp
  obtain ⟨_, f₄, hright, hp⟩ := bind_eq_ok.1 hp
  obtain ⟨c, f₅, hconsequent, hp⟩ := bind_eq_ok.1 hp
  obtain ⟨b, _, hsees, hp⟩ := bind_eq_ok.1 hp
  cases hsees
  obtain ⟨hview, hadv⟩ := skipWord_eq_ok.1 hword
  obtain ⟨hleft, hadv₁⟩ := skip_eq_ok.1 hleft
  obtain ⟨hright, hadv₃⟩ := skip_eq_ok.1 hright
  obtain ⟨ts, hreach, hts, hshort⟩ := reads_expression _ _ _ htest
  obtain ⟨⟨us, hreach', hus, hshort'⟩, hopen⟩ := hS _ _ _ hconsequent
  have hhead : f.Reach (.keyword .ifWord :: (Token.inParens ts ++ us)) f₅ :=
    .take hview hadv (.trans (.take hleft hadv₁ (hreach.trans (.one hright hadv₃))) hreach')
  have hheadShort : ∀ t ∈ .keyword .ifWord :: (Token.inParens ts ++ us), t.Short := by
    rw [List.forall_mem_cons, List.forall_mem_append]
    exact ⟨trivial, Token.forall_short_enclosed.2 hshort, hshort'⟩
  split at hp
  · next helse =>
    obtain ⟨_, f₆, hword', hp⟩ := bind_eq_ok.1 hp
    obtain ⟨a, _, halternate, hp⟩ := bind_eq_ok.1 hp
    cases hp
    obtain ⟨hview', hadv'⟩ := skipWord_eq_ok.1 hword'
    obtain ⟨⟨vs, hreach₂, hvs, hshort₂⟩, hopen'⟩ := hS _ _ _ halternate
    have hclosed : c.isOpen = false := Bool.eq_false_iff.2 fun h => hopen h hview'
    refine ⟨⟨_, hhead.trans (.take hview' hadv' hreach₂), ?_, ?_⟩, hopen'⟩
    · exact .ifElse hts hus hclosed hvs
    · rw [List.forall_mem_append]
      exact ⟨hheadShort, List.forall_mem_cons.2 ⟨trivial, hshort₂⟩⟩
  · next hno =>
    cases hp
    refine ⟨⟨_, hhead, .ifThen hts hus, hheadShort⟩, fun _ helse => hno ?_⟩
    rw [helse]
    rfl

omit hS in
/-- How a statement is read is decided by its first token. -/
theorem anyStatement_of_view {f : Front} (view : Option Token) :
  f.next? = view →
    anyStatement S f = (match view with
      | some (.delimiter .semicolon) => emptyStatement
      | some (.delimiter .leftBrace) => block S
      | some (.keyword .letWord) => declare
      | some (.keyword .ifWord) => condition S
      | _ => expressionStatement) f
  := by
  rintro rfl
  exact bind_of_ok (get_eq_ok f) _

theorem readsStatement_anyStatement :
  ReadsStatement (anyStatement S)
  := by
  intro f s h hp
  obtain ⟨_, _, hget, hp⟩ := bind_eq_ok.1 hp
  cases hget
  generalize f.next? = next? at hp
  split at hp
  · apply readsStatement_emptyStatement f s h hp
  · apply readsStatement_block hS f s h hp
  · apply readsStatement_declare f s h hp
  · apply readsStatement_condition hS f s h hp
  · apply readsStatement_expressionStatement f s h hp

end

theorem readsStatement_statementWithin (bound : List Char) :
  ReadsStatement (statementWithin bound)
  := by
  induction bound with
  | nil =>
    have hnone : ReadsStatement (throw .missingOperand) := fun _ _ _ h => nomatch h
    apply readsStatement_anyStatement hnone
  | cons c bound ih => apply readsStatement_anyStatement ih

/-- Statements are read as they are derived. -/
theorem readsStatement_statement :
  ReadsStatement statement
  := fun f => readsStatement_statementWithin f.behind f

/-! ### Programs -/

/-- A program ends where the text does. -/
theorem takes_of_program {f g : Front} {p : Program} (h : program f = .ok p g) :
  f.Takes (.program p) g ∧ g.next? = none
  := by
  obtain ⟨ss, _, hss, hp⟩ := bind_eq_ok.1 h
  cases hp
  refine ⟨(reads_statements readsStatement_statement _ _ _ _ hss).mono fun _ => .program, ?_⟩
  obtain ⟨s, g₁, _, hss⟩ := bind_eq_ok.1 hss
  obtain ⟨later, _, hlater, hss⟩ := bind_eq_ok.1 hss
  cases hss
  have hend := bind_eq_none_of_manyWhile
    (fun _ _ _ _ _ h => readsStatement_statement.reads.size_lt h) hlater
  rw [Option.eq_none_iff_forall_ne_some]
  simpa [Option.bind_eq_none_iff] using hend

end Parse

/-- Whatever is read of a text is derived from the tokens into which the text is cut. -/
theorem exists_derives_of_parse {source : String} {p : Program} (h : parse source = .ok p) :
  ∃ ts, tokenize source = .ok ts ∧ Derives ts (.program p) ∧ ∀ t ∈ ts, t.Short
  := by
  rw [parse] at h
  split at h
  · next p' g hsource =>
    cases h
    obtain ⟨_, f, hload, hprogram⟩ := Parse.bind_eq_ok.1 hsource
    obtain ⟨⟨ts, hreach, hts, hshort⟩, hend⟩ := Parse.takes_of_program hprogram
    have hcut := (Parse.exists_load_iff .empty).1 ⟨f, hload, g, hreach, hend⟩
    exact ⟨ts, tokenize_eq_ok_iff.2 hcut, hts, hshort⟩
  · cases h

end Letter
