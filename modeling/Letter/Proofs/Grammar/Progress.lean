import Letter.Proofs.Grammar.Lazy
import Letter.Proofs.Token.Shared

/-!
# Progress

Each production of the grammar takes at least one token if it gives a value, and never goes back in
the text.  So does each round of a loop, and so does each expression before the ones that are inside
it and each statement before the ones that it governs.  There are only so many tokens, so that
neither the loops nor the nesting go on for ever: the bounds that they have are never met.

Main statement: `Parse.progress`.
-/

namespace Letter

/-! ### The tokens that are left -/

namespace Front

variable {f g : Front} {ts : List Token}

/-- Advancing moves the scanner by one token. -/
theorem scanner_of_advance (h : Parse.advance f = .ok () g) :
  g.scanner = f.scanner.next.2
  := by
  rw [Parse.advance] at h
  split at h
  · next hnext =>
    cases h
    rw [hnext]
  · next hnext =>
    cases h
    rw [hnext]
  · cases h

/-- Where the next token cannot be brought into view, the one in view stays there. -/
theorem eq_of_advance_error {e : SyntaxError} (h : Parse.advance f = .error e g) :
  g = { f with scanner := f.scanner.next.2 }
  := by
  rw [Parse.advance] at h
  split at h
  · cases h
  · cases h
  · next hnext =>
    cases h
    rw [hnext]

/-- Bringing the next token into view never goes back in the text. -/
theorem offset_le_next (s : Scanner) :
  s.offset ≤ s.next.2.offset
  := by
  have hoffset := s.next_offset
  have hrest := s.next_length_le
  omega

/-- Taking tokens never moves the scanner back. -/
theorem Reach.offset_le (h : f.Reach ts g) :
  f.scanner.offset ≤ g.scanner.offset
  := by
  induction h with
  | refl => apply Nat.le_refl
  | @take f g h t ts view advance later ih =>
    rw [scanner_of_advance advance] at ih
    exact Nat.le_trans (offset_le_next f.scanner) ih

/-- Taking tokens never adds to what is ahead. -/
theorem Reach.ahead_le (h : f.Reach ts g) :
  g.ahead.length ≤ f.ahead.length
  := by
  rw [h.ahead_eq, List.length_append]
  omega

/-- Where a token has been taken, fewer are left. -/
theorem Precedes.ahead_lt (h : f.Precedes g) :
  g.ahead.length < f.ahead.length
  := by
  obtain ⟨t, ts, h⟩ := h
  rw [h.ahead_eq, List.length_append, List.length_cons]
  omega

/-- An error, too, leaves no more than there was. -/
theorem Fault.keeps {e : SyntaxError} (h : f.Fault e g) :
  f.scanner.offset ≤ g.scanner.offset ∧ g.ahead.length ≤ f.ahead.length
  := by
  cases h with
  | told _ => exact ⟨Nat.le_refl _, Nat.le_refl _⟩
  | refused view _ advance =>
    have hreach := Reach.one view advance
    exact ⟨hreach.offset_le, hreach.ahead_le⟩
  | stuck view advance =>
    obtain rfl := eq_of_advance_error advance
    have hremainder := f.scanner.remainder_next.1
    refine ⟨offset_le_next f.scanner, ?_⟩
    rw [ahead, ahead, hremainder]
    simp

end Front

namespace Parse

variable {α : Type}

/-- The front at which reading ends. -/
def reached : EStateM.Result SyntaxError Front α → Front
  | .ok _ g | .error _ g => g

/-- Reading that takes a token if it gives a value, and that goes back in no case. -/
structure Progresses (p : Parse α) (f : Front) : Prop where
  precedes : ∀ a g, p f = .ok a g → f.Precedes g
  offset_le : f.scanner.offset ≤ (reached (p f)).scanner.offset
  ahead_le : (reached (p f)).ahead.length ≤ f.ahead.length

/-- What is predictive and takes a token whenever it comes to a value makes progress. -/
theorem Predictive.progresses {p : Parse α} {f : Front} (hp : Predictive p f)
    (h : ∀ a g, p f = .ok a g → f.Precedes g) :
  Progresses p f
  := by
  cases hrun : p f with
  | ok a g =>
    obtain ⟨ts, hreach, -⟩ := hp.of_eq_ok hrun
    exact ⟨h, by rw [hrun]; exact hreach.offset_le, by rw [hrun]; exact hreach.ahead_le⟩
  | error e g =>
    obtain ⟨ts, f₁, hreach, hfault, -⟩ := hp.of_eq_error hrun
    obtain ⟨hoffset, hahead⟩ := hfault.keeps
    refine ⟨h, ?_, ?_⟩
    · rw [hrun]
      exact Nat.le_trans hreach.offset_le hoffset
    · rw [hrun]
      exact Nat.le_trans hahead hreach.ahead_le

/-! ### Productions -/

/-- The productions of the grammar, each with the ones that it leads to. -/
inductive IsProduction : {α : Type} → Parse α → Prop where
  | program : IsProduction program
  | statements (stop : Option TokenKind) : IsProduction (statements statement stop)
  | statement : IsProduction statement
  | emptyStatement : IsProduction emptyStatement
  | block : IsProduction (block statement)
  | declare : IsProduction declare
  | declarations : IsProduction declarations
  | declaration : IsProduction declaration
  | initializer : IsProduction initializer
  | condition : IsProduction (condition statement)
  | expressionStatement : IsProduction expressionStatement
  | expression : IsProduction expression
  | assignOp : IsProduction assignOp
  | layer (layer : Layer) : IsProduction (layer.production expression)
  /-- The arguments of a call, and the calls behind it. -/
  | callsOf (call : List Expr → Expr) :
      IsProduction (do calls expression (call (← arguments expression)))
  | arguments : IsProduction (arguments expression)
  | argumentList : IsProduction (argumentList expression)
  | superWord : IsProduction superWord
  | parenthesized : IsProduction (parenthesized expression)
  | identifier : IsProduction identifier
  | literal (kind : TokenKind) : IsProduction (literal kind)
  | number : IsProduction number
  | string : IsProduction string
  | boolean (value : Bool) : IsProduction (boolean value)
  | null : IsProduction null

/-- A production that gives a value has taken at least one token. -/
theorem IsProduction.precedes {p : Parse α} (hp : IsProduction p) {f g : Front} {a : α}
    (h : p f = .ok a g) :
  f.Precedes g
  := by
  cases hp with
  | program =>
    obtain ⟨ss, _, hss, h⟩ := bind_eq_ok.1 h
    cases h
    exact (reads_statements readsStatement_statement none).precedes hss
  | statements stop => exact (reads_statements readsStatement_statement stop).precedes h
  | statement => exact readsStatement_statement.reads.precedes h
  | emptyStatement => exact readsStatement_emptyStatement.reads.precedes h
  | block => exact (readsStatement_block readsStatement_statement).reads.precedes h
  | declare => exact readsStatement_declare.reads.precedes h
  | declarations => exact reads_declarations.precedes h
  | declaration => exact reads_declaration.precedes h
  | initializer =>
    obtain ⟨t, g', heat, h⟩ := bind_eq_ok.1 h
    obtain ⟨hview, -, hadv⟩ := eat_eq_ok.1 heat
    exact (Front.Precedes.of_advance hview hadv).trans (reads_expression.precedes h)
  | condition => exact (readsStatement_condition readsStatement_statement).reads.precedes h
  | expressionStatement => exact readsStatement_expressionStatement.reads.precedes h
  | expression => exact reads_expression.precedes h
  | assignOp =>
    obtain ⟨t, hview, -, hadv⟩ := take_eq_ok.1 h
    exact .of_advance hview hadv
  | layer layer => exact (reads_layer reads_expression layer).precedes h
  | callsOf call =>
    obtain ⟨es, g', hes, h⟩ := bind_eq_ok.1 h
    obtain ⟨ts, hreach⟩ := reach_of_foldWhile (eats_call reads_expression) h
    exact ((reads_arguments reads_expression).precedes hes).before hreach
  | arguments => exact (reads_arguments reads_expression).precedes h
  | argumentList => exact (reads_argumentList reads_expression).precedes h
  | superWord => exact precedes_of_skipWord h
  | parenthesized => exact (reads_parenthesized reads_expression).precedes h
  | identifier => exact reads_identifier.precedes h
  | literal kind => exact (reads_literal kind).precedes h
  | number => exact reads_number.precedes h
  | string => exact reads_string.precedes h
  | boolean value =>
    obtain ⟨_, _, hword, h⟩ := bind_eq_ok.1 h
    cases h
    exact precedes_of_skipWord hword
  | null =>
    obtain ⟨_, _, hword, h⟩ := bind_eq_ok.1 h
    cases h
    exact precedes_of_skipWord hword

/-- A literal of no kind that literals have leaves the front as it is. -/
theorem progresses_literal (kind : TokenKind) (f : Front) :
  Progresses (literal kind) f
  := by
  have hprecedes (a : Expr) (g : Front) (h : literal kind f = .ok a g) : f.Precedes g :=
    (reads_literal kind).precedes h
  by_cases hkind : kind.isLiteral = true
  · exact (predictive_literal hkind f).progresses hprecedes
  · have hthrow : literal kind f = .error .notLiteral f := by
      unfold literal
      split <;> first | rfl | exact absurd rfl hkind
    refine ⟨hprecedes, ?_, ?_⟩ <;> rw [hthrow] <;> exact Nat.le_refl _

/-- Every production takes a token if it gives a value, and goes back in no case. -/
theorem IsProduction.progresses {p : Parse α} (hp : IsProduction p) (f : Front) :
  Progresses p f
  := by
  have hexpression (g : Front) (_ : g.size < f.size + 1) : Predictive Parse.expression g :=
    predictive_expression g
  have hstatement (g : Front) (_ : g.size < f.size + 1) : Predictive Parse.statement g :=
    predictive_statement g
  have hle : f.size ≤ f.size + 1 := Nat.le_succ _
  have hlt : f.size < f.size + 1 := Nat.lt_succ_self _
  have harguments : Predictive (Parse.arguments Parse.expression) f :=
    predictive_arguments reads_expression hexpression hle
  have hprecedes := fun a g => hp.precedes (f := f) (g := g) (a := a)
  cases hp with
  | literal kind => exact progresses_literal kind f
  | program => exact (predictive_program f).progresses hprecedes
  | statements stop =>
    exact (predictive_statements readsStatement_statement hstatement hlt stop).progresses hprecedes
  | statement => exact (predictive_statement f).progresses hprecedes
  | emptyStatement =>
    exact ((Predictive.skip .semicolon f).bind fun _ g _ => .pure _ g).progresses hprecedes
  | block =>
    exact (predictive_block readsStatement_statement hstatement hle).progresses hprecedes
  | declare => exact (predictive_declare f).progresses hprecedes
  | declarations =>
    have hdeclarations : Predictive Parse.declarations f :=
      .separated reads_declaration (fun g _ => predictive_declaration g) hle
    exact hdeclarations.progresses hprecedes
  | declaration => exact (predictive_declaration f).progresses hprecedes
  | initializer =>
    exact ((Predictive.eat _ f).bind fun _ g _ => predictive_expression g).progresses hprecedes
  | condition =>
    exact (predictive_condition readsStatement_statement hstatement hle).progresses hprecedes
  | expressionStatement => exact (predictive_expressionStatement f).progresses hprecedes
  | expression => exact (predictive_expression f).progresses hprecedes
  | assignOp => exact (Predictive.take _ _ f).progresses hprecedes
  | layer layer =>
    exact (predictive_layer reads_expression hexpression hle layer).progresses hprecedes
  | callsOf call =>
    refine (harguments.bind fun es g hes => ?_).progresses hprecedes
    exact predictive_calls reads_expression (n := g.size) (fun h _ => predictive_expression h)
      (Nat.le_refl _) _
  | arguments => exact harguments.progresses hprecedes
  | argumentList =>
    have hlist : Predictive (Parse.argumentList Parse.expression) f :=
      .separated reads_expression (fun g _ => predictive_expression g) hle
    exact hlist.progresses hprecedes
  | superWord => exact (Predictive.skipWord .superWord f).progresses hprecedes
  | parenthesized => exact (predictive_parenthesized hexpression hle).progresses hprecedes
  | identifier => exact (predictive_identifier f).progresses hprecedes
  | number => exact (predictive_number f).progresses hprecedes
  | string => exact (Predictive.take _ _ f).progresses hprecedes
  | boolean value =>
    exact ((Predictive.skipWord _ f).bind fun _ g _ => .pure _ g).progresses hprecedes
  | null => exact ((Predictive.skipWord _ f).bind fun _ g _ => .pure _ g).progresses hprecedes

/-! ### Loops -/

/-- The rounds of the loops of the grammar, each with what has to be in view for it. -/
inductive IsRound : {α β : Type} → (Token → Option β) → (β → Parse α) → Prop where
  /-- Another statement. -/
  | statement (stop : Option TokenKind) :
      IsRound (fun t => if some t.kind = stop then none else some ()) fun _ => statement
  /-- Another declaration. -/
  | declaration :
      IsRound (fun t => if t = .delimiter .comma then some () else none)
        fun _ => do skip .comma; declaration
  /-- Another argument. -/
  | argument :
      IsRound (fun t => if t = .delimiter .comma then some () else none)
        fun _ => do skip .comma; expression
  /-- Another member. -/
  | access (object : Expr) : IsRound access? (access expression object)
  /-- Another call. -/
  | call (callee : Expr) :
      IsRound leftParen? fun _ => do return Expr.call callee (← arguments expression)
  /-- Another operator before an operand. -/
  | operator : IsRound unaryOp? fun op => do
      advance
      return op
  /-- Another operator and the operand behind it. -/
  | operand (level : Level) (left : Expr) :
      IsRound (binaryOp? level) fun op => do
        advance
        return Expr.binary op left (← level.tighter.production expression)

/-- Each round of a loop takes at least one token. -/
theorem IsRound.eats {β : Type} {select : Token → Option β} {round : β → Parse α}
    (h : IsRound select round) :
  Eats select round
  := by
  cases h with
  | statement stop => exact fun _ _ _ _ _ hs => readsStatement_statement.reads.precedes hs
  | declaration => exact eats_item reads_declaration
  | argument => exact eats_item reads_expression
  | access object => exact eats_access reads_expression object
  | call callee => exact eats_call reads_expression callee
  | operator => exact eats_unary
  | operand level left => exact eats_chain (reads_layer reads_expression level.tighter) left

/-! ### Nesting -/

/-- As many readings of expressions inside each other as there are tokens left, and one more, read
an expression, whatever would be read inside of them. -/
theorem iterate_assignment (X : Parse Expr) {n : Nat} {f : Front} (h : f.ahead.length < n) :
  (assignment^[n] X) f = expression f
  := by
  induction n generalizing f with
  | zero => omega
  | succ n ih =>
    rw [Function.iterate_succ_apply', expression_eq]
    refine (layer_congr reads_expression (fun g hg => ?_) .assignment).symm
    rw [ih (by have := hg.ahead_lt; omega)]

/-- As many readings of statements inside each other as there are tokens left, and one more, read
a statement, whatever would be read inside of them. -/
theorem iterate_anyStatement (S : Parse Stmt) {n : Nat} {f : Front} (h : f.ahead.length < n) :
  (anyStatement^[n] S) f = statement f
  := by
  induction n generalizing f with
  | zero => omega
  | succ n ih =>
    rw [Function.iterate_succ_apply', statement_eq]
    refine (anyStatement_congr readsStatement_statement fun g hg => ?_).symm
    rw [ih (by have := hg.ahead_lt; omega)]

/-- As many readings of statements inside each other as a text has tokens, and one more, read its
program. -/
theorem source_eq_iterate (S : Parse Stmt) {n : Nat} {text : List Char} (front : Front)
    (h : (Scanner.ofList text).remainder.tokens.length < n) :
  source text front = (do load text; return Program.mk (← statements (anyStatement^[n] S) none)) front
  := by
  apply bind_congr_ok
  intro _ f hload
  refine bind_congr_left (statements_congr readsStatement_statement (fun ts g hfg => ?_) none) _
  have hahead : f.ahead = (Scanner.ofList text).remainder.tokens := Front.ahead_of_advance hload
  have hle := hfg.ahead_le
  rw [hahead] at hle
  exact (iterate_anyStatement S (by omega)).symm

/-! ### The grammar as a whole -/

/-- From every front, each production takes at least one token if it gives a value, and whatever
happens it goes back in no case and leaves no more tokens than there were.  Each round of a loop
takes a token; what is read inside an expression or a statement matters only where a token of it
has been taken.  So the loops and the nesting are as if they had no bounds, and the nesting goes no
deeper than there are tokens left. -/
theorem progress :
  (∀ {α : Type} (p : Parse α) (f : Front), IsProduction p → Progresses p f)
    ∧ (∀ f g : Front, f.Precedes g → g.ahead.length < f.ahead.length)
    ∧ (∀ {α β : Type} (select : Token → Option β) (round : β → Parse α),
      IsRound select round → Eats select round)
    ∧ (∀ (layer : Layer) (X : Parse Expr) (f : Front), AgreeBehind expression X f →
      layer.production expression f = layer.production X f)
    ∧ (∀ (S : Parse Stmt) (f : Front), AgreeBehind statement S f →
      anyStatement statement f = anyStatement S f)
    ∧ (∀ {α β : Type} (select : Token → Option β) (step : α → β → Parse α),
      (∀ a, IsRound select (step a)) → ∀ a f, foldWhile select a step f =
        match f.next?.bind select with
        | none => .ok a f
        | some b => (step a b >>= fun a => foldWhile select a step) f)
    ∧ (∀ {α β : Type} (select : Token → Option β) (item : β → Parse α),
      IsRound select item → ∀ f, manyWhile select item f =
        match f.next?.bind select with
        | none => .ok [] f
        | some b =>
          (item b >>= fun a => manyWhile select item >>= fun as => pure (a :: as)) f)
    ∧ (expression = assignment expression ∧ statement = anyStatement statement)
    ∧ (∀ (X : Parse Expr) (S : Parse Stmt) (n : Nat) (f : Front), f.ahead.length < n →
      (assignment^[n] X) f = expression f ∧ (anyStatement^[n] S) f = statement f)
    ∧ ∀ (S : Parse Stmt) (n : Nat) (text : List Char) (front : Front),
      (Scanner.ofList text).remainder.tokens.length < n → source text front
        = (do load text; return Program.mk (← statements (anyStatement^[n] S) none)) front
  := by
  refine ⟨fun p f hp => hp.progresses f, fun f g h => h.ahead_lt, fun select round h => h.eats,
    fun layer X f h => layer_congr reads_expression h layer,
    fun S f h => anyStatement_congr readsStatement_statement h, ?_, ?_,
    ⟨expression_eq, statement_eq⟩, fun X S n f h => ⟨?_, ?_⟩, ?_⟩
  · exact fun select step h a f => foldWhile_eq (fun a => (h a).eats.consumes) a f
  · exact fun select item h f => manyWhile_eq h.eats.consumes f
  · exact iterate_assignment X h
  · exact iterate_anyStatement S h
  · exact fun S n text front h => source_eq_iterate S front h

/-- A small program, and the name that it begins with where nothing is behind. -/
theorem progress_sampleSource :
  let f : Front := ⟨some (.identifier "x"), Scanner.ofList []⟩
  let nested : Parse Expr := throw .missingOperand
  let governed : Parse Stmt := throw .missingOperand
  let call (callee : Expr) (_ : Unit) : Parse Expr := do
    return .call callee (← arguments expression)
  let operator (op : UnaryOp) : Parse UnaryOp := do
    advance
    return op
  (∃ f g, load sampleSource.toList .empty = .ok () f ∧ program f = .ok sampleProgram g
      ∧ f.Precedes g ∧ g.ahead.length < f.ahead.length)
    ∧ source sampleSource.toList .empty = (do
      load sampleSource.toList
      return Program.mk (← statements (anyStatement^[9] governed) none)) .empty
    ∧ Eats leftParen? (call (.identifier "x"))
    ∧ assignment expression f = assignment nested f
    ∧ anyStatement statement f = anyStatement governed f
    ∧ foldWhile leftParen? (.identifier "x") call f = .ok (.identifier "x") f
    ∧ manyWhile unaryOp? operator f = .ok [] f
    ∧ (assignment^[2] nested) f = expression f ∧ (anyStatement^[2] governed) f = statement f
  := by
  intro f nested governed call operator
  obtain ⟨hproduction, hahead, hround, hlayer, hstatement, hfold, hmany, -, hiterate, hsource⟩ :=
    progress
  have htokens : (Scanner.ofList sampleSource.toList).remainder.tokens = sampleTokens :=
    ((Scanner.cut_iff_remainder _ _).1 (tokenize_eq_ok_iff.1 tokenize_sampleSource)).2
  -- one token is in view, so that nothing is left where it has been taken
  have hsize (g : Front) (hg : f.Precedes g) : g.next? = none :=
    Front.next?_of_size_zero (Nat.lt_one_iff.1 hg.size_lt)
  have hleft : f.ahead.length < 2 := by
    have hbehind : (Scanner.ofList []).remainder.tokens = [] := Scanner.remainder_of_rest_nil rfl
    simp [f, Front.ahead, hbehind]
  refine ⟨?_, ?_, ?_, ?_, ?_, ?_, ?_, ?_⟩
  · obtain ⟨g, hread⟩ := exists_source_of_ok .empty parse_sampleSource
    obtain ⟨_, f, hload, hprogram⟩ := bind_eq_ok.1 hread
    have hfg := (hproduction program f .program).precedes _ g hprogram
    exact ⟨f, g, hload, hprogram, hfg, hahead f g hfg⟩
  · exact hsource _ 9 _ .empty (by rw [htokens]; decide)
  · exact hround _ _ (.call (.identifier "x"))
  · exact hlayer .assignment nested f fun g hg => expression_of_none (hsize g hg)
  · exact hstatement governed f fun g hg => statement_of_none (hsize g hg)
  · exact hfold leftParen? call .call (.identifier "x") f
  · exact hmany unaryOp? operator .operator f
  · exact hiterate nested governed 2 f hleft

end Parse

end Letter
