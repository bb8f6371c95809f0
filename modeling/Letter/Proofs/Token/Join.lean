import Mathlib.Data.List.Chain
import Letter.Proofs.Token.Spelling

/-!
# Texts one under the other

A text that is continued on a new line is cut into its own tokens and those of the
continuation.  There is one exception: a slash that an asterisk follows begins a block
comment if the end of one comes later, and is a token of its own if none does.  A text in
which no slash is followed by an asterisk can be continued by whatever is cut into tokens.
-/

namespace Letter

/-- Whether a token is an operator whose text begins with an asterisk. -/
def Token.Asterisk : Token → Prop
  | operator o => o.text.toList.head? = some '*'
  | _ => False

/-- Whether two tokens, one right after the other, begin a block comment. -/
def Token.OpensComment (t u : Token) : Prop := t = .operator (.binary .div) ∧ u.Asterisk

namespace Rule

/-! ### What a rule takes before a new line -/

/-- What is left of a text, continued on a new line. -/
def continued {α : Type} (later : List Char) (x : α × List Char) : α × List Char :=
  (x.1, x.2 ++ '\n' :: later)

variable {s later : List Char}

/-- What stands before the end of a line is found there, whatever follows it. -/
theorem after?_newline {p : List Char} (hp : '\n' ∉ p) :
  after? p (s ++ '\n' :: later) = (after? p s).map (· ++ '\n' :: later)
  := by
  induction p generalizing s with
  | nil => rfl
  | cons c p ih =>
    rw [List.mem_cons, not_or] at hp
    cases s with
    | nil => exact if_neg (Ne.symm hp.1)
    | cons d s =>
      rw [List.cons_append, after?, after?]
      split
      · apply ih hp.2
      · rfl

theorem takeWhile_newline {p : Char → Bool} (hp : p '\n' = false) :
  (s ++ '\n' :: later).takeWhile p = s.takeWhile p
  := by
  induction s with
  | nil => simp [hp]
  | cons c s ih => simp only [List.cons_append, List.takeWhile_cons, ih]

theorem dropWhile_newline {p : Char → Bool} (hp : p '\n' = false) :
  (s ++ '\n' :: later).dropWhile p = s.dropWhile p ++ '\n' :: later
  := by
  induction s with
  | nil => simp [hp]
  | cons c s ih =>
    rw [List.cons_append, List.dropWhile_cons, List.dropWhile_cons]
    split
    · exact ih
    · rfl

/-- A run that goes over no end of a line stops before it. -/
theorem run?_newline {p : Char → Bool} (hp : p '\n' = false) :
  run? p (s ++ '\n' :: later) = (run? p s).map (continued later)
  := by
  rw [run?, run?, takeWhile_newline hp, dropWhile_newline hp]
  split <;> rfl

theorem operator?_newline (os : List Operator) :
  operator? (s ++ '\n' :: later) os = (operator? s os).map (continued later)
  := by
  have htext (o : Operator) : '\n' ∉ o.text.toList := by
    cases o with
    | binary o => cases o <;> decide
    | assign o => cases o <;> decide
    | not => decide
  induction os with
  | nil => rfl
  | cons o os ih =>
    rw [operator?, operator?, after?_newline (htext o)]
    cases after? o.text.toList s with
    | none => exact ih
    | some rest => rfl

/-- The rules which a new line ends, whatever comes later.  Blanks go on over it; so does
what is to be closed, if that has not happened before. -/
theorem lexeme?_newline {rule : Rule} (hblanks : rule ≠ blanks)
    (hcomment : rule ≠ blockComment) (hstring : ∀ q, rule ≠ string q) :
  rule.lexeme? (s ++ '\n' :: later) = (rule.lexeme? s).map (continued later)
  := by
  cases rule with
  | blanks => exact absurd rfl hblanks
  | blockComment => exact absurd rfl hcomment
  | string q => exact absurd rfl (hstring q)
  | lineComment =>
    rw [lexeme?, lexeme?, after?_newline (by decide)]
    cases after? ['/', '/'] s with
    | none => rfl
    | some rest =>
      have hp : (decide ('\n' ≠ '\n')) = false := by decide
      simp only [Option.map_some, continued, takeWhile_newline (p := fun c => decide (c ≠ '\n')) hp,
        dropWhile_newline (p := fun c => decide (c ≠ '\n')) hp]
  | delimiter d =>
    rw [lexeme?, lexeme?, after?_newline (by cases d <;> decide)]
    cases after? [d.char] s <;> rfl
  | keyword k =>
    rw [lexeme?, lexeme?, after?_newline (by cases k <;> decide)]
    cases after? k.text.toList s with
    | none => rfl
    | some rest =>
      have hhead : ((rest ++ '\n' :: later).head?.map isWordChar).getD false
          = (rest.head?.map isWordChar).getD false := by
        cases rest with
        | nil => exact (by decide : isWordChar '\n' = false)
        | cons c rest => rfl
      simp only [Option.map_some, Option.bind_eq_bind, Option.bind_some, hhead]
      split <;> rfl
  | operators cl =>
    rw [lexeme?_operators, lexeme?_operators, operator?_newline]
    cases operator? s cl.operators <;> rfl
  | number =>
    rw [lexeme?, lexeme?, run?_newline (by decide)]
    cases run? isDecimalDigit s <;> rfl
  | word =>
    rw [lexeme?, lexeme?, run?_newline (by decide)]
    cases run? isWordChar s <;> rfl

/-- The end of a comment is found, whatever follows it. -/
theorem blockEnd?_append {inside rest : List Char} (h : blockEnd? s = some (inside, rest))
    (later : List Char) :
  blockEnd? (s ++ later) = some (inside, rest ++ later)
  := by
  fun_induction blockEnd? s generalizing inside with
  | case1 => simp_all [blockEnd?]
  | case2 c s hend ih =>
    obtain ⟨⟨i, r⟩, hr, he⟩ := Option.map_eq_some_iff.1 h
    cases he
    rw [List.cons_append, blockEnd?, ih hr]
    · rfl
    · rintro later' rfl hs
      cases s with
      | nil => cases hr
      | cons d s =>
        obtain ⟨rfl, -⟩ := List.cons.inj hs
        exact hend s rfl rfl
  | case3 => simp at h

/-- A block comment that is closed is the same whatever comes later. -/
theorem lexeme?_blockComment_append {rest : List Char} {l : Lexeme}
    (h : blockComment.lexeme? s = some (l, rest)) (later : List Char) :
  blockComment.lexeme? (s ++ later) = some (l, rest ++ later)
  := by
  simp only [lexeme?, Option.bind_eq_bind, Option.bind_eq_some_iff, Option.pure_def,
    Option.some.injEq, Prod.mk.injEq] at h ⊢
  obtain ⟨r, hr, ⟨i, r'⟩, hi, rfl, rfl⟩ := h
  refine ⟨r ++ later, ?_, (i, r' ++ later), blockEnd?_append hi later, rfl, rfl⟩
  rw [← after?_eq_some hr, List.append_assoc, after?_append]

/-- A quoted text that is closed is the same whatever comes later. -/
theorem lexeme?_string_append {q : Quote} {rest : List Char} {l : Lexeme}
    (h : (string q).lexeme? s = some (l, rest)) (later : List Char) :
  (string q).lexeme? (s ++ later) = some (l, rest ++ later)
  := by
  simp only [lexeme?, Option.bind_eq_bind, Option.bind_eq_some_iff, Option.pure_def,
    Option.some.injEq, Prod.mk.injEq] at h ⊢
  obtain ⟨inside, hs, r, hclose, rfl, rfl⟩ := h
  have hquote : inside ++ later
      = inside.takeWhile (· ≠ q.char) ++ q.char :: (r ++ later) := by
    rw [← List.cons_append, ← List.singleton_append, after?_eq_some hclose, ← List.append_assoc,
      List.takeWhile_append_dropWhile]
  have hinside : ∀ c ∈ inside.takeWhile (· ≠ q.char), (decide (c ≠ q.char)) = true := by
    intro c hc
    simpa using List.mem_takeWhile_imp hc
  have hend : ∀ c ∈ (q.char :: (r ++ later)).head?, (decide (c ≠ q.char)) = false := by simp
  refine ⟨inside ++ later, ?_, r ++ later, ?_, ?_⟩
  · rw [← after?_eq_some hs, List.append_assoc, after?_append]
  · rw [hquote, dropWhile_run hinside hend]
    exact after?_append [q.char] _
  · rw [hquote, takeWhile_run hinside hend]
    exact ⟨rfl, rfl⟩

/-! ### What the first applicable rule takes before a new line -/

/-- Where a quote stands, it begins a quoted text or no rule applies. -/
theorem first?_quote (q : Quote) (s : List Char) :
  first? (q.char :: s) = (string q).lexeme? (q.char :: s)
  := by
  have htable : (table.filter fun rule => rule.mayTake q.char) = [string q] := by
    cases q <;> decide
  rw [first?_cons, htable, List.findSome?_singleton]

/-- Where blanks do not begin, and neither does a comment that is closed later only, the
first applicable rule takes the same before a new line. -/
theorem first?_newline {l : Lexeme} {rest : List Char} (h : first? s = some (l, rest))
    (hblanks : ∀ c ∈ s.head?, isBlank c = false)
    (hcomment : blockComment.lexeme? s = none →
      blockComment.lexeme? (s ++ '\n' :: later) = none) :
  first? (s ++ '\n' :: later) = some (l, rest ++ '\n' :: later)
  := by
  obtain ⟨c, s, rfl⟩ : ∃ c r, s = c :: r := by
    cases s with
    | nil =>
      rw [Cut.first?_nil] at h
      cases h
    | cons c r => exact ⟨c, r, rfl⟩
  have hsame {rule : Rule} (hnone : rule.lexeme? (c :: s) = none →
        rule.lexeme? ((c :: s) ++ '\n' :: later) = none)
      (hsome : ∀ l rest, rule.lexeme? (c :: s) = some (l, rest) →
        rule.lexeme? ((c :: s) ++ '\n' :: later) = some (l, rest ++ '\n' :: later)) :
      rule.lexeme? ((c :: s) ++ '\n' :: later)
        = (rule.lexeme? (c :: s)).map (continued later) := by
    cases hl : rule.lexeme? (c :: s) with
    | none => apply hnone hl
    | some x => apply hsome _ _ hl
  have hrule (rule : Rule) : rule.lexeme? ((c :: s) ++ '\n' :: later)
      = (rule.lexeme? (c :: s)).map (continued later) := by
    cases rule with
    | blanks =>
      have hnone (r : List Char) : blanks.lexeme? (c :: r) = none :=
        lexeme?_eq_none (hblanks c rfl)
      rw [List.cons_append, hnone, hnone]
      rfl
    | blockComment =>
      apply hsame hcomment
      exact fun _ _ hl => lexeme?_blockComment_append hl _
    | string q =>
      apply hsame
      · intro hnone
        by_cases hc : c = q.char
        · subst hc
          rw [first?_quote, hnone] at h
          cases h
        · exact lexeme?_eq_none (decide_eq_false hc)
      · exact fun _ _ hl => lexeme?_string_append hl _
    | _ => exact lexeme?_newline (by simp) (by simp) (by simp)
  have hfirst : first? ((c :: s) ++ '\n' :: later)
      = (first? (c :: s)).map (continued later) := by
    rw [first?, first?, List.map_findSome?]
    exact congrArg (fun f => table.findSome? f) (funext hrule)
  rw [hfirst, h]
  rfl

/-- Where a block comment begins, a slash stands before an asterisk. -/
theorem after?_of_blockComment (h : blockComment.lexeme? s ≠ none) :
  ∃ r, after? ['/', '*'] s = some r
  := by
  rw [lexeme?] at h
  cases hs : after? ['/', '*'] s with
  | none =>
    rw [hs] at h
    exact absurd rfl h
  | some r => exact ⟨r, rfl⟩

/-- A slash before an asterisk that begins no block comment is a token of its own. -/
theorem first?_slash {r : List Char} (h : blockComment.lexeme? ('/' :: '*' :: r) = none) :
  first? ('/' :: '*' :: r) = some (.token (.operator (.binary .div)), '*' :: r)
  := by
  have hline : lineComment.lexeme? ('/' :: '*' :: r) = none := rfl
  rw [first?_eq_ofOperator '/' (by decide)]
  simp [ofOperator, hline, h, lexeme?_operators, operator?, OperatorClass.operators, after?,
    Operator.text, BinaryOp.text, AssignOp.text]

/-- What is passed over are blanks or a comment. -/
theorem eq_of_lexeme?_skipped {rule : Rule} {text rest : List Char}
    (h : rule.lexeme? s = some (.skipped text, rest)) :
  rule = blanks ∨ rule = lineComment ∨ rule = blockComment
  := by
  cases rule with
  | blanks => exact .inl rfl
  | lineComment => exact .inr (.inl rfl)
  | blockComment => exact .inr (.inr rfl)
  | keyword k =>
    simp only [lexeme?, Option.bind_eq_bind, Option.bind_eq_some_iff] at h
    obtain ⟨_, _, h⟩ := h
    split at h <;> simp at h
  | string q =>
    simp only [lexeme?, Option.bind_eq_bind, Option.bind_eq_some_iff] at h
    obtain ⟨_, _, _, _, h⟩ := h
    simp at h
  | _ => simp [lexeme?] at h

end Rule

namespace Cut

/-- Where an asterisk stands, the first token is an operator that begins with it. -/
theorem asterisk {r : List Char} {ts : List Token} (h : Cut ('*' :: r) ts) :
  ∃ u us, ts = u :: us ∧ u.Asterisk
  := by
  have hoperator {l : Lexeme} {rest : List Char}
      (hfirst : Rule.first? ('*' :: r) = some (l, rest)) : ∃ o, l = .token (.operator o) := by
    rw [Rule.first?_eq_ofOperator '*' (by decide)] at hfirst
    obtain ⟨rule, hrule, hl⟩ := List.exists_of_findSome?_eq_some hfirst
    obtain ⟨cl, rfl⟩ : ∃ cl, rule = .operators cl := by
      simp only [Rule.ofOperator, List.mem_cons, List.not_mem_nil, or_false] at hrule
      obtain rfl | rfl := hrule <;> exact ⟨_, rfl⟩
    obtain ⟨⟨o, rest⟩, -, he⟩ := Option.map_eq_some_iff.1 hl
    cases he
    exact ⟨o, rfl⟩
  cases h with
  | skip first later =>
    obtain ⟨o, ho⟩ := hoperator first
    cases ho
  | @token _ rest u us first later =>
    obtain ⟨o, ho⟩ := hoperator first
    cases ho
    refine ⟨_, us, rfl, ?_⟩
    obtain ⟨rule, -, hl⟩ := Rule.exists_of_first? first
    have htext : o.text.toList ++ rest = '*' :: r := Rule.text_append hl
    obtain ⟨c, cs, ho⟩ := List.exists_cons_of_ne_nil (Rule.operator_text_ne_nil o)
    rw [ho] at htext
    rw [Token.Asterisk, ho, (List.cons.inj htext).1, List.head?_cons]

/-- A text in which no slash is followed by an asterisk, continued on a new line, is cut
into its own tokens and those of the continuation. -/
theorem newline {s later : List Char} {ts us : List Token} (h : Cut s ts)
    (hslash : ts.IsChain fun t u => ¬ t.OpensComment u) (hlater : Cut later us) :
  Cut (s ++ '\n' :: later) (ts ++ us)
  := by
  induction h with
  | nil => exact (blank_iff (by decide)).2 hlater
  | @skip s text rest ts first _ ih =>
    obtain ⟨rule, -, hl⟩ := Rule.exists_of_first? first
    have htext : text ++ rest = s := Rule.text_append hl
    obtain rfl | rfl | rfl := Rule.eq_of_lexeme?_skipped hl
    · rw [← htext, List.append_assoc]
      apply blanks _ (ih hslash)
      obtain ⟨⟨b, r⟩, hr, he⟩ := Option.map_eq_some_iff.1 hl
      cases he
      intro c hc
      rw [Rule.run?] at hr
      split at hr
      · cases hr
      · cases hr
        exact List.mem_takeWhile_imp hc
    · obtain ⟨r, hr, -⟩ := Option.map_eq_some_iff.1 hl
      obtain rfl := Rule.after?_eq_some hr
      refine skip (Rule.first?_newline first ?_ fun _ => rfl) (ih hslash)
      simp only [List.cons_append, List.head?_cons, Option.mem_some_iff]
      rintro _ rfl
      decide
    · have hsome : Rule.blockComment.lexeme? s ≠ none := by simp [hl]
      obtain ⟨r, hr⟩ := Rule.after?_of_blockComment hsome
      obtain rfl := Rule.after?_eq_some hr
      refine skip (Rule.first?_newline first ?_ fun hnone => absurd hnone hsome) (ih hslash)
      simp only [List.cons_append, List.head?_cons, Option.mem_some_iff]
      rintro _ rfl
      decide
  | @token s rest t ts first later ih =>
    rw [List.isChain_cons] at hslash
    refine Cut.token (Rule.first?_newline first ?_ ?_) (ih hslash.2)
    · intro c hc
      obtain ⟨r, rfl⟩ := List.head?_eq_some_iff.1 hc
      by_contra hblank
      rw [Rule.first?_of_isBlank (by simpa using hblank)] at first
      cases first
    · intro hnone
      by_contra hsome
      -- the slash would be a token of its own, and the asterisk would begin the next one
      obtain ⟨r, hr⟩ := Rule.after?_of_blockComment hsome
      rw [Rule.after?_newline (by decide), Option.map_eq_some_iff] at hr
      obtain ⟨r, hr, -⟩ := hr
      obtain rfl := Rule.after?_eq_some hr
      rw [List.cons_append, List.singleton_append] at first hnone
      rw [Rule.first?_slash hnone] at first
      cases first
      obtain ⟨u, us, rfl, hu⟩ := later.asterisk
      apply hslash.1 u rfl
      exact ⟨rfl, hu⟩

end Cut

end Letter
