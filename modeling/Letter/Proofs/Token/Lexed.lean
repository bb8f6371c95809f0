import Letter.Proofs.Token.Join

/-!
# Texts cut into lexemes

Lexemes are cut off the front of a text, one after another, until a place in the text is
reached.  What the lexemes are is decided by the text in front of that place: a rule that
takes no more than the front of a text takes the same where the front is all there is.  By
`Lexed.front` the front of the text is cut into these lexemes, up to its end.
-/

namespace Letter

namespace Rule

variable {s later : List Char}

/-! ### What the parts of rules take -/

/-- A block comment ends with the first asterisk that a slash follows. -/
theorem blockEnd?_eq_some_iff {inside rest : List Char} :
  blockEnd? s = some (inside, rest) ↔ inside ++ '*' :: '/' :: rest = s ∧ ¬ ['*', '/'] <:+: inside
  := by
  constructor
  · intro h
    refine ⟨blockEnd?_eq_some h, ?_⟩
    fun_induction blockEnd? s generalizing inside with
    | case1 => simp_all
    | case2 c s hend ih =>
      obtain ⟨⟨i, r⟩, hr, he⟩ := Option.map_eq_some_iff.1 h
      cases he
      rw [List.infix_cons_iff, not_or]
      refine ⟨?_, ih hr⟩
      rintro ⟨t, ht⟩
      obtain ⟨rfl, rfl⟩ := List.cons.inj ht
      exact hend _ rfl (blockEnd?_eq_some hr).symm
    | case3 => simp at h
  · rintro ⟨rfl, hinside⟩
    induction inside with
    | nil => rfl
    | cons c inside ih =>
      rw [List.infix_cons_iff, not_or] at hinside
      rw [List.cons_append, blockEnd?, ih hinside.2]
      · rfl
      · rintro rest' rfl hs
        apply hinside.1
        cases inside with
        | nil => simp at hs
        | cons d inside =>
          obtain ⟨rfl, -⟩ := List.cons.inj hs
          exact ⟨inside, rfl⟩

/-! ### What is taken does not depend on the text behind -/

/-- A run that leaves the end of a text is the same without that end. -/
theorem run?_of_append {p : Char → Bool} {text rest : List Char}
    (h : run? p (s ++ later) = some (text, rest ++ later)) :
  run? p s = some (text, rest)
  := by
  rw [run?_eq_some_iff] at h ⊢
  obtain ⟨happend, hne, htext, hrest⟩ := h
  rw [← List.append_assoc] at happend
  exact ⟨List.append_cancel_right happend, hne, htext,
    fun c hc => hrest c (List.mem_head?_append_of_mem_head? hc)⟩

theorem after?_of_append {p rest : List Char}
    (h : after? p (s ++ later) = some (rest ++ later)) :
  after? p s = some rest
  := by
  rw [after?_eq_some_iff] at h ⊢
  rw [← List.append_assoc] at h
  apply List.append_cancel_right h

theorem after?_eq_none_of_append {p : List Char} (h : after? p (s ++ later) = none) :
  after? p s = none
  := by
  by_contra hsome
  obtain ⟨rest, hrest⟩ := Option.ne_none_iff_exists'.1 hsome
  obtain rfl := after?_eq_some hrest
  rw [List.append_assoc, after?_append] at h
  cases h

theorem operator?_of_append {os : List Operator} {o : Operator} {rest : List Char}
    (h : operator? (s ++ later) os = some (o, rest ++ later)) :
  operator? s os = some (o, rest)
  := by
  induction os with
  | nil => cases h
  | cons o' os ih =>
    rw [operator?] at h ⊢
    cases ha : after? o'.text.toList (s ++ later) with
    | none =>
      rw [ha] at h
      rw [after?_eq_none_of_append ha]
      apply ih h
    | some r =>
      rw [ha] at h
      cases h
      rw [after?_of_append ha]

theorem operator?_eq_none_of_append {os : List Operator}
    (h : operator? (s ++ later) os = none) :
  operator? s os = none
  := by
  induction os with
  | nil => rfl
  | cons o os ih =>
    rw [operator?] at h ⊢
    cases ha : after? o.text.toList (s ++ later) with
    | none =>
      rw [ha] at h
      rw [after?_eq_none_of_append ha]
      apply ih h
    | some r =>
      rw [ha] at h
      cases h

/-- A rule that takes no more than the front of a text takes the same where the front is
all there is. -/
theorem lexeme?_of_append {rule : Rule} {l : Lexeme} {rest : List Char}
    (h : rule.lexeme? (s ++ later) = some (l, rest ++ later)) :
  rule.lexeme? s = some (l, rest)
  := by
  have happend := text_append h
  rw [← List.append_assoc] at happend
  obtain rfl := List.append_cancel_right happend
  cases rule with
  | blanks | number | word =>
    obtain ⟨⟨t, r⟩, hr, he⟩ := Option.map_eq_some_iff.1 h
    cases he
    apply Option.map_eq_some_iff.2
    exact ⟨_, run?_of_append hr, rfl⟩
  | lineComment =>
    obtain ⟨r, hr, he⟩ := Option.map_eq_some_iff.1 h
    simp only [Prod.mk.injEq] at he
    obtain ⟨rfl, hrest⟩ := he
    have hinside : ∀ c ∈ r.takeWhile (· ≠ '\n'), (decide (c ≠ '\n')) = true := by
      intro c hc
      simpa using List.mem_takeWhile_imp hc
    have hend : ∀ c ∈ rest.head?, (decide (c ≠ '\n')) = false := by
      intro c hc
      apply forall_head?_dropWhile (fun c => decide (c ≠ '\n')) r
      rw [hrest]
      apply List.mem_head?_append_of_mem_head? hc
    have hafter : after? ['/', '/'] ('/' :: '/' :: r.takeWhile (· ≠ '\n') ++ rest)
        = some (r.takeWhile (· ≠ '\n') ++ rest) := after?_append ['/', '/'] _
    rw [Lexeme.text, lexeme?, hafter, Option.map_some, takeWhile_run hinside hend,
      dropWhile_run hinside hend]
  | blockComment =>
    simp only [lexeme?, Option.bind_eq_bind, Option.bind_eq_some_iff, Option.pure_def,
      Option.some.injEq, Prod.mk.injEq] at h ⊢
    obtain ⟨r, -, ⟨i, r'⟩, hi, rfl, -⟩ := h
    refine ⟨i ++ '*' :: '/' :: rest, ?_, (i, rest), ?_, rfl, rfl⟩
    · apply after?_eq_some_iff.2
      simp [Lexeme.text]
    · exact blockEnd?_eq_some_iff.2 ⟨rfl, (blockEnd?_eq_some_iff.1 hi).2⟩
  | delimiter d =>
    obtain ⟨r, hr, he⟩ := Option.map_eq_some_iff.1 h
    cases he
    apply Option.map_eq_some_iff.2
    exact ⟨_, after?_of_append hr, rfl⟩
  | keyword k =>
    simp only [lexeme?, Option.bind_eq_bind, Option.bind_eq_some_iff] at h ⊢
    obtain ⟨r, hr, h⟩ := h
    split at h
    · cases h
    · next hends =>
      cases h
      refine ⟨rest, after?_of_append hr, ?_⟩
      rw [if_neg]
      · rfl
      · cases rest with
        | nil => simp
        | cons c rest => exact hends
  | operators c =>
    obtain ⟨⟨o, r⟩, hr, he⟩ := Option.map_eq_some_iff.1 h
    cases he
    apply Option.map_eq_some_iff.2
    exact ⟨_, operator?_of_append hr, rfl⟩
  | string q =>
    simp only [lexeme?, Option.bind_eq_bind, Option.bind_eq_some_iff, Option.pure_def,
      Option.some.injEq, Prod.mk.injEq] at h ⊢
    obtain ⟨i, -, r, -, rfl, -⟩ := h
    have hinside : ∀ c ∈ i.takeWhile (· ≠ q.char), (decide (c ≠ q.char)) = true := by
      intro c hc
      simpa using List.mem_takeWhile_imp hc
    have hend : ∀ c ∈ (q.char :: rest).head?, (decide (c ≠ q.char)) = false := by simp
    refine ⟨i.takeWhile (· ≠ q.char) ++ q.char :: rest, ?_, rest, ?_, ?_⟩
    · apply after?_eq_some_iff.2
      simp [Lexeme.text, Token.text]
    · rw [dropWhile_run hinside hend]
      apply after?_append [q.char]
    · rw [takeWhile_run hinside hend]
      exact ⟨rfl, rfl⟩

/-- A rule that does not apply to a text does not apply to its front alone, if it is not
that of a reserved word, which a longer word does not begin with. -/
theorem lexeme?_eq_none_of_append {rule : Rule} (hkeyword : ∀ k, rule ≠ keyword k)
    (h : rule.lexeme? (s ++ later) = none) :
  rule.lexeme? s = none
  := by
  cases rule with
  | blanks | number | word =>
    rw [lexeme?, Option.map_eq_none_iff, run?_eq_none_iff] at h ⊢
    exact fun c hc => h c (List.mem_head?_append_of_mem_head? hc)
  | lineComment | delimiter d =>
    rw [lexeme?, Option.map_eq_none_iff] at h ⊢
    apply after?_eq_none_of_append h
  | blockComment =>
    by_contra hsome
    obtain ⟨⟨l, rest⟩, hl⟩ := Option.ne_none_iff_exists'.1 hsome
    rw [lexeme?_blockComment_append hl] at h
    cases h
  | keyword k => exact absurd rfl (hkeyword k)
  | operators c =>
    rw [lexeme?_operators, Option.map_eq_none_iff] at h ⊢
    apply operator?_eq_none_of_append h
  | string q =>
    by_contra hsome
    obtain ⟨⟨l, rest⟩, hl⟩ := Option.ne_none_iff_exists'.1 hsome
    rw [lexeme?_string_append hl] at h
    cases h

/-- A run of word characters that does not begin with a digit is a reserved word or a
name. -/
theorem first?_of_word {name rest : List Char} (h : run? isWordChar s = some (name, rest))
    (hhead : ∀ c ∈ s.head?, isDecimalDigit c = false) :
  first? s = some (.token (.ofWord (String.ofList name)), rest)
  := by
  obtain ⟨rfl, hne, hname, hrest⟩ := run?_eq_some_iff.1 h
  have hfirst : first? ((String.ofList name).toList ++ rest)
      = some (.token (.ofWord (String.ofList name)), rest) := by
    apply first?_word _ _ _ hrest
    · simpa using hne
    · simpa using hname
    · rw [String.toList_ofList]
      exact fun c hc => hhead c (List.mem_head?_append_of_mem_head? hc)
  rwa [String.toList_ofList] at hfirst

/-- The first applicable rule takes the same where the front of a text is all there is. -/
theorem first?_of_append {l : Lexeme} {rest : List Char}
    (h : first? (s ++ later) = some (l, rest ++ later)) :
  first? s = some (l, rest)
  := by
  by_cases hword : ∃ c ∈ (s ++ later).head?, isWordChar c = true ∧ isDecimalDigit c = false
  · -- the front may be a reserved word that a longer one begins with: then more is taken
    obtain ⟨c, hc, hchar, hdigit⟩ := hword
    have hhead : ∀ d ∈ (s ++ later).head?, isDecimalDigit d = false := by
      intro d hd
      rwa [← Option.mem_unique hc hd]
    obtain ⟨⟨name, r⟩, hrun⟩ : ∃ x, run? isWordChar (s ++ later) = some x := by
      apply Option.ne_none_iff_exists'.1
      intro hnone
      rw [run?_eq_none_iff.1 hnone c hc] at hchar
      cases hchar
    rw [first?_of_word hrun hhead] at h
    cases h
    apply first?_of_word (run?_of_append hrun)
    exact fun d hd => hhead d (List.mem_head?_append_of_mem_head? hd)
  · have hkeyword (k : Keyword) : lexeme? (keyword k) s = none := by
      cases s with
      | nil => cases k <;> rfl
      | cons c s =>
        apply lexeme?_eq_none
        by_contra hk
        rw [Bool.not_eq_false] at hk
        have hmem : c ∈ k.text.toList.head? := of_decide_eq_true hk
        apply hword
        exact ⟨c, rfl, Keyword.isWordChar_of_mem (List.mem_of_mem_head? hmem),
          Keyword.isDecimalDigit_of_mem_head hmem⟩
    obtain ⟨before, rule, after, htable, hl, hnone⟩ := List.findSome?_eq_some_iff.1 h
    apply List.findSome?_eq_some_iff.2
    refine ⟨before, rule, after, htable, lexeme?_of_append hl, fun rule' hrule => ?_⟩
    by_cases hk : ∃ k, rule' = keyword k
    · obtain ⟨k, rfl⟩ := hk
      apply hkeyword
    · apply lexeme?_eq_none_of_append (not_exists.1 hk) (hnone rule' hrule)

end Rule

/-! ### Lexemes up to a place -/

/-- The token that a lexeme is, if it is one. -/
def Lexeme.token? : Lexeme → Option Token
  | skipped _ => none
  | token t => some t

/-- The tokens among lexemes. -/
def Lexeme.tokens (ls : List Lexeme) : List Token := ls.filterMap token?

/-- Lexemes are cut off the front of a text, up to the place where the rest of it begins. -/
inductive Lexed : List Char → List Lexeme → List Char → Prop where
  | nil {s : List Char} : Lexed s [] s
  | cons {s later rest : List Char} {l : Lexeme} {ls : List Lexeme}
      (first : Rule.first? s = some (l, later)) (others : Lexed later ls rest) :
      Lexed s (l :: ls) rest

namespace Lexed

variable {s rest : List Char} {ls : List Lexeme}

/-- One lexeme. -/
theorem one {l : Lexeme} (h : Rule.first? s = some (l, rest)) :
  Lexed s [l] rest
  := cons h nil

theorem append {rest' : List Char} {ls' : List Lexeme} (h : Lexed s ls rest)
    (h' : Lexed rest ls' rest') :
  Lexed s (ls ++ ls') rest'
  := by
  induction h with
  | nil => exact h'
  | cons first _ ih => exact cons first (ih h')

/-- The lexemes and the rest make up the text. -/
theorem texts_append (h : Lexed s ls rest) :
  ls.flatMap Lexeme.text ++ rest = s
  := by
  induction h with
  | nil => rfl
  | cons first _ ih =>
    obtain ⟨rule, -, hl⟩ := Rule.exists_of_first? first
    rw [List.flatMap_cons, List.append_assoc, ih, Rule.text_append hl]

/-- The text in front of the rest is cut into the same lexemes. -/
theorem front (h : Lexed s ls rest) :
  Lexed (ls.flatMap Lexeme.text) ls []
  := by
  induction h with
  | nil => exact nil
  | @cons s later rest l ls first others ih =>
    obtain ⟨rule, -, hl⟩ := Rule.exists_of_first? first
    have hfirst : Rule.first? ((l :: ls).flatMap Lexeme.text ++ rest)
        = some (l, ls.flatMap Lexeme.text ++ rest) := by
      rw [List.flatMap_cons, List.append_assoc, others.texts_append, Rule.text_append hl, first]
    exact cons (Rule.first?_of_append hfirst) ih

/-- A text is cut into lexemes in one way. -/
theorem unique {ls' : List Lexeme} (h : Lexed s ls []) (h' : Lexed s ls' []) :
  ls = ls'
  := by
  generalize hend : ([] : List Char) = rest at h
  induction h generalizing ls' with
  | nil =>
    subst hend
    cases h' with
    | nil => rfl
    | cons first _ => cases first
  | cons first _ ih =>
    subst hend
    cases h' with
    | nil => cases first
    | cons first' others' =>
      cases first.symm.trans first'
      rw [ih others' rfl]

/-- The tokens of a text are those among its lexemes. -/
theorem cut (h : Lexed s ls []) :
  Cut s (Lexeme.tokens ls)
  := by
  generalize hrest : ([] : List Char) = rest at h
  induction h with
  | nil =>
    subst hrest
    exact .nil
  | @cons s later rest l ls first _ ih =>
    cases l with
    | skipped text => exact .skip first (ih hrest)
    | token t => exact .token first (ih hrest)

end Lexed

/-- A text that is cut into tokens is cut into lexemes, the tokens among them. -/
theorem Cut.exists_lexed {s : List Char} {ts : List Token} (h : Cut s ts) :
  ∃ ls, Lexed s ls [] ∧ Lexeme.tokens ls = ts
  := by
  induction h with
  | nil => exact ⟨[], .nil, rfl⟩
  | @skip s text rest ts first _ ih =>
    obtain ⟨ls, hls, rfl⟩ := ih
    exact ⟨.skipped text :: ls, .cons first hls, rfl⟩
  | @token s rest t ts first _ ih =>
    obtain ⟨ls, hls, rfl⟩ := ih
    exact ⟨.token t :: ls, .cons first hls, rfl⟩

/-! ### Lexemes that a scanner reads -/

namespace Scanner

/-- The tokens that reading one comes to. -/
def Reading.tokens : Reading → List Token
  | token t => [t]
  | finished | stuck _ => []

/-- Reading the next token cuts lexemes off, the token among them. -/
theorem lexed_next (s : Scanner) :
  ∃ ls, Lexed s.rest ls s.next.2.rest ∧ Lexeme.tokens ls = s.next.1.tokens
  := by
  fun_induction next s with
  | case1 s => exact ⟨[], .nil, rfl⟩
  | case2 s => exact ⟨[], .nil, rfl⟩
  | case3 s c r hs text rest hf ih =>
    obtain ⟨ls, hls, htokens⟩ := ih
    exact ⟨.skipped text :: ls, .cons hf hls, htokens⟩
  | case4 s c r hs t rest hf => exact ⟨[.token t], .one hf, rfl⟩

/-- Where reading gets stuck, no rule applies to what is left. -/
theorem rest_of_next_stuck {s s' : Scanner} {e : Stuck} (h : s.next = (.stuck e, s')) :
  (∃ r, s'.rest = e.char :: r) ∧ s'.offset = e.offset ∧ Rule.first? s'.rest = none
  := by
  fun_induction next s with
  | case1 => simp at h
  | case2 s c r hs hf =>
    cases h
    exact ⟨⟨r, hs⟩, rfl, hf⟩
  | case3 s c r hs text rest hf ih => apply ih h
  | case4 => simp at h

/-- Reading all tokens cuts lexemes off, the tokens among them. -/
theorem lexed_remainder (s : Scanner) :
  ∃ ls, Lexed s.rest ls s.remainder.final.rest ∧ Lexeme.tokens ls = s.remainder.tokens
  := by
  fun_induction remainder s with
  | case1 s s' h =>
    have hnext := s.lexed_next
    rwa [h] at hnext
  | case2 s e s' h =>
    have hnext := s.lexed_next
    rwa [h] at hnext
  | case3 s t s' h later ih =>
    obtain ⟨ls, hls, htokens⟩ := s.lexed_next
    obtain ⟨ls', hls', htokens'⟩ := ih
    rw [h] at hls htokens
    refine ⟨ls ++ ls', hls.append hls', ?_⟩
    rw [Lexeme.tokens, List.filterMap_append]
    change Lexeme.tokens ls ++ Lexeme.tokens ls' = t :: later.tokens
    rw [htokens, htokens']
    rfl

/-- Reading all tokens moves the place by the text that it passes over. -/
theorem remainder_offset (s : Scanner) :
  s.remainder.final.offset + s.remainder.final.rest.length = s.offset + s.rest.length
  := by
  fun_induction remainder s with
  | case1 s s' h =>
    have hnext := s.next_offset
    rwa [h] at hnext
  | case2 s e s' h =>
    have hnext := s.next_offset
    rwa [h] at hnext
  | case3 s t s' h later ih =>
    have hnext := s.next_offset
    rw [h] at hnext
    exact ih.trans hnext

/-- Where reading all tokens gets stuck, no rule applies to what is left. -/
theorem rest_of_remainder_stuck {s : Scanner} {e : Stuck} (h : s.remainder.stuck? = some e) :
  (∃ r, s.remainder.final.rest = e.char :: r) ∧ s.remainder.final.offset = e.offset
    ∧ Rule.first? s.remainder.final.rest = none
  := by
  fun_induction remainder s with
  | case1 => cases h
  | case2 s e' s' hnext =>
    cases h
    apply rest_of_next_stuck hnext
  | case3 s t s' hnext later ih => apply ih h

end Scanner

end Letter
