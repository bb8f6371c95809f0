import Letter.Token.Scanner

/-!
# Texts cut into tokens

A text is cut into tokens by applying the first applicable rule at each place, from its
beginning to its end.  By `tokenize_eq_ok_iff` the tokens of a text are those into which it
is cut, so that what precedes a place in the text has no part in the tokens behind it.
-/

namespace Letter

/-- A text is cut into tokens. -/
inductive Cut : List Char → List Token → Prop where
  | nil : Cut [] []
  | skip {s text rest : List Char} {ts : List Token}
      (first : Rule.first? s = some (.skipped text, rest)) (later : Cut rest ts) : Cut s ts
  | token {s rest : List Char} {t : Token} {ts : List Token}
      (first : Rule.first? s = some (.token t, rest)) (later : Cut rest ts) : Cut s (t :: ts)

namespace Cut

/-- No rule applies at the end of a text. -/
theorem first?_nil :
  Rule.first? [] = none
  := by
  cases h : Rule.first? [] with
  | none => rfl
  | some x => exact absurd (Rule.first?_length_lt h) (by simp)

/-- The end of a text is cut into no token. -/
theorem nil_iff {ts : List Token} :
  Cut [] ts ↔ ts = []
  := by
  constructor
  · intro h
    cases h with
    | nil => rfl
    | skip first later =>
      rw [first?_nil] at first
      cases first
    | token first later =>
      rw [first?_nil] at first
      cases first
  · rintro rfl
    exact nil

/-- Where blanks or a comment stand, the tokens are those behind them. -/
theorem skip_iff {s text rest : List Char} {ts : List Token}
    (h : Rule.first? s = some (.skipped text, rest)) :
  Cut s ts ↔ Cut rest ts
  := by
  constructor
  · intro hs
    cases hs with
    | nil =>
      rw [first?_nil] at h
      cases h
    | skip first later =>
      rw [h] at first
      obtain ⟨-, rfl⟩ := Prod.mk.inj (Option.some.inj first)
      exact later
    | token first later =>
      rw [h] at first
      cases first
  · apply skip h

/-- Where a token stands, it is the first one, and the others are those behind it. -/
theorem token_iff {s rest : List Char} {t : Token} {ts : List Token}
    (h : Rule.first? s = some (.token t, rest)) :
  Cut s ts ↔ ∃ us, ts = t :: us ∧ Cut rest us
  := by
  constructor
  · intro hs
    cases hs with
    | nil =>
      rw [first?_nil] at h
      cases h
    | skip first later =>
      rw [h] at first
      cases first
    | token first later =>
      rw [h] at first
      cases first
      exact ⟨_, rfl, later⟩
  · rintro ⟨us, rfl, hs⟩
    apply token h hs

/-- Where no rule applies before the end, a text is not cut. -/
theorem not_of_first?_eq_none {c : Char} {s : List Char} {ts : List Token}
    (h : Rule.first? (c :: s) = none) :
  ¬ Cut (c :: s) ts
  := by
  intro hs
  cases hs with
  | skip first later =>
    rw [h] at first
    cases first
  | token first later =>
    rw [h] at first
    cases first

/-- A text is cut in one way only. -/
theorem unique {s : List Char} {ts us : List Token} (hs : Cut s ts) (hs' : Cut s us) :
  ts = us
  := by
  induction hs generalizing us with
  | nil => apply (nil_iff.1 hs').symm
  | skip first later ih =>
    apply ih
    apply (skip_iff first).1 hs'
  | token first later ih =>
    obtain ⟨us, rfl, hrest⟩ := (token_iff first).1 hs'
    rw [ih hrest]

end Cut

/-! ### The tokens of a text -/

namespace Scanner

/-- The place where a text is read from decides about its tokens by what follows it. -/
theorem cut_iff_of_next_token {s s' : Scanner} {t : Token} {ts : List Token}
    (h : s.next = (.token t, s')) :
  Cut s.rest ts ↔ ∃ us, ts = t :: us ∧ Cut s'.rest us
  := by
  fun_induction next s with
  | case1 => simp at h
  | case2 => simp at h
  | case3 s c r hs text rest hf ih =>
    rw [Cut.skip_iff hf]
    apply ih h
  | case4 s c r hs t rest hf =>
    obtain ⟨ht, rfl⟩ := Prod.mk.inj h
    cases ht
    apply Cut.token_iff hf

/-- Where reading has finished, no token is left. -/
theorem cut_iff_of_next_finished {s s' : Scanner} {ts : List Token}
    (h : s.next = (.finished, s')) :
  Cut s.rest ts ↔ ts = []
  := by
  fun_induction next s with
  | case1 s hs =>
    rw [hs]
    apply Cut.nil_iff
  | case2 => simp at h
  | case3 s c r hs text rest hf ih =>
    rw [Cut.skip_iff hf]
    apply ih h
  | case4 => simp at h

/-- Where reading gets stuck, the text is not cut. -/
theorem not_cut_of_next_stuck {s s' : Scanner} {e : Stuck} {ts : List Token}
    (h : s.next = (.stuck e, s')) :
  ¬ Cut s.rest ts
  := by
  fun_induction next s with
  | case1 => simp at h
  | case2 s c r hs hf =>
    rw [hs] at hf ⊢
    apply Cut.not_of_first?_eq_none hf
  | case3 s c r hs text rest hf ih =>
    rw [Cut.skip_iff hf]
    apply ih h
  | case4 => simp at h

/-- What remains to be read at a place are the tokens into which the text behind it is
cut. -/
theorem cut_iff_remainder (s : Scanner) (ts : List Token) :
  Cut s.rest ts ↔ s.remainder.stuck? = none ∧ s.remainder.tokens = ts
  := by
  fun_induction remainder s generalizing ts with
  | case1 s s' h =>
    rw [cut_iff_of_next_finished h]
    exact ⟨fun h => ⟨rfl, h.symm⟩, fun h => h.2.symm⟩
  | case2 s e s' h =>
    constructor
    · exact fun hs => absurd hs (not_cut_of_next_stuck h)
    · rintro ⟨hs, -⟩
      cases hs
  | case3 s t s' h later ih =>
    rw [cut_iff_of_next_token h]
    constructor
    · rintro ⟨us, rfl, hs⟩
      obtain ⟨hstuck, hus⟩ := (ih us).1 hs
      exact ⟨hstuck, congrArg (t :: ·) hus⟩
    · rintro ⟨hstuck, rfl⟩
      exact ⟨_, rfl, (ih _).2 ⟨hstuck, rfl⟩⟩

/-- Where reading has finished, no text is left. -/
theorem rest_of_next_finished {s s' : Scanner} (h : s.next = (.finished, s')) :
  s'.rest = []
  := by
  fun_induction next s with
  | case1 s hs =>
    cases h
    exact hs
  | case2 => simp at h
  | case3 s c r hs text rest hf ih => apply ih h
  | case4 => simp at h

/-- Reading moves the place by the text that it passes over. -/
theorem next_offset (s : Scanner) :
  s.next.2.offset + s.next.2.rest.length = s.offset + s.rest.length
  := by
  fun_induction next s with
  | case1 => rfl
  | case2 => rfl
  | case3 s c r hs text rest hf ih =>
    obtain ⟨rule, -, hl⟩ := Rule.exists_of_first? hf
    have happend := congrArg List.length (Rule.text_append hl)
    rw [List.length_append, Lexeme.text] at happend
    dsimp only at ih
    omega
  | case4 s c r hs t rest hf =>
    obtain ⟨rule, -, hl⟩ := Rule.exists_of_first? hf
    have happend := congrArg List.length (Rule.text_append hl)
    rw [List.length_append, Lexeme.text, String.length_toList] at happend
    dsimp only
    omega

end Scanner

/-- The tokens of a text are those into which it is cut. -/
theorem tokenize_eq_ok_iff {source : String} {ts : List Token} :
  tokenize source = .ok ts ↔ Cut source.toList ts
  := by
  have h := Scanner.cut_iff_remainder (Scanner.ofList source.toList) ts
  rw [Scanner.ofList] at h
  rw [h, tokenize, Scanner.ofList]
  split
  · next e he => simp [he]
  · next he => simp [he]

/-- A text has no tokens where reading it gets stuck. -/
theorem tokenize_eq_error_iff {source : String} {e : Stuck} :
  tokenize source = .error e
    ↔ (Scanner.ofList source.toList).remainder.stuck? = some e
  := by
  rw [tokenize]
  split
  · next e' he => simp [he]
  · next he => simp [he]

end Letter
