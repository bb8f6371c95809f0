import Letter.Proofs.Token.Shared

/-!
# Words

A word is a run of word characters that no word character follows.  The decimal digits that it
begins with are read as a numeral, and what is left of it as one token: a reserved word if it is
one, and a name otherwise.  So a name is never cut, whatever reserved word it begins or ends with,
and what is handed out as a name is no reserved word.

Main statement: `Cursor.answers_word`.
-/

namespace Letter

/-- The tokens of a word: a numeral of the decimal digits that it begins with, and the reserved
word or name that is left, so far as there are any. -/
def wordTokens (w : List Char) : List Token :=
  let digits := w.takeWhile isDecimalDigit
  let left := w.dropWhile isDecimalDigit
  (if digits = [] then [] else [.number (String.ofList digits)])
    ++ (if left = [] then [] else [.ofWord (String.ofList left)])

/-! ### Lexemes of a word -/

namespace Lexed

variable {w rest : List Char}

/-- The decimal digits that a text begins with are one lexeme. -/
theorem digits (h : ∀ c ∈ w, isDecimalDigit c = true)
    (hrest : ∀ c ∈ rest.head?, isDecimalDigit c = false) :
  Lexed (w ++ rest) ((if w = [] then [] else [.number (String.ofList w)]).map .token) rest
  := by
  split
  · next hw =>
    subst hw
    exact nil
  · next hw => exact one (Rule.first?_digits hw h hrest)

/-- What begins with no decimal digit is one lexeme up to the end of the word. -/
theorem undivided (h : ∀ c ∈ w, isWordChar c = true)
    (hhead : ∀ c ∈ w.head?, isDecimalDigit c = false) (hrest : EndsWord rest) :
  Lexed (w ++ rest) ((if w = [] then [] else [.ofWord (String.ofList w)]).map .token) rest
  := by
  split
  · next hw =>
    subst hw
    exact nil
  · next hw =>
    apply one
    have hword := @Rule.first?_word (String.ofList w) rest (by simpa using hw) (by simpa using h)
      (by simpa using hhead) hrest
    rwa [String.toList_ofList] at hword

/-- The lexemes of a word are its tokens. -/
theorem word (h : ∀ c ∈ w, isWordChar c = true) (hrest : EndsWord rest) :
  Lexed (w ++ rest) ((wordTokens w).map .token) rest
  := by
  have hleft : ∀ c ∈ (w.dropWhile isDecimalDigit ++ rest).head?, isDecimalDigit c = false := by
    rw [List.head?_append]
    intro c hc
    obtain hc | ⟨-, hc⟩ := Option.or_eq_some_iff.1 hc
    · exact Rule.forall_head?_dropWhile _ w c hc
    · exact Rule.isDecimalDigit_of_endsWord hrest c hc
  have hdigits := digits (w := w.takeWhile isDecimalDigit) (fun _ => List.mem_takeWhile_imp) hleft
  have hword := undivided (fun c hc => h c ((List.dropWhile_suffix _).subset hc))
    (Rule.forall_head?_dropWhile isDecimalDigit w) hrest
  have hall := hdigits.append hword
  rwa [← List.append_assoc, List.takeWhile_append_dropWhile, ← List.map_append] at hall

/-- What is read is valid. -/
theorem valid {ls : List Lexeme} (h : Lexed w ls rest) :
  ∀ t ∈ Lexeme.tokens ls, t.Valid
  := by
  induction h with
  | nil => simp [Lexeme.tokens]
  | @cons s later rest l ls first _ ih =>
    intro t ht
    cases l with
    | skipped text => exact ih t ht
    | token u =>
      obtain rfl | ht := List.mem_cons.1 (show t ∈ u :: Lexeme.tokens ls from ht)
      · exact Rule.valid_of_first? first
      · exact ih t ht

end Lexed

/-! ### What is handed out is valid -/

namespace Scanner

/-- What a scanner reads can stand in a text. -/
theorem valid_of_next {s s' : Scanner} {t : Token} (h : s.next = (.token t, s')) :
  t.Valid
  := by
  obtain ⟨ls, hls, htokens⟩ := s.lexed_next
  apply hls.valid
  rw [htokens, h]
  exact List.mem_singleton_self t

theorem valid_of_mem_remainder {s : Scanner} {t : Token} (h : t ∈ s.remainder.tokens) :
  t.Valid
  := by
  obtain ⟨ls, hls, htokens⟩ := s.lexed_remainder
  apply hls.valid
  rwa [htokens]

end Scanner

namespace Place

variable {source : List Char} {t : Token}

theorem valid_of_ofScanner {s : Scanner} {p : Place} (h : ofScanner s.next = (.token t, p)) :
  t.Valid
  := by
  cases hnext : s.next with
  | mk x s' =>
    rw [hnext] at h
    cases x <;> cases h
    exact Scanner.valid_of_next hnext

theorem valid_of_nextBefore {distance : Nat} {p : Place}
    (h : nextBefore source distance = (.token t, p)) :
  t.Valid
  := by
  fun_induction nextBefore source distance with
  | case1 => cases h
  | case2 => cases h
  | case3 distance hfits u rest hfirst =>
    cases h
    exact Rule.valid_of_first? hfirst
  | case4 distance hfits text rest hfirst hlt ih => exact ih h
  | case5 => exact valid_of_ofScanner h

/-- What is read from a place can stand in a text. -/
theorem valid_of_next {p p' : Place} (h : p.next source = (.token t, p')) :
  t.Valid
  := by
  cases p with
  | within s => exact valid_of_ofScanner h
  | before distance => exact valid_of_nextBefore h

theorem valid_of_mem_remainderBefore {distance : Nat}
    (h : t ∈ (remainderBefore source distance).tokens) :
  t.Valid
  := by
  fun_induction remainderBefore source distance with
  | case1 distance u d hnext later ih =>
    obtain rfl | h := List.mem_cons.1 h
    · exact valid_of_nextBefore hnext
    · exact ih h
  | case2 distance u s hnext later =>
    obtain rfl | h := List.mem_cons.1 h
    · exact valid_of_nextBefore hnext
    · exact Scanner.valid_of_mem_remainder h
  | case3 => cases h

theorem valid_of_mem_remainder {p : Place} (h : t ∈ (p.remainder source).tokens) :
  t.Valid
  := by
  cases p with
  | within s => exact Scanner.valid_of_mem_remainder h
  | before distance => exact valid_of_mem_remainderBefore h

end Place

namespace Cursor

variable {c : Cursor} {t : Token}

theorem eq_token_of_mem_handed {r : Place.Reading} (h : t ∈ (Answer.reading r).handed) :
  r = .token t
  := by
  cases r with
  | token u => rw [List.mem_singleton.1 h]
  | finished | stuck _ | astray _ => cases h

/-- Every token that a request hands out is valid, wherever the cursor is. -/
theorem valid_of_mem_answer {r : Request} (h : t ∈ (c.answer r).1.handed) :
  t.Valid
  := by
  have hnext : t ∈ (Answer.reading (c.place.next c.source).1).handed → t.Valid :=
    fun h => Place.valid_of_next (Prod.ext (eq_token_of_mem_handed h) rfl)
  cases r with
  | load _ | seek _ | atEnd | beforeEnd | iterate => cases h
  | next => exact hnext h
  | remaining =>
    rw [answer] at h
    split at h
    · exact Place.valid_of_mem_remainder h
    · exact Place.valid_of_mem_remainder h
    · next hno _ => exact absurd (eq_token_of_mem_handed h) (hno t)
  | yield i =>
    rw [answer] at h
    split at h
    · split at h
      · next hplace =>
        rw [hplace] at hnext
        exact hnext h
      · cases h
      · next hplace =>
        rw [hplace] at hnext
        exact hnext h
    · cases h

/-- Every token that is handed out is valid. -/
theorem valid_of_mem_handedOut {rs : List Request} (h : t ∈ handedOut (c.answers rs).1) :
  t.Valid
  := by
  induction rs generalizing c with
  | nil => cases h
  | cons r rs ih =>
    rw [answers, handedOut, List.flatMap_cons, List.mem_append] at h
    obtain h | h := h
    · exact valid_of_mem_answer h
    · exact ih h

/-! ### Words that are read -/

/-- Lexemes without gaps between them are handed out one after another. -/
theorem answers_of_lexed {s rest : List Char} {n m : Nat} {ts : List Token}
    (h : Lexed s (ts.map .token) rest) (hplace : c.place = .within ⟨s, n⟩)
    (hm : m + rest.length = n + s.length) :
  c.answers (List.replicate ts.length .next)
    = (ts.map fun t => .reading (.token t), { c with place := .within ⟨rest, m⟩ })
  := by
  induction ts generalizing c s n with
  | nil =>
    cases h
    obtain rfl := Nat.add_right_cancel hm
    rw [← hplace]
    rfl
  | cons t ts ih =>
    obtain _ | ⟨first, others⟩ := h
    cases s with
    | nil => cases first
    | cons a s =>
      obtain ⟨rule, -, hl⟩ := Rule.exists_of_first? first
      have hlength := congrArg List.length (Rule.text_append hl)
      rw [List.length_append, Lexeme.text, String.length_toList] at hlength
      have hanswer := answer_next_of_scanner hplace (Scanner.next_of_token first)
      rw [List.length_cons, List.replicate_succ, answers, hanswer]
      dsimp only
      rw [ih others rfl (by omega)]
      rfl

/-- At a place in a text, what is read without gaps leads to the end of what is read. -/
theorem answers_at {w rest : List Char} {n : Nat} {ts : List Token}
    (h : Lexed (w ++ rest) (ts.map .token) rest)
    (hplace : c.place = .within (Scanner.seek c.source n)) (hsource : c.source.drop n = w ++ rest) :
  c.answers (List.replicate ts.length .next)
    = (ts.map fun t => .reading (.token t),
      { c with place := .within (Scanner.seek c.source (n + w.length)) })
  := by
  rw [Scanner.seek, ← List.drop_drop, hsource, List.drop_left]
  rw [Scanner.seek, hsource] at hplace
  apply answers_of_lexed h hplace
  rw [List.length_append]
  omega

/-- At the beginning of a word, its tokens are handed out one after another, up to its end: the
decimal digits that it begins with as a numeral, and what is left of it as the reserved word that
it is, or else as a name.  A name is handed out as a whole.  Wherever the cursor is and whatever is
asked, no reserved word is handed out as a name. -/
theorem answers_word (c : Cursor) :
  (∀ n w rest, c.place = .within (Scanner.seek c.source n) → c.source.drop n = w ++ rest →
      (∀ a ∈ w, isWordChar a = true) → EndsWord rest →
      c.answers (List.replicate (wordTokens w).length .next)
        = ((wordTokens w).map fun t => .reading (.token t),
          { c with place := .within (Scanner.seek c.source (n + w.length)) }))
    ∧ (∀ w, (∀ k : Keyword, k.text = w → Token.ofWord w = .keyword k)
      ∧ ((∀ k : Keyword, k.text ≠ w) → Token.ofWord w = .identifier w))
    ∧ (∀ n name rest, c.place = .within (Scanner.seek c.source n) →
      c.source.drop n = name.toList ++ rest → IsName name → EndsWord rest →
      c.answer .next = (.reading (.token (.identifier name)),
        { c with place := .within (Scanner.seek c.source (n + name.length)) }))
    ∧ ∀ rs name, .identifier name ∈ handedOut (c.answers rs).1 → ∀ k : Keyword, k.text ≠ name
  := by
  refine ⟨?_, ?_, ?_, ?_⟩
  · intro n w rest hplace hsource hw hrest
    exact answers_at (Lexed.word hw hrest) hplace hsource
  · intro w
    refine ⟨?_, Token.ofWord_of_notReserved⟩
    rintro k rfl
    exact Token.ofWord_keyword k
  · intro n name rest hplace hsource hname hrest
    have hlexed : Lexed (name.toList ++ rest) ([.identifier name].map .token) rest :=
      .one (Rule.first?_text (t := .identifier name) hname hrest)
    have hanswers := answers_at hlexed hplace hsource
    obtain ⟨hanswer, hafter⟩ := Prod.mk.inj hanswers
    rw [String.length_toList] at hafter
    exact Prod.ext (List.cons.inj hanswer).1 hafter
  · intro rs name hmem
    exact (valid_of_mem_handedOut hmem).notReserved

/-- A numeral with a digit of another script and the keyword behind it, read from the middle of a
text. -/
theorem answers_word_samples :
  ∃ c : Cursor, c.source = "x ٣1else;".toList
    ∧ c.place = .within (Scanner.seek c.source 2) ∧ c.source.drop 2 = "٣1else".toList ++ [';']
    ∧ (∀ a ∈ "٣1else".toList, isWordChar a = true) ∧ EndsWord [';']
    ∧ c.answers [.next, .next]
      = ([.reading (.token (.number "٣1")), .reading (.token (.keyword .elseWord))],
        { c with place := .within (Scanner.seek c.source 8) })
  := by
  let source := "x ٣1else;".toList
  have hdigit : isDecimalDigit '٣' = true := by decide
  have hword : ∀ a ∈ "٣1else".toList, isWordChar a = true := by
    have hletters : ['1', 'e', 'l', 's', 'e'].all isWordChar = true := by decide
    exact List.forall_mem_cons.2 ⟨isWordChar_of_isDecimalDigit hdigit, List.all_eq_true.1 hletters⟩
  have hrest : EndsWord [';'] := endsWord_cons.2 (by decide)
  have htokens : wordTokens "٣1else".toList = [.number "٣1", .keyword .elseWord] := by
    decide +kernel
  obtain ⟨hread, -⟩ := answers_word ⟨source, .within (Scanner.seek source 2), []⟩
  have hanswers := hread 2 "٣1else".toList [';'] rfl (by decide) hword hrest
  rw [htokens] at hanswers
  exact ⟨_, rfl, rfl, by decide, hword, hrest, hanswers⟩

end Cursor

end Letter
