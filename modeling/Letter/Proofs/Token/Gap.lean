import Letter.Proofs.Token.Lexed

/-!
# Gaps between tokens

What stands between the tokens of a text are gaps: blanks and comments.  A line comment goes
on to the end of its line, and a block comment to the first asterisk that a slash follows.
A text is its tokens, in order, with gaps before, between and behind them; where reading it
gets stuck, this is so of the text in front of the offending character.

Gaps decide nothing.  Tokens that have been read from some text can be written with other
gaps between them, each of which begins with a blank, and are then read from that text as
well.

Main statements: `tokenize_spaced`, `tokenize_separated`.
-/

namespace Letter

/-- A gap that any text may follow: blanks, line comments that end with their line, and
block comments that are closed, one after another. -/
inductive Gap : List Char → Prop where
  | nil : Gap []
  | blank {c : Char} {g : List Char} (h : isBlank c = true) (later : Gap g) : Gap (c :: g)
  | lineComment {inside g : List Char} (h : '\n' ∉ inside) (later : Gap g) :
      Gap ('/' :: '/' :: inside ++ '\n' :: g)
  | blockComment {inside g : List Char} (h : ¬ ['*', '/'] <:+: inside) (later : Gap g) :
      Gap ('/' :: '*' :: inside ++ '*' :: '/' :: g)

/-- A gap that ends a text: a line comment may go on to the end. -/
inductive LastGap : List Char → Prop where
  | closed {g : List Char} (h : Gap g) : LastGap g
  | lineComment {g inside : List Char} (h : Gap g) (line : '\n' ∉ inside) :
      LastGap (g ++ '/' :: '/' :: inside)

/-- A text consists of tokens with gaps before, between and behind them. -/
inductive Spaced : List Char → List Token → Prop where
  | last {g : List Char} (gap : LastGap g) : Spaced g []
  | token {g s : List Char} {t : Token} {ts : List Token} (gap : Gap g) (later : Spaced s ts) :
      Spaced (g ++ (t.text.toList ++ s)) (t :: ts)

/-- A gap that begins with a blank. -/
structure Separator (s : String) : Prop where
  gap : Gap s.toList
  blank : ∃ c ∈ s.toList.head?, isBlank c = true

namespace Gap

variable {g g' : List Char}

theorem blanks (h : ∀ c ∈ g, isBlank c = true) :
  Gap g
  := by
  induction g with
  | nil => exact nil
  | cons c g ih =>
    obtain ⟨hc, hg⟩ := List.forall_mem_cons.1 h
    exact blank hc (ih hg)

theorem append (h : Gap g) (h' : Gap g') :
  Gap (g ++ g')
  := by
  induction h with
  | nil => exact h'
  | blank hc _ ih => exact blank hc ih
  | @lineComment inside g hline _ ih =>
    have hgap := lineComment hline ih
    simpa using hgap
  | @blockComment inside g hinside _ ih =>
    have hgap := blockComment hinside ih
    simpa using hgap

/-- A gap may stand before one that ends a text. -/
theorem append_last (h : Gap g) (h' : LastGap g') :
  LastGap (g ++ g')
  := by
  cases h' with
  | closed h' => exact .closed (h.append h')
  | lineComment h' line =>
    rw [← List.append_assoc]
    exact .lineComment (h.append h') line

end Gap

/-! ### Gaps are passed over -/

namespace Rule

/-- A line comment is passed over up to the end of its line. -/
theorem first?_lineComment {inside rest : List Char} (h : '\n' ∉ inside)
    (hrest : ∀ c ∈ rest.head?, c = '\n') :
  first? ('/' :: '/' :: inside ++ rest) = some (.skipped ('/' :: '/' :: inside), rest)
  := by
  have hinside : ∀ c ∈ inside, (decide (c ≠ '\n')) = true := by
    intro c hc
    apply decide_eq_true
    rintro rfl
    apply h hc
  have hend : ∀ c ∈ rest.head?, (decide (c ≠ '\n')) = false := by
    intro c hc
    simpa using hrest c hc
  have hafter : after? ['/', '/'] ('/' :: '/' :: (inside ++ rest)) = some (inside ++ rest) :=
    after?_append ['/', '/'] _
  have hlexeme : lineComment.lexeme? ('/' :: '/' :: (inside ++ rest))
      = some (.skipped ('/' :: '/' :: inside), rest) := by
    rw [lexeme?, hafter, Option.map_some, takeWhile_run hinside hend, dropWhile_run hinside hend]
  rw [List.cons_append, List.cons_append, first?_eq_ofOperator '/' (by decide), ofOperator,
    List.findSome?_cons, hlexeme]
  all_goals decide

/-- A block comment is passed over up to its end. -/
theorem first?_blockComment {inside : List Char} (h : ¬ ['*', '/'] <:+: inside)
    (rest : List Char) :
  first? ('/' :: '*' :: inside ++ '*' :: '/' :: rest)
    = some (.skipped ('/' :: '*' :: inside ++ ['*', '/']), rest)
  := by
  have hline : lineComment.lexeme? ('/' :: '*' :: (inside ++ '*' :: '/' :: rest)) = none := rfl
  have hafter : after? ['/', '*'] ('/' :: '*' :: (inside ++ '*' :: '/' :: rest))
      = some (inside ++ '*' :: '/' :: rest) := after?_append ['/', '*'] _
  have hend : blockEnd? (inside ++ '*' :: '/' :: rest) = some (inside, rest) :=
    blockEnd?_eq_some_iff.2 ⟨rfl, h⟩
  have hlexeme : blockComment.lexeme? ('/' :: '*' :: (inside ++ '*' :: '/' :: rest))
      = some (.skipped ('/' :: '*' :: inside ++ ['*', '/']), rest) := by
    simp only [lexeme?, hafter, hend, Option.bind_eq_bind, Option.bind_some, Option.pure_def]
  rw [List.cons_append, List.cons_append, first?_eq_ofOperator '/' (by decide), ofOperator,
    List.findSome?_cons, hline, List.findSome?_cons, hlexeme]
  all_goals decide

end Rule

/-- A gap before a text has no part in its tokens. -/
theorem Cut.gap {g s : List Char} {ts : List Token} (hg : Gap g) (h : Cut s ts) :
  Cut (g ++ s) ts
  := by
  induction hg with
  | nil => exact h
  | blank hc _ ih => exact (blank_iff hc).2 ih
  | @lineComment inside g hline _ ih =>
    rw [List.append_assoc, List.cons_append]
    apply skip (Rule.first?_lineComment hline (by simp))
    exact (blank_iff (by decide)).2 ih
  | @blockComment inside g hinside _ ih =>
    rw [List.append_assoc, List.cons_append, List.cons_append]
    apply skip (Rule.first?_blockComment hinside _) ih

/-! ### Between the tokens of a text there are gaps -/

/-- What is passed over are blanks, a line comment up to the end of its line, or a block
comment that is closed. -/
theorem Rule.first?_eq_some_skipped {s text rest : List Char}
    (h : first? s = some (.skipped text, rest)) :
  (∀ c ∈ text, isBlank c = true)
    ∨ (∃ inside, text = '/' :: '/' :: inside ∧ '\n' ∉ inside ∧ ∀ c ∈ rest.head?, c = '\n')
    ∨ ∃ inside, text = '/' :: '*' :: inside ++ ['*', '/'] ∧ ¬ ['*', '/'] <:+: inside
  := by
  obtain ⟨rule, -, hl⟩ := exists_of_first? h
  obtain rfl | rfl | rfl := eq_of_lexeme?_skipped hl
  · obtain ⟨⟨b, r⟩, hr, he⟩ := Option.map_eq_some_iff.1 hl
    cases he
    exact .inl (run?_eq_some_iff.1 hr).2.2.1
  · obtain ⟨r, -, he⟩ := Option.map_eq_some_iff.1 hl
    cases he
    refine .inr (.inl ⟨_, rfl, fun hmem => ?_, fun c hc => ?_⟩)
    · simpa using List.mem_takeWhile_imp hmem
    · simpa using forall_head?_dropWhile _ r c hc
  · simp only [lexeme?, Option.bind_eq_bind, Option.bind_eq_some_iff, Option.pure_def,
      Option.some.injEq, Prod.mk.injEq, Lexeme.skipped.injEq] at hl
    obtain ⟨r, -, ⟨inside, r'⟩, hi, rfl, rfl⟩ := hl
    exact .inr (.inr ⟨inside, rfl, (blockEnd?_eq_some_iff.1 hi).2⟩)

/-- A gap before a text is one before its tokens. -/
theorem Spaced.gap {g s : List Char} {ts : List Token} (hg : Gap g) (h : Spaced s ts) :
  Spaced (g ++ s) ts
  := by
  cases h with
  | last gap => exact .last (hg.append_last gap)
  | token gap later =>
    rw [← List.append_assoc]
    exact .token (hg.append gap) later

/-- A text that is cut into tokens consists of them, with gaps around them. -/
theorem Cut.spaced {s : List Char} {ts : List Token} (h : Cut s ts) :
  Spaced s ts
  := by
  induction hlength : s.length using Nat.strongRecOn generalizing s ts with
  | _ n ih =>
  subst hlength
  cases h with
  | nil => exact .last (.closed .nil)
  | @skip s text rest ts first later =>
    have hlt := Rule.first?_length_lt first
    obtain ⟨rule, -, hl⟩ := Rule.exists_of_first? first
    obtain rfl : text ++ rest = s := Rule.text_append hl
    obtain hblanks | ⟨inside, rfl, hline, hend⟩ | ⟨inside, rfl, hinside⟩ :=
      Rule.first?_eq_some_skipped first
    · exact (ih _ hlt later rfl).gap (.blanks hblanks)
    · cases rest with
      | nil =>
        obtain rfl := nil_iff.1 later
        rw [List.append_nil]
        exact .last (.lineComment .nil hline)
      | cons c r =>
        -- the comment is closed by the end of its line, which is a blank of the next gap
        obtain rfl := hend c rfl
        have hr : Spaced r ts := by
          apply ih r.length _ ((blank_iff (by decide)).1 later) rfl
          exact Nat.lt_trans (Nat.lt_succ_self _) hlt
        have hgap := hr.gap (.lineComment hline .nil)
        simpa using hgap
    · have hgap := (ih _ hlt later rfl).gap (.blockComment hinside .nil)
      simpa using hgap
  | @token s rest t ts first later =>
    have hlt := Rule.first?_length_lt first
    obtain ⟨rule, -, hl⟩ := Rule.exists_of_first? first
    obtain rfl : t.text.toList ++ rest = s := Rule.text_append hl
    exact .token .nil (ih _ hlt later rfl)

/-- A text consists of its tokens, in order, with gaps around them.  Where reading gets
stuck, this is so of the text in front of the offending character, whose tokens are those
that were read before. -/
theorem tokenize_spaced (source : String) :
  (∀ ts, tokenize source = .ok ts → Spaced source.toList ts)
    ∧ ∀ e, tokenize source = .error e →
      e.offset < source.length ∧ source.toList[e.offset]? = some e.char
        ∧ ∃ ts, (Scanner.ofList source.toList).remainder.tokens = ts
          ∧ tokenize (String.ofList (source.toList.take e.offset)) = .ok ts
          ∧ Spaced (source.toList.take e.offset) ts
  := by
  constructor
  · exact fun ts h => (tokenize_eq_ok_iff.1 h).spaced
  · intro e h
    obtain ⟨ls, hls, htokens⟩ := (Scanner.ofList source.toList).lexed_remainder
    obtain ⟨⟨r, hrest⟩, hoffset, -⟩ := Scanner.rest_of_remainder_stuck (tokenize_eq_error_iff.1 h)
    have hplace := (Scanner.ofList source.toList).remainder_offset
    rw [hoffset] at hplace
    rw [hrest] at hls hplace
    have htext : ls.flatMap Lexeme.text ++ e.char :: r = source.toList := hls.texts_append
    have hlength : (ls.flatMap Lexeme.text).length = e.offset := by
      have := congrArg List.length htext
      simp only [Scanner.ofList, List.length_append, List.length_cons] at this hplace
      omega
    have hfront : source.toList.take e.offset = ls.flatMap Lexeme.text := by
      rw [← htext, ← hlength, List.take_left]
    have hcut := hls.front.cut
    rw [htokens] at hcut
    refine ⟨?_, ?_, _, rfl, ?_, ?_⟩
    · rw [← String.length_toList, ← htext, List.length_append, hlength, List.length_cons]
      omega
    · rw [← htext, ← hlength, List.getElem?_append_right (Nat.le_refl _), Nat.sub_self]
      rfl
    · rw [hfront, tokenize_eq_ok_iff, String.toList_ofList]
      exact hcut
    · rw [hfront]
      exact hcut.spaced

/-- A text with comments between its tokens, a text that is stuck behind one that is not closed, and
one that ends with such a comment, whose signs are operators. -/
theorem tokenize_spaced_samples :
  (tokenize "/*a*/x//b\n;" = .ok [.identifier "x", .delimiter .semicolon]
      ∧ Spaced "/*a*/x//b\n;".toList [.identifier "x", .delimiter .semicolon])
    ∧ tokenize "x /*@" = .error ⟨'@', 4⟩
      ∧ tokenize "x /*"
        = .ok [.identifier "x", .operator (.binary .div), .operator (.binary .mul)]
      ∧ Spaced "x /*".toList
        [.identifier "x", .operator (.binary .div), .operator (.binary .mul)]
  := by
  have hwhole : tokenize "/*a*/x//b\n;" = .ok [.identifier "x", .delimiter .semicolon] :=
    tokenize_eq_ok_iff.2 (.skip rfl (.token rfl (.skip rfl (.skip rfl (.token rfl .nil)))))
  have hread : (Scanner.ofList "x /*@".toList).remainder
      = ⟨[.identifier "x", .operator (.binary .div), .operator (.binary .mul)], some ⟨'@', 4⟩,
        ⟨['@'], 4⟩⟩ := by
    with_unfolding_all rfl
  have hstuck : tokenize "x /*@" = .error ⟨'@', 4⟩ := by rw [tokenize_eq_error_iff, hread]
  obtain ⟨-, -, ts, hts, hfront, hspaced⟩ := (tokenize_spaced "x /*@").2 _ hstuck
  rw [hread] at hts
  subst hts
  exact ⟨⟨hwhole, (tokenize_spaced _).1 _ hwhole⟩, hstuck, hfront, hspaced⟩

/-! ### Tokens with other gaps between them -/

/-- The texts of some tokens, with a separator behind each of them. -/
def Token.separated (ts : List Token) (seps : List String) : String :=
  String.join (List.zipWith (fun t sep => t.text ++ sep) ts seps)

theorem Token.separated_cons (t : Token) (ts : List Token) (sep : String) (seps : List String) :
  (separated (t :: ts) (sep :: seps)).toList
    = t.text.toList ++ (sep.toList ++ (separated ts seps).toList)
  := by simp [separated, String.toList_join]

namespace Cut

variable {t : Token} {ts : List Token} {s : List Char} {sep : String}

/-- A token may end a text. -/
theorem last (hvalid : t.Valid) :
  Cut t.text.toList [t]
  := by
  have happart : t.Apart [] := by
    cases t with
    | operator o => exact nofun
    | delimiter _ | string _ _ => trivial
    | _ => exact endsWord_nil
  have htext := text hvalid happart nil
  rwa [List.append_nil] at htext

/-- A separator ends a token, whatever the token is. -/
theorem separator (hvalid : t.Valid) (hsep : Separator sep) (h : Cut s ts) :
  Cut (t.text.toList ++ (sep.toList ++ s)) (t :: ts)
  := by
  obtain ⟨c, hc, hblank⟩ := hsep.blank
  obtain ⟨g, hg⟩ := List.head?_eq_some_iff.1 hc
  have hgap := hsep.gap
  rw [hg] at hgap ⊢
  exact text hvalid (t.apart_blank hblank _) (gap hgap h)

/-- Valid tokens are read from their texts with separators between them. -/
theorem separated {seps : List String} (hvalid : ∀ t ∈ ts, t.Valid)
    (hlength : seps.length = ts.length) (hsep : ∀ sep ∈ seps.dropLast, Separator sep)
    (hlast : ∀ sep ∈ seps.getLast?, sep = "" ∨ Separator sep) :
  Cut (Token.separated ts seps).toList ts
  := by
  induction ts generalizing seps with
  | nil => exact nil
  | cons t ts ih =>
    obtain ⟨ht, hts⟩ := List.forall_mem_cons.1 hvalid
    obtain _ | ⟨sep, seps⟩ := seps
    · simp at hlength
    · rw [List.length_cons, List.length_cons, Nat.succ.injEq] at hlength
      rw [Token.separated_cons]
      cases seps with
      | nil =>
        obtain rfl := List.length_eq_zero_iff.1 hlength.symm
        obtain rfl | hsep := hlast sep rfl
        · simpa [Token.separated, String.toList_join] using last ht
        · exact separator ht hsep nil
      | cons sep' seps =>
        rw [List.dropLast_cons_cons, List.forall_mem_cons] at hsep
        rw [List.getLast?_cons_cons] at hlast
        exact separator ht hsep.1 (ih hts hlength hsep.2 hlast)

/-- Valid tokens are read from their texts with single spaces between them. -/
theorem spaces (hvalid : ∀ t ∈ ts, t.Valid) :
  Cut (" ".intercalate (ts.map Token.text)).toList ts
  := by
  induction ts with
  | nil => exact nil
  | cons t ts ih =>
    obtain ⟨ht, hts⟩ := List.forall_mem_cons.1 hvalid
    cases ts with
    | nil => exact last ht
    | cons t' ts =>
      have hsep : Separator " " := ⟨.blank (by decide) .nil, ' ', rfl, by decide⟩
      rw [List.map_cons, List.map_cons, String.intercalate_cons_cons, String.toList_append,
        String.toList_append, List.append_assoc]
      exact separator ht hsep (ih hts)

end Cut

/-- Tokens that were read from some text are read again from their texts with any separators
between them, such as single spaces. -/
theorem tokenize_separated {source : String} {ts : List Token} (h : tokenize source = .ok ts) :
  (∀ seps : List String, seps.length = ts.length → (∀ sep ∈ seps.dropLast, Separator sep) →
      (∀ sep ∈ seps.getLast?, sep = "" ∨ Separator sep) →
      tokenize (Token.separated ts seps) = .ok ts)
    ∧ tokenize (" ".intercalate (ts.map Token.text)) = .ok ts
  := by
  have hvalid := (tokenize_eq_ok_iff.1 h).valid
  constructor
  · intro seps hlength hsep hlast
    exact tokenize_eq_ok_iff.2 (Cut.separated hvalid hlength hsep hlast)
  · exact tokenize_eq_ok_iff.2 (Cut.spaces hvalid)

/-- Tokens that follow one another, with the fewest separators and with others. -/
theorem tokenize_separated_samples :
  tokenize "1abc//x\n/*" = .ok [.number "1", .identifier "abc", .operator (.binary .div),
      .operator (.binary .mul)]
    ∧ tokenize "1 /*2*/abc\t//x\n/\n*" = .ok [.number "1", .identifier "abc",
      .operator (.binary .div), .operator (.binary .mul)]
    ∧ tokenize "1 abc / *" = .ok [.number "1", .identifier "abc", .operator (.binary .div),
      .operator (.binary .mul)]
  := by
  have hread : tokenize "1abc//x\n/*" = .ok [.number "1", .identifier "abc",
      .operator (.binary .div), .operator (.binary .mul)] :=
    tokenize_eq_ok_iff.2
      (.token rfl (.token rfl (.skip rfl (.skip rfl (.token rfl (.token rfl .nil))))))
  obtain ⟨hseps, hspaces⟩ := tokenize_separated hread
  have hcomment : Separator " /*2*/" :=
    ⟨.blank (by decide) (@Gap.blockComment ['2'] _ (by decide) .nil), ' ', rfl, by decide⟩
  have hline : Separator "\t//x\n" :=
    ⟨.blank (by decide) (@Gap.lineComment ['x'] _ (by decide) .nil), '\t', rfl, by decide⟩
  have hnewline : Separator "\n" := ⟨.blank (by decide) .nil, '\n', rfl, by decide⟩
  refine ⟨hread, hseps [" /*2*/", "\t//x\n", "\n", ""] rfl ?_ ?_, hspaces⟩
  · intro sep h
    simp only [List.dropLast_cons_cons, List.dropLast_singleton, List.mem_cons,
      List.not_mem_nil, or_false] at h
    obtain rfl | rfl | rfl := h
    · exact hcomment
    · exact hline
    · exact hnewline
  · rintro sep ⟨⟩
    exact .inl rfl

end Letter
