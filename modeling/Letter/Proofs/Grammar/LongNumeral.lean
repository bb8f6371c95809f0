import Letter.Proofs.Grammar.Earliest

/-!
# Numerals that are not read

A text is read as a program or it is refused by the grammar, with one exception: a numeral may
have more digits than are read.  Such a numeral stands behind tokens that are the beginning of
some program, so the grammar has nothing to say against the text up to there.  What has been
read before has no part in it.

Main statement: `source_program_or_refused`.
-/

namespace Letter

/-- Whether an error is one of the grammar; the other kind is that of a numeral with more digits
than are read. -/
def SyntaxError.OfGrammar : SyntaxError → Prop
  | numeralTooLong _ => False
  | _ => True

/-- Behind tokens that are the beginning of some program stands a numeral with more digits than
are read. -/
def MeetsLongNumeral (source digits : String) : Prop :=
  maxDigits < digits.length
    ∧ ∃ taken later, Begins (Forms .program) taken
      ∧ (Scanner.ofList source.toList).remainder.tokens = taken ++ .number digits :: later

/-- Only a numeral that is too long makes an error that is none of the grammar. -/
theorem SyntaxError.ofGrammar_or (e : SyntaxError) :
  e.OfGrammar ∨ ∃ n, e = .numeralTooLong n
  := by
  cases e with
  | numeralTooLong n => exact .inr ⟨n, rfl⟩
  | _ => exact .inl trivial

namespace Parse

variable {front f g : Front} {digits : String}

/-- A numeral is refused as too long only where the grammar has come to it. -/
theorem exists_meetsLongNumeral {source : String} {n : Nat}
    (h : Parse.source source.toList front = .error (.numeralTooLong n) g) :
  ∃ digits, digits.length = n ∧ MeetsLongNumeral source digits
  := by
  obtain hload | ⟨_, f, hload, hprogram⟩ := bind_eq_error.1 h
  · obtain ⟨_, ⟨⟩⟩ := advance_eq_error hload
  · obtain ⟨taken, f₁, hreach, hfault, hbegins⟩ := keepsTo_program f _ _ hprogram
    cases hfault with
    | told he => exact absurd he id
    | refused view he _ =>
      obtain ⟨digits, rfl, rfl, hlong⟩ := he
      have hahead : (Scanner.ofList source.toList).remainder.tokens = taken ++ f₁.ahead :=
        (Front.ahead_of_advance hload).symm.trans hreach.ahead_eq
      rw [Front.ahead, view] at hahead
      exact ⟨digits, rfl, hlong, taken, _, hbegins, hahead⟩

/-! ### A long numeral at the beginning of a text -/

/-- A numeral of too many digits is refused once it has been taken. -/
theorem number_of_long (hview : f.next? = some (.number digits)) (hadv : advance f = .ok () g)
    (hlong : maxDigits < digits.length) :
  number f = .error (.numeralTooLong digits.length) g
  := by
  refine bind_eq_error.2 (.inr ⟨digits, g, take_eq_ok.2 ⟨_, hview, rfl, hadv⟩, ?_⟩)
  rw [if_pos hlong]
  rfl

theorem expression_of_long (hview : f.next? = some (.number digits))
    (hadv : advance f = .ok () g) (hlong : maxDigits < digits.length) :
  expression f = .error (.numeralTooLong digits.length) g
  := by
  have hprimary : primary expression f = .error (.numeralTooLong digits.length) g := by
    rw [primary_of_some _ hview]
    exact number_of_long hview hadv hlong
  rw [expression_eq]
  apply layer_of_primary hprimary _ _ .assignment
  · rw [hview]
    exact nofun
  · rw [hview]
    rfl

/-- A text that begins with a long numeral is refused. -/
theorem source_of_long_numeral {source : String} {ts : List Token}
    (hcut : tokenize source = .ok (.number digits :: ts)) (hlong : maxDigits < digits.length)
    (front : Front) :
  ∃ g, Parse.source source.toList front = .error (.numeralTooLong digits.length) g
  := by
  rw [tokenize_eq_ok_iff] at hcut
  obtain ⟨f, hload, hf⟩ := (exists_load_iff front).2 hcut
  obtain ⟨hview, g, hadv, -⟩ := Front.shows_cons.1 hf
  have hexpression := expression_of_long hview hadv hlong
  have hstatement : statement f = .error (.numeralTooLong digits.length) g := by
    rw [statement_of_mayStart hview rfl]
    exact bind_of_error hexpression _
  refine ⟨g, ?_⟩
  rw [Parse.source, bind_of_ok hload]
  exact bind_of_error (bind_of_error hstatement _) _

end Parse

/-- A text is read as a program or refused by the grammar, unless the grammar comes to a numeral
with more digits than are read.  This does not happen where all numerals have few enough digits,
and it happens to every text that such a numeral begins.  The front at which reading begins has
no part in what a text is read as. -/
theorem source_program_or_refused (source : String) :
  (∀ front, (∃ p g, Parse.source source.toList front = .ok p g)
      ∨ ∃ e g, Parse.source source.toList front = .error e g
        ∧ (e.OfGrammar
          ∨ ∃ digits, e = .numeralTooLong digits.length ∧ MeetsLongNumeral source digits))
    ∧ ((∀ t ∈ (Scanner.ofList source.toList).remainder.tokens, t.Short) →
      ∀ front e g, Parse.source source.toList front = .error e g → e.OfGrammar)
    ∧ (∀ digits ts, tokenize source = .ok (.number digits :: ts) →
      maxDigits < digits.length → ∀ front, ∃ g,
        Parse.source source.toList front = .error (.numeralTooLong digits.length) g)
    ∧ ∀ front front', Parse.outcome (Parse.source source.toList front)
      = Parse.outcome (Parse.source source.toList front')
  := by
  have hkinds {front g : Front} {e : SyntaxError}
      (h : Parse.source source.toList front = .error e g) :
      e.OfGrammar
        ∨ ∃ digits, e = .numeralTooLong digits.length ∧ MeetsLongNumeral source digits := by
    obtain hgrammar | ⟨n, rfl⟩ := e.ofGrammar_or
    · exact .inl hgrammar
    · obtain ⟨digits, rfl, hmeets⟩ := Parse.exists_meetsLongNumeral h
      exact .inr ⟨digits, rfl, hmeets⟩
  refine ⟨?_, ?_, ?_, ?_⟩
  · intro front
    cases hread : Parse.source source.toList front with
    | ok p g => exact .inl ⟨p, g, rfl⟩
    | error e g => exact .inr ⟨e, g, rfl, hkinds hread⟩
  · intro hshort front e g hread
    obtain hgrammar | ⟨digits, -, hlong, taken, later, -, htokens⟩ := hkinds hread
    · exact hgrammar
    · have hle : digits.length ≤ maxDigits := hshort (.number digits) (by simp [htokens])
      omega
  · exact fun digits ts hcut hlong front => Parse.source_of_long_numeral hcut hlong front
  · intro front front'
    rw [Parse.outcome_source, Parse.outcome_source]

/-- A numeral of ones, with a semicolon behind it. -/
def onesSource (n : Nat) : String := String.ofList (List.replicate n '1' ++ [';'])

/-- A text of ones and a semicolon has two tokens, however many ones there are. -/
theorem tokenize_onesSource {n : Nat} (h : n ≠ 0) :
  tokenize (onesSource n)
    = .ok [.number (String.ofList (List.replicate n '1')), .delimiter .semicolon]
  := by
  rw [tokenize_eq_ok_iff, onesSource, String.toList_ofList]
  have hnumber : (Token.number (String.ofList (List.replicate n '1'))).Valid := by
    rw [Token.Valid, String.toList_ofList]
    refine ⟨by simpa using h, fun c hc => ?_⟩
    rw [(List.mem_replicate.1 hc).2]
    decide
  have hsemicolon : Cut [';'] [.delimiter .semicolon] := .token rfl .nil
  have hcut := Cut.text hnumber (endsWord_cons.2 (by decide)) hsemicolon
  rwa [Token.text, String.toList_ofList] at hcut

theorem maxDigits_lt_length :
  maxDigits < (String.ofList (List.replicate (maxDigits + 1) '1')).length
  := by
  rw [String.length_ofList, List.length_replicate]
  exact Nat.lt_succ_self _

/-- A text without long numerals, and one of a digit too many. -/
theorem source_program_or_refused_samples :
  (∀ front e g, Parse.source sampleSource.toList front = .error e g → e.OfGrammar)
    ∧ ∃ g, Parse.source (onesSource (maxDigits + 1)).toList .empty
      = .error (.numeralTooLong (maxDigits + 1)) g
  := by
  have hshort : ∀ t ∈ (Scanner.ofList sampleSource.toList).remainder.tokens, t.Short := by
    rw [((Scanner.cut_iff_remainder _ _).1 (tokenize_eq_ok_iff.1 tokenize_sampleSource)).2]
    exact short_sampleTokens
  obtain ⟨-, hgrammar, -, -⟩ := source_program_or_refused sampleSource
  obtain ⟨-, -, hrefused, -⟩ := source_program_or_refused (onesSource (maxDigits + 1))
  have hlong := hrefused _ _ (tokenize_onesSource (Nat.succ_ne_zero maxDigits))
    maxDigits_lt_length .empty
  rw [String.length_ofList, List.length_replicate] at hlong
  exact ⟨hgrammar hshort, hlong⟩

/-- A numeral of one digit more than are read is refused, and not by the grammar. -/
theorem not_forall_program_or_ofGrammar :
  ¬ ∀ (source : String) (front : Front), (∃ p g, Parse.source source.toList front = .ok p g)
    ∨ ∃ e g, Parse.source source.toList front = .error e g ∧ e.OfGrammar
  := by
  intro h
  obtain ⟨g, hread⟩ := Parse.source_of_long_numeral
    (tokenize_onesSource (Nat.succ_ne_zero maxDigits)) maxDigits_lt_length .empty
  obtain ⟨p, g', hok⟩ | ⟨e, g', herror, hgrammar⟩ := h (onesSource (maxDigits + 1)) .empty
  · rw [hread] at hok
    cases hok
  · rw [hread] at herror
    cases herror
    exact hgrammar

end Letter
