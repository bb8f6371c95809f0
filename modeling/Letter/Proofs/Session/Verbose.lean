import Letter.Proofs.Session.History
import Letter.Proofs.Text.Quoted

/-!
# What verbose mode adds

Two dialogues that differ in their mode hear the same entries and stay in different modes.  To
an entry the one in verbose mode prints what the one in quiet mode prints, behind at most one
line of tokens.

Verbose mode reads all tokens of an entry before it reads a program.  So there is one kind of
entry to which the answers differ: one with a character at which no rule applies, where reading
a program ends in front of the character for another reason.  Verbose mode tells of the
character, and quiet mode of the other reason.

Main statement: `Session.verbose_adds_tokens`.
-/

namespace Letter

open Event

/-- What is printed is another text, behind at most one line of tokens. -/
def AddsTokens (quiet verbose : String) : Prop :=
  verbose = quiet
    ∨ ∃ tokens : String, '\n' ∉ tokens.toList
      ∧ verbose = "[tokens] >>> " ++ tokens ++ "\n" ++ quiet

/-- A text with another beginning than that of a line of tokens has none added. -/
theorem AddsTokens.eq {quiet verbose : String} (h : AddsTokens quiet verbose)
    (hfirst : verbose.toList[1]? ≠ some 't') :
  verbose = quiet
  := by
  obtain hsame | ⟨tokens, -, rfl⟩ := h
  · exact hsame
  · simp at hfirst

/-- Reading a program ends in front of a character at which no rule applies, and for another
reason. -/
def RefusedEarlier (source : String) : Prop :=
  ∃ e e', tokenize source = .error e ∧ parse source = .error e' ∧ e' ≠ .stuck e

/-- A text whose tokens are not all read holds no program, and if nothing else is wrong in
front of it, what is wrong is the character at which reading gets stuck. -/
theorem parse_of_stuck {source : String} {e : Stuck} (h : tokenize source = .error e)
    (hearlier : ¬ RefusedEarlier source) :
  parse source = .error (.stuck e)
  := by
  cases hparse : parse source with
  | ok p =>
    obtain ⟨ts, hcut, -⟩ := parse_eq_ok_iff.1 hparse
    rw [h] at hcut
    cases hcut
  | error e' =>
    by_contra hother
    exact hearlier ⟨e, e', h, hparse, fun he => hother (congrArg _ he)⟩

/-! ### Messages that tell the errors apart -/

/-- A text ends as its last part does, if that is not empty. -/
theorem getLast?_toList_append {s t : String} {c : Char} (h : t.toList.getLast? = some c) :
  (s ++ t).toList.getLast? = some c
  := by rw [String.toList_append, List.getLast?_append, h, Option.some_or]

/-- The message about a character at which no rule applies ends in a digit. -/
theorem Stuck.exists_getLast?_message (e : Stuck) :
  ∃ c, e.message.toList.getLast? = some c ∧ c.isDigit = true
  := by
  have hoffset : (toString (e.offset : Int)).toList = Nat.toDigits 10 e.offset := by
    rw [← Nat.toList_repr, ← Nat.toString_eq_repr]
    exact rfl
  obtain hnil | ⟨init, c, hdigits⟩ := List.eq_nil_or_concat (Nat.toDigits 10 e.offset)
  · exact absurd hnil Nat.toDigits_ne_nil
  · have hlast : (toString (e.offset : Int)).toList.getLast? = some c := by
      rw [hoffset, hdigits, List.concat_eq_append, List.getLast?_concat]
    have hc : c ∈ Nat.toDigits 10 e.offset := by simp [hdigits]
    exact ⟨c, getLast?_toList_append hlast,
      Nat.isDigit_of_mem_toDigits (by decide) (by decide) hc⟩

/-- Other messages of the grammar end in a letter or a quote. -/
theorem SyntaxError.exists_getLast?_message {e : SyntaxError} (hstuck : ∀ s, e ≠ .stuck s)
    (hlong : ∀ n, e ≠ .numeralTooLong n) :
  ∃ c, e.message.toList.getLast? = some c ∧ c.isDigit = false
  := by
  cases e with
  | stuck s => exact absurd rfl (hstuck s)
  | numeralTooLong n => exact absurd rfl (hlong n)
  | missingToken => exact ⟨'"', getLast?_toList_append rfl, by decide⟩
  | unexpectedToken => exact ⟨'"', getLast?_toList_append rfl, by decide⟩
  | unexpectedOperand => exact ⟨'"', getLast?_toList_append rfl, by decide⟩
  | missingOperand => exact ⟨'n', by decide, by decide⟩
  | invalidTarget => exact ⟨'n', by decide, by decide⟩
  | notLiteral => exact ⟨'n', by decide, by decide⟩

/-- An entry that is rejected is answered by one line. -/
theorem printed_rejection (source message : String) :
  printed (Session.rejection source message) = "[error] >>> " ++ message ++ "\n"
  := by simp [printed, Session.rejection]

/-- What is told of an error tells apart a character at which no rule applies from what is wrong
in front of it. -/
theorem printed_complaint_ne {source : String} {e : Stuck} {e' : SyntaxError}
    (htokens : tokenize source = .error e) (hparse : parse source = .error e')
    (hother : e' ≠ .stuck e) :
  printed (Session.complaint source e') ≠ "[error] >>> " ++ e.message ++ "\n"
  := by
  intro hsame
  by_cases hlong : ∃ n, e' = .numeralTooLong n
  · obtain ⟨n, rfl⟩ := hlong
    have hblank := congrArg (fun text => text.toList[11]?) hsame
    simp [printed, Session.complaint, Session.failure] at hblank
  · have hstuck : ∀ s, e' ≠ .stuck s := by
      rintro s rfl
      obtain ⟨g, hread⟩ := Parse.exists_source_of_error .empty hparse
      have hs := tokenize_eq_error_iff.2 (Parse.stuck?_of_source hread)
      rw [htokens] at hs
      cases hs
      exact hother rfl
    have hlong : ∀ n, e' ≠ .numeralTooLong n := fun n hn => hlong ⟨n, hn⟩
    have hcomplaint : Session.complaint source e' = Session.rejection source e'.message := by
      cases e' with
      | numeralTooLong n => exact absurd rfl (hlong n)
      | _ => rfl
    have hmessage : e'.message = e.message := by
      rw [hcomplaint, printed_rejection] at hsame
      apply String.toList_injective
      have hlist := congrArg String.toList hsame
      simp only [String.toList_append] at hlist
      exact List.append_cancel_left (List.append_cancel_right hlist)
    obtain ⟨c, hc, hletter⟩ := SyntaxError.exists_getLast?_message hstuck hlong
    obtain ⟨d, hd, hdigit⟩ := e.exists_getLast?_message
    rw [hmessage, hd] at hc
    cases hc
    rw [hdigit] at hletter
    cases hletter

namespace Session

variable {s s' : Session} {source : String}

/-! ### What is printed depends on the format only -/

theorem showProgram_fst (hformat : s.format = s'.format) (p : Program) :
  (s.showProgram p).1 = (s'.showProgram p).1
  := by
  by_cases hsource : s'.format = Format.source.name
  · rw [showProgram_of_source (hformat.trans hsource), showProgram_of_source hsource]
  · rw [showProgram, showProgram, hformat, if_neg hsource, if_neg hsource]

/-- Where reading begins, and what the buffer holds, have no part in the answer. -/
theorem answerProgram_fst (hformat : s.format = s'.format) (source : String) :
  (s.answerProgram source).1 = (s'.answerProgram source).1
  := by
  cases hparse : parse source with
  | ok p =>
    obtain ⟨front, hread⟩ := Parse.exists_source_of_ok s.front hparse
    obtain ⟨front', hread'⟩ := Parse.exists_source_of_ok s'.front hparse
    have hshown := @showProgram_fst { s with front } { s' with front := front' } hformat p
    rw [answerProgram, answerProgram, hread, hread']
    exact congrArg (readingLog source (.ok p) ++ ·) hshown
  | error e => rw [answerProgram_of_parse_error hparse, answerProgram_of_parse_error hparse]

/-! ### Answers in verbose mode -/

/-- The line of the tokens of an entry. -/
def tokenLine (ts : List Token) : Event :=
  .printLine ("[tokens] >>> " ++ bracketed (ts.map Token.shown))

theorem respond_eq_of_verbose (hverbose : s.verbose = true) (hsource : AsksProgram source) :
  s.respond source = match tokenize source with
    | .ok ts =>
      let (events, s) := s.answerProgram source
      (.log (.scanning source) :: tokenLine ts :: events, s)
    | .error e => (.log (.scanning source) :: rejection source e.message, s)
  := by
  rw [respond, if_neg, if_neg hsource.noCommand, if_pos hverbose]
  · rfl
  · simp [hsource.nonempty, hsource.code]

/-- With details the tokens of an entry are shown before its answer, or the error instead of both.
-/
theorem respond_of_verbose (hverbose : s.verbose = true) (hsource : AsksProgram source) :
  (∀ ts, tokenize source = .ok ts → (s.respond source).1
      = .log (.scanning source) :: tokenLine ts :: (s.answerProgram source).1)
    ∧ ∀ e, tokenize source = .error e →
      (s.respond source).1 = .log (.scanning source) :: rejection source e.message
  := by
  rw [respond_eq_of_verbose hverbose hsource]
  constructor
  · intro ts h
    rw [h]
  · intro e h
    rw [h]

/-- What is no program to be read has the same answer in both modes. -/
theorem respond_of_skipped (h : source.toList = [] ∨ source.toList.take 2 = ['/', '/']) :
  s.respond source = ([], s)
  := by
  rw [respond, if_pos]
  simpa using h

/-- A text whose lower-case form begins with a letter is neither empty nor a comment. -/
theorem not_skipped_of_command (h : lowercase source.toList = "verbose-mode".toList) :
  ¬ (source.toList = [] ∨ source.toList.take 2 = ['/', '/'])
  := by
  rintro (hempty | hcomment)
  · rw [hempty] at h
    cases h
  · obtain ⟨later, hsource⟩ : ∃ later, source.toList = '/' :: later := by
      cases hlist : source.toList with
      | nil => simp [hlist] at hcomment
      | cons c later =>
        simp only [hlist, List.take_succ_cons, List.cons.injEq] at hcomment
        exact ⟨later, by rw [hcomment.1]⟩
    rw [hsource, lowercase, lowercaseFrom] at h
    have hfirst : lowercaseChar [] '/' later = ['/'] := rfl
    rw [hfirst] at h
    simp at h

/-- The command tells which mode begins. -/
theorem respond_of_command (h : lowercase source.toList = "verbose-mode".toList) :
  s.respond source = ([.printLine ("[mode] >>> Verbose mode "
    ++ (if s.verbose then "OFF" else "ON"))], { s with verbose := !s.verbose })
  := by
  rw [respond, if_neg, if_pos h]
  simpa using not_skipped_of_command h

/-- To an entry that is no command, the dialogue in verbose mode prints what the one in quiet
mode prints, behind at most one line of tokens, unless something else is wrong in front of a
character at which no rule applies. -/
theorem addsTokens_respond (hformat : s.format = s'.format) (hverbose : s.verbose = true)
    (hquiet : s'.verbose = false) (hcommand : lowercase source.toList ≠ "verbose-mode".toList)
    (hearlier : AsksProgram source → ¬ RefusedEarlier source) :
  AddsTokens (printed (s'.respond source).1) (printed (s.respond source).1)
  := by
  by_cases hskipped : source.toList = [] ∨ source.toList.take 2 = ['/', '/']
  · rw [respond_of_skipped hskipped, respond_of_skipped hskipped]
    exact .inl rfl
  · obtain ⟨hnonempty, hcode⟩ := not_or.1 hskipped
    have hsource : AsksProgram source := ⟨hnonempty, hcode, hcommand⟩
    obtain ⟨hcut, hstuck⟩ := respond_of_verbose hverbose hsource
    rw [respond_of_quiet hquiet hsource]
    cases htokens : tokenize source with
    | ok ts =>
      refine .inr ⟨bracketed (ts.map Token.shown), newline_notMem_bracketed ts, ?_⟩
      rw [hcut ts htokens, answerProgram_fst hformat, printed, printed, output_log, tokenLine,
        output_printLine, String.empty_append]
    | error e =>
      have hparse := parse_of_stuck htokens (hearlier hsource)
      rw [hstuck e htokens, answerProgram_of_parse_error hparse]
      exact .inl rfl

/-- Where something else is wrong in front of a character at which no rule applies, verbose mode
tells of the character, and quiet mode of what is wrong in front of it. -/
theorem respond_of_refusedEarlier (hverbose : s.verbose = true) (hquiet : s'.verbose = false)
    (hsource : AsksProgram source) {e : Stuck} {e' : SyntaxError}
    (htokens : tokenize source = .error e) (hparse : parse source = .error e') :
  printed (s.respond source).1 = "[error] >>> " ++ e.message ++ "\n"
    ∧ printed (s'.respond source).1 = printed (complaint source e')
  := by
  constructor
  · rw [(respond_of_verbose hverbose hsource).2 e htokens, printed, printed_rejection,
      output_log, String.empty_append]
  · rw [respond_of_quiet hquiet hsource, answerProgram_of_parse_error hparse, printed_append,
      readingLog]
    simp [printed]

/-- Where the grammar refuses an entry earlier than the tokens do, details change the error. -/
theorem not_addsTokens_of_refusedEarlier (hverbose : s.verbose = true)
    (hquiet : s'.verbose = false) (hsource : AsksProgram source) (h : RefusedEarlier source) :
  ¬ AddsTokens (printed (s'.respond source).1) (printed (s.respond source).1)
  := by
  intro hadds
  obtain ⟨e, e', htokens, hparse, hother⟩ := h
  obtain ⟨hprinted, hprinted'⟩ :=
    respond_of_refusedEarlier hverbose hquiet hsource htokens hparse
  rw [hprinted, hprinted'] at hadds
  exact printed_complaint_ne htokens hparse hother (hadds.eq (by simp)).symm

/-- The command for details is answered otherwise where they are shown already. -/
theorem not_addsTokens_of_command (hverbose : s.verbose = true) (hquiet : s'.verbose = false)
    (h : lowercase source.toList = "verbose-mode".toList) :
  ¬ AddsTokens (printed (s'.respond source).1) (printed (s.respond source).1)
  := by
  intro hadds
  rw [respond_of_command h, respond_of_command h, hverbose, hquiet] at hadds
  have hadds : AddsTokens "[mode] >>> Verbose mode ON\n" "[mode] >>> Verbose mode OFF\n" :=
    hadds
  have hsame := hadds.eq (by decide)
  revert hsame
  decide

/-- To which entries the dialogue in verbose mode prints what the one in quiet mode prints,
behind at most one line of tokens. -/
theorem addsTokens_respond_iff (hformat : s.format = s'.format) (hverbose : s.verbose = true)
    (hquiet : s'.verbose = false) :
  AddsTokens (printed (s'.respond source).1) (printed (s.respond source).1)
    ↔ lowercase source.toList ≠ "verbose-mode".toList
      ∧ (AsksProgram source → ¬ RefusedEarlier source)
  := by
  constructor
  · intro hadds
    exact ⟨fun h => not_addsTokens_of_command hverbose hquiet h hadds,
      fun hsource h => not_addsTokens_of_refusedEarlier hverbose hquiet hsource h hadds⟩
  · rintro ⟨hcommand, hearlier⟩
    exact addsTokens_respond hformat hverbose hquiet hcommand hearlier

/-! ### Dialogues in different modes -/

/-- An answer changes the mode if and only if the entry is the command. -/
theorem verbose_respond (s : Session) (source : String) :
  (s.respond source).2.verbose
    = if lowercase source.toList = "verbose-mode".toList then !s.verbose else s.verbose
  := by
  by_cases hcommand : lowercase source.toList = "verbose-mode".toList
  · rw [respond_of_command hcommand, if_pos hcommand]
  · obtain ⟨_, _, hprogram⟩ := s.exists_answerProgram_snd source
    have hmode : (s.answerProgram source).2.verbose = s.verbose := by rw [hprogram]
    rw [respond, if_neg hcommand, if_neg hcommand]
    split
    · rfl
    · split
      · split
        · exact hmode
        · rfl
      · exact hmode

/-- A line that ends an entry is answered as the entry. -/
theorem hear_of_entry {line : String} (h : s.pending.add line = .entry source) :
  s.hear line = ((respond { s with pending := .empty } source).1,
    some (respond { s with pending := .empty } source).2)
  := by rw [hear, h]

/-- Two dialogues in different modes, alike in their format and in the entry that is being
typed. -/
structure Opposed (s s' : Session) : Prop where
  verbose : s.verbose = !s'.verbose
  format : s.format = s'.format
  pending : s.pending = s'.pending

namespace Opposed

/-- A line leaves dialogues in different modes. -/
theorem hear (h : s.Opposed s') {line : String} {answer answer' : List Event} {t t' : Session}
    (ht : s.hear line = (answer, some t)) (ht' : s'.hear line = (answer', some t')) :
  t.Opposed t'
  := by
  have hadd' := congrArg (Pending.add · line) h.pending
  cases hadd : s.pending.add line with
  | more pending =>
    rw [Session.hear, hadd] at ht
    rw [Session.hear, ← hadd', hadd] at ht'
    cases ht
    cases ht'
    exact ⟨h.verbose, h.format, rfl⟩
  | leave =>
    rw [Session.hear, hadd] at ht
    cases ht
  | entry source =>
    rw [hear_of_entry hadd] at ht
    rw [hear_of_entry (hadd'.symm.trans hadd)] at ht'
    have hmode := verbose_respond { s with pending := .empty } source
    have hmode' := verbose_respond { s' with pending := .empty } source
    obtain ⟨_, _, _, hnext⟩ := exists_respond_snd { s with pending := .empty } source
    obtain ⟨_, _, _, hnext'⟩ := exists_respond_snd { s' with pending := .empty } source
    rw [Option.some.inj (Prod.mk.inj ht).2] at hmode hnext
    rw [Option.some.inj (Prod.mk.inj ht').2] at hmode' hnext'
    refine ⟨?_, ?_, ?_⟩
    · rw [hmode, hmode', h.verbose]
      split
      · rfl
      · rfl
    · rw [hnext, hnext']
      exact h.format
    · rw [hnext, hnext']

/-- Dialogues in different modes that hear the same lines stay in different modes. -/
theorem hears (h : s.Opposed s') {lines : List String} {told told' : List Event}
    {s₁ s₁' : Session} (hs : s.Hears lines told s₁) (hs' : s'.Hears lines told' s₁') :
  s₁.Opposed s₁'
  := by
  induction hs generalizing s' told' with
  | nil =>
    cases hs'
    exact h
  | cons first later ih =>
    cases hs' with
    | cons first' later' => exact ih (h.hear first first') later'

end Opposed

/-- Two dialogues in different modes stay so, whatever they both hear.  To an entry the one in
verbose mode prints what the one in quiet mode prints, behind at most one line of tokens, but
for two kinds of entries.  Where something else is wrong in front of a character at which no
rule applies, the one tells of the character and the other of what is wrong in front of it.
The command is answered by the mode that it begins. -/
theorem verbose_adds_tokens (h : s.Opposed s') :
  (∀ heard told told' s₁ s₁', s.Hears heard told s₁ → s'.Hears heard told' s₁' →
      s₁.Opposed s₁')
    ∧ (s.verbose = true → ∀ source,
      (AddsTokens (printed (s'.respond source).1) (printed (s.respond source).1)
          ↔ lowercase source.toList ≠ "verbose-mode".toList
            ∧ (AsksProgram source → ¬ RefusedEarlier source))
        ∧ (AsksProgram source → ∀ e e', tokenize source = .error e →
          parse source = .error e' →
          printed (s.respond source).1 = "[error] >>> " ++ e.message ++ "\n"
            ∧ printed (s'.respond source).1 = printed (complaint source e'))
        ∧ (lowercase source.toList = "verbose-mode".toList →
          printed (s.respond source).1 = "[mode] >>> Verbose mode OFF\n"
            ∧ printed (s'.respond source).1 = "[mode] >>> Verbose mode ON\n"))
  := by
  refine ⟨fun heard told told' s₁ s₁' => h.hears, fun hverbose source => ?_⟩
  have hquiet : s'.verbose = false := by simpa [hverbose] using h.verbose
  refine ⟨addsTokens_respond_iff h.format hverbose hquiet, ?_, ?_⟩
  · intro hsource e e' htokens hparse
    exact respond_of_refusedEarlier hverbose hquiet hsource htokens hparse
  · intro hcommand
    rw [respond_of_command hcommand, respond_of_command hcommand, hverbose, hquiet]
    exact ⟨rfl, rfl⟩

/-- A dialogue in verbose mode that shows source text. -/
def verboseSession : Session := { sourceSession with verbose := true }

theorem opposed_verboseSession :
  verboseSession.Opposed sourceSession
  := ⟨rfl, rfl, rfl⟩

theorem tokenize_refusedSource :
  tokenize ") @" = .error ⟨'@', 2⟩
  := by with_unfolding_all rfl

theorem parse_refusedSource :
  parse ") @" = .error (.unexpectedOperand (.delimiter .rightParen))
  := by cbv

theorem asksProgram_refusedSource :
  AsksProgram ") @"
  := ⟨by decide, by decide, by decide⟩

/-- A program whose tokens are shown, and an entry that is refused for two reasons. -/
theorem verbose_adds_tokens_samples :
  verboseSession.Opposed sourceSession ∧ verboseSession.verbose = true
    ∧ AddsTokens (printed (sourceSession.respond sampleSource).1)
      (printed (verboseSession.respond sampleSource).1)
    ∧ printed (verboseSession.respond ") @").1
      = "[error] >>> Unexpected token: \"@\" at offset 2\n"
    ∧ printed (sourceSession.respond ") @").1
      = "[error] >>> Unexpected primary expression: \")\"\n"
    ∧ printed (verboseSession.respond "Verbose-Mode").1 = "[mode] >>> Verbose mode OFF\n"
    ∧ printed (sourceSession.respond "Verbose-Mode").1 = "[mode] >>> Verbose mode ON\n"
  := by
  obtain ⟨-, hanswers⟩ := verbose_adds_tokens opposed_verboseSession
  obtain ⟨hadds, -, -⟩ := hanswers rfl sampleSource
  obtain ⟨-, hrefused, -⟩ := hanswers rfl ") @"
  obtain ⟨-, -, hcommand⟩ := hanswers rfl "Verbose-Mode"
  have hearlier : ¬ RefusedEarlier sampleSource := by
    rintro ⟨e, e', htokens, -⟩
    rw [tokenize_sampleSource] at htokens
    cases htokens
  obtain ⟨hverbose, hquiet⟩ := hrefused asksProgram_refusedSource _ _ tokenize_refusedSource
    parse_refusedSource
  exact ⟨opposed_verboseSession, rfl, hadds.2 ⟨by decide, fun _ => hearlier⟩,
    by rw [hverbose]; decide, by rw [hquiet]; decide, hcommand (by decide)⟩

/-- Verbose mode does not only add tokens: it may tell of another error. -/
theorem not_forall_addsTokens :
  ¬ ∀ (s s' : Session) (source : String), s.Opposed s' → s.verbose = true →
    AddsTokens (printed (s'.respond source).1) (printed (s.respond source).1)
  := by
  intro h
  have hearlier : RefusedEarlier ") @" :=
    ⟨_, _, tokenize_refusedSource, parse_refusedSource, nofun⟩
  have hadds := h verboseSession sourceSession ") @" opposed_verboseSession rfl
  exact not_addsTokens_of_refusedEarlier rfl rfl asksProgram_refusedSource hearlier hadds

end Session

end Letter
