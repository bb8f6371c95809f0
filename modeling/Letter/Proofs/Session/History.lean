import Mathlib
import Letter.Command.Job
import Letter.Proofs.Grammar.Lazy
import Letter.Proofs.Printing.RoundTrip
import Letter.Proofs.Results
import Letter.Proofs.Text.Coding
import Letter.Session.Dialogue

/-!
# Dialogues and their history

Each entry of a dialogue is read from the front at which reading the last one ended, and its
program is shown in the buffer that holds the last one.  Neither has a part in the answer: in
quiet mode an entry is answered as a job is done whose text it is.

A dialogue goes on after every entry, whatever the answer was.  It ends with a farewell, an
interrupt or the end of the input.

Main statement: `Session.answers_agree_with_jobs`.
-/

namespace Letter

/-! ### Programs that have been read are written -/

/-- A format is found by its name. -/
theorem Format.ofName?_name (f : Format) :
  ofName? f.name = some f
  := by cases f <;> decide

/-- A program that has been read is written in every format. -/
theorem Program.exists_render {source : String} {p : Program} (h : parse source = .ok p)
    (f : Format) :
  ∃ output, p.render f.name (.blanks 2) = .ok output
  := by
  rw [render, Format.ofName?_name]
  cases f with
  | json => exact ⟨_, rfl⟩
  | source =>
    obtain ⟨text, hformat, -⟩ := (valid_of_parse h).1.exists_format
    rw [hformat]
    exact ⟨text, rfl⟩

/-! ### Jobs on a text -/

namespace Job

variable {m : Type → Type} [Monad m] [LawfulMonad m]

/-- The job that reads a program from a text, and writes it to the output. -/
def ofText (source : String) (f : Format) : Job where
  source := source
  isText := true
  format := f.name
  out := ""
  indentation := .blanks 2

theorem print_of_ok {job : Job} {output : String} {bytes : List UInt8}
    (h : job.encode output = .ok bytes) :
  job.print output = (.ok output, [.printLine output])
  := by rw [print, h]

/-- Where characters stand for themselves, all output has its bytes. -/
theorem encode_of_plain {job : Job} (h : job.textCoding = .plain) (output : String) :
  job.encode output = .ok (output ++ "\n").toUTF8.toList
  := by
  rw [encode, h, Utf8.encode_plain]
  rfl

/-- A job on a text that is parsed prints the program in the format asked for. -/
theorem run_of_parse_ok (access : FileAccess m) {source output : String} {f : Format}
    {p : Program} (hparse : parse source = .ok p)
    (hrender : p.render f.name (.blanks 2) = .ok output) :
  (ofText source f).run access
    = pure (.ok output, readingLog source (.ok p) ++ [.printLine output])
  := by
  have hprint : (ofText source f).print output = (.ok output, [.printLine output]) :=
    print_of_ok (encode_of_plain rfl output)
  have hprocess : (ofText source f).process source = (.ok output, readingLog source (.ok p)) := by
    rw [process, parseLogged, hparse]
    exact congrArg (fun result => (Except.mapError JobError.notWritten result, _)) hrender
  rw [ofText] at hprint hprocess ⊢
  simp [run, input, deliver, hprint, hprocess]

/-- A job on a text that is not parsed ends with the error. -/
theorem run_of_parse_error (access : FileAccess m) {source : String} {f : Format}
    {e : SyntaxError} (hparse : parse source = .error e) :
  (ofText source f).run access
    = pure (.error (.notProgram e), readingLog source (.error e))
  := by
  simp [run, input, ofText, process, parseLogged, hparse]

end Job

/-! ### Answers to entries -/

/-- Whether an entry is to be read as a program: it is not passed over, and no command. -/
structure AsksProgram (source : String) : Prop where
  nonempty : source.toList ≠ []
  code : source.toList.take 2 ≠ ['/', '/']
  noCommand : lowercase source.toList ≠ "verbose-mode".toList

namespace Session

variable {s : Session} {source : String}

/-- Showing a program keeps all but the buffer. -/
theorem exists_showProgram_snd (s : Session) (p : Program) :
  ∃ buffer, (s.showProgram p).2 = { s with buffer }
  := by
  rw [showProgram]
  split
  · split
    · exact ⟨_, rfl⟩
    · exact ⟨_, rfl⟩
  · exact ⟨s.buffer, rfl⟩

/-- Answering by a program keeps all but the front and the buffer. -/
theorem exists_answerProgram_snd (s : Session) (source : String) :
  ∃ front buffer, (s.answerProgram source).2 = { s with front, buffer }
  := by
  rw [answerProgram]
  split
  · next p front _ =>
    obtain ⟨buffer, hbuffer⟩ := exists_showProgram_snd { s with front } p
    exact ⟨front, buffer, hbuffer⟩
  · next front _ => exact ⟨front, s.buffer, rfl⟩

/-- An answer keeps the format, and the lines that have been typed. -/
theorem exists_respond_snd (s : Session) (source : String) :
  ∃ verbose front buffer, (s.respond source).2 = { s with verbose, front, buffer }
  := by
  obtain ⟨front, buffer, hprogram⟩ := s.exists_answerProgram_snd source
  rw [respond]
  split
  · exact ⟨s.verbose, s.front, s.buffer, rfl⟩
  · split
    · exact ⟨!s.verbose, s.front, s.buffer, rfl⟩
    · split
      · split
        · exact ⟨s.verbose, front, buffer, hprogram⟩
        · exact ⟨s.verbose, s.front, s.buffer, rfl⟩
      · exact ⟨s.verbose, front, buffer, hprogram⟩

/-- A dialogue without details answers an entry by the program that it is. -/
theorem respond_of_quiet (h : s.verbose = false) (hsource : AsksProgram source) :
  s.respond source = s.answerProgram source
  := by
  rw [respond, if_neg, if_neg hsource.noCommand, h, if_neg Bool.false_ne_true]
  simp [hsource.nonempty, hsource.code]

/-- In the format of source texts, the text of a program is shown, or why it has none. -/
theorem showProgram_of_source (hformat : s.format = Format.source.name) (p : Program) :
  (s.showProgram p).1 = match p.format with
    | .ok text => [.printLine text]
    | .error e => failure e.kindName e.message
  := by
  rw [showProgram, if_pos hformat, Program.format, ← s.buffer.emit_fst]
  cases s.buffer.emit p.toTree with
  | mk result buffer => cases result <;> rfl

/-- A program is shown as it is written. -/
theorem showProgram_of_render {f : Format} (hformat : s.format = f.name) {p : Program}
    {output : String} (h : p.render f.name (.blanks 2) = .ok output) :
  (s.showProgram p).1 = [.printLine output]
  := by
  rw [Program.render, Format.ofName?_name] at h
  cases f with
  | json =>
    cases h
    rw [showProgram, hformat, if_neg (by decide)]
    rfl
  | source =>
    rw [showProgram_of_source hformat, mapError_eq_ok.1 h]

/-- A program is answered by what a job on its text tells. -/
theorem answerProgram_of_parse_ok {f : Format} (hformat : s.format = f.name) {p : Program}
    {output : String} (hparse : parse source = .ok p)
    (hrender : p.render f.name (.blanks 2) = .ok output) :
  (s.answerProgram source).1 = readingLog source (.ok p) ++ [.printLine output]
  := by
  obtain ⟨front, hread⟩ := Parse.exists_source_of_ok s.front hparse
  have hshown := @showProgram_of_render { s with front } f hformat p output hrender
  rw [answerProgram, hread, ← hshown]

/-- A text that is no program is answered by what is wrong with it. -/
theorem answerProgram_of_parse_error {e : SyntaxError} (hparse : parse source = .error e) :
  (s.answerProgram source).1 = readingLog source (.error e) ++ complaint source e
  := by
  obtain ⟨front, hread⟩ := Parse.exists_source_of_error s.front hparse
  rw [answerProgram, hread]

/-- An entry is answered, in quiet mode, as a job on its text is done: by what the job tells,
and where the text is no program, by the message of its error. -/
theorem answerProgram_agrees {m : Type → Type} [Monad m] [LawfulMonad m]
    (access : FileAccess m) {f : Format} (hformat : s.format = f.name)
    (hshort : ∀ t ∈ (Scanner.ofList source.toList).remainder.tokens, t.Short) :
  (∃ output, (Job.ofText source f).run access = pure (.ok output, (s.answerProgram source).1))
    ∨ ∃ e told, (Job.ofText source f).run access = pure (.error (.notProgram e), told)
      ∧ (∀ n, e ≠ .numeralTooLong n)
      ∧ (s.answerProgram source).1
        = told ++ [.log (.rejected source), .printLine ("[error] >>> " ++ e.message)]
  := by
  cases hparse : parse source with
  | ok p =>
    obtain ⟨output, hrender⟩ := Program.exists_render hparse f
    refine .inl ⟨output, ?_⟩
    rw [Job.run_of_parse_ok access hparse hrender,
      answerProgram_of_parse_ok hformat hparse hrender]
  | error e =>
    have hlong : ∀ n, e ≠ .numeralTooLong n := by
      rintro n rfl
      obtain ⟨g, hread⟩ := Parse.exists_source_of_error .empty hparse
      obtain ⟨t, ht, hnot⟩ := Parse.exists_long_of_source hread
      exact hnot (hshort t ht)
    refine .inr ⟨e, _, Job.run_of_parse_error access hparse, hlong, ?_⟩
    rw [answerProgram_of_parse_error hparse]
    cases e with
    | numeralTooLong n => exact absurd rfl (hlong n)
    | _ => rfl

end Session

/-! ### Lines that are heard -/

/-- Only a farewell that begins an entry asks to leave. -/
theorem Pending.add_eq_leave_iff {p : Pending} {line : String} :
  p.add line = .leave ↔ isFarewell line = true ∧ p.lines = []
  := by
  by_cases hleave : isFarewell line = true ∧ p.lines = []
  · simp [add, hleave]
  · have hadd : (isFarewell line && p.lines.isEmpty) = false := by simpa using hleave
    rw [add, hadd, if_neg Bool.false_ne_true, iff_false_right hleave]
    dsimp only
    split
    · exact nofun
    · exact nofun

namespace Session

variable {s : Session} {source : String}

/-- A line goes on with an entry, asks to leave, or ends an entry, which is answered. -/
theorem hear_cases (s : Session) (line : String) :
  (∃ pending, s.pending.add line = .more pending
      ∧ s.hear line = ([], some { s with pending }))
    ∨ (s.pending.add line = .leave ∧ s.hear line = (farewell, none))
    ∨ ∃ source verbose front buffer, s.pending.add line = .entry source
      ∧ s.hear line = ((respond { s with pending := .empty } source).1,
        some { s with verbose, front, buffer, pending := .empty })
  := by
  rw [hear]
  cases s.pending.add line with
  | more pending => exact .inl ⟨pending, rfl, rfl⟩
  | leave => exact .inr (.inl ⟨rfl, rfl⟩)
  | entry source =>
    obtain ⟨verbose, front, buffer, hnext⟩ :=
      exists_respond_snd { s with pending := .empty } source
    refine .inr (.inr ⟨source, verbose, front, buffer, rfl, ?_⟩)
    rw [← hnext]

/-- A dialogue goes through lines: what is told, each answer behind what asked for the line,
and the dialogue afterwards. -/
inductive Hears : Session → List String → List Event → Session → Prop where
  | nil {s : Session} : Hears s [] [] s
  | cons {s s' s'' : Session} {line : String} {lines : List String} {answer told : List Event}
      (first : s.hear line = (answer, some s')) (later : Hears s' lines told s'') :
      Hears s (line :: lines) (.print s.pending.prompt :: (answer ++ told)) s''

/-- Whatever is heard, the format stays. -/
theorem Hears.format_eq {s' : Session} {lines : List String} {told : List Event}
    (h : s.Hears lines told s') :
  s'.format = s.format
  := by
  induction h with
  | nil => rfl
  | @cons s _ _ line _ _ _ first _ ih =>
    rw [ih]
    obtain ⟨_, -, hhear⟩ | ⟨-, hhear⟩ | ⟨_, _, _, _, -, hhear⟩ := s.hear_cases line
    all_goals
      rw [hhear] at first
      cases first
    · rfl
    · rfl

/-- What ends a dialogue: the inputs that are left, what is told, and those of the inputs that
are not asked for. -/
inductive Ends (s : Session) : List Input → List Event → List Input → Prop where
  | input : Ends s [] breakOff []
  | interrupt {later : List Input} : Ends s (.interrupt :: later) breakOff later
  | farewell {line : String} {later : List Input} (h : isFarewell line = true)
      (begins : s.pending.lines = []) : Ends s (.line line :: later) farewell later

/-- After a line that does not end it, the dialogue goes on with the later inputs. -/
theorem converse_of_hear {s' : Session} {line : String} {answer : List Event}
    (h : s.hear line = (answer, some s')) (later : List Input) :
  s.converse (.line line :: later)
    = (.print s.pending.prompt :: (answer ++ (s'.converse later).1), (s'.converse later).2)
  := by rw [converse, h]

/-- A dialogue goes through its lines up to the end of the input, an interrupt or a
farewell. -/
theorem exists_hears_of_converse (s : Session) (inputs : List Input) :
  ∃ lines told s' left last unread, s.Hears lines told s' ∧ s'.Ends left last unread
    ∧ inputs = lines.map .line ++ left
    ∧ s.converse inputs = (told ++ .print s'.pending.prompt :: last, unread)
  := by
  induction inputs generalizing s with
  | nil => exact ⟨[], [], s, _, _, _, .nil, .input, rfl, rfl⟩
  | cons input inputs ih =>
    cases input with
    | interrupt => exact ⟨[], [], s, _, _, _, .nil, .interrupt, rfl, rfl⟩
    | line line =>
      have hlater {answer : List Event} {s' : Session} (first : s.hear line = (answer, some s')) :
          ∃ lines told s' left last unread, s.Hears lines told s' ∧ s'.Ends left last unread
            ∧ .line line :: inputs = lines.map .line ++ left
            ∧ s.converse (.line line :: inputs)
              = (told ++ .print s'.pending.prompt :: last, unread) := by
        obtain ⟨lines, told, s'', left, last, unread, hlines, hends, rfl, hconverse⟩ := ih s'
        refine ⟨line :: lines, _, s'', left, last, unread, .cons first hlines, hends, rfl, ?_⟩
        rw [converse_of_hear first, hconverse, List.cons_append, List.append_assoc]
      obtain ⟨_, -, hhear⟩ | ⟨hadd, hhear⟩ | ⟨_, _, _, _, -, hhear⟩ := s.hear_cases line
      · exact hlater hhear
      · obtain ⟨hleave, hempty⟩ := Pending.add_eq_leave_iff.1 hadd
        refine ⟨[], [], s, _, _, _, .nil, .farewell hleave hempty, rfl, ?_⟩
        rw [converse, hhear]
        rfl
      · exact hlater hhear

/-- In quiet mode an entry is answered as a job on its text is done, whatever the dialogue has
heard before: by what the job tells, and where the text is no program, by the message of its
error.  After every entry the dialogue goes on; what ends it is the end of the input, an
interrupt or a farewell. -/
theorem answers_agree_with_jobs {m : Type → Type} [Monad m] [LawfulMonad m]
    (access : FileAccess m) {f : Format} (hformat : s.format = f.name) :
  (∀ heard told s₁, s.Hears heard told s₁ → s₁.verbose = false →
      ∀ line source, s₁.pending.add line = .entry source → AsksProgram source →
      (∀ t ∈ (Scanner.ofList source.toList).remainder.tokens, t.Short) →
      ∃ answer s₂, s₁.hear line = (answer, some s₂)
        ∧ ((∃ output, (Job.ofText source f).run access = pure (.ok output, answer))
          ∨ ∃ e told, (Job.ofText source f).run access = pure (.error (.notProgram e), told)
            ∧ (∀ n, e ≠ .numeralTooLong n)
            ∧ answer
              = told ++ [.log (.rejected source), .printLine ("[error] >>> " ++ e.message)]))
    ∧ (∀ heard told s₁, s.Hears heard told s₁ → ∀ line source,
      s₁.pending.add line = .entry source →
      ∃ answer s₂, s₁.hear line = (answer, some s₂) ∧ s₂.pending = .empty)
    ∧ ∀ inputs, ∃ lines told s₁ left last unread, s.Hears lines told s₁
      ∧ s₁.Ends left last unread ∧ inputs = lines.map .line ++ left
      ∧ s.converse inputs = (told ++ .print s₁.pending.prompt :: last, unread)
  := by
  have hentry {s₁ : Session} {line source : String} (h : s₁.pending.add line = .entry source) :
      ∃ s₂, s₁.hear line = ((respond { s₁ with pending := .empty } source).1, some s₂)
        ∧ s₂.pending = .empty := by
    obtain ⟨_, hadd, -⟩ | ⟨hadd, -⟩ | ⟨_, _, _, _, hadd, hhear⟩ := s₁.hear_cases line
    all_goals
      rw [h] at hadd
      cases hadd
    exact ⟨_, hhear, rfl⟩
  refine ⟨?_, ?_, s.exists_hears_of_converse⟩
  · intro heard told s₁ hheard hquiet line source hadd hsource hshort
    obtain ⟨s₂, hhear, -⟩ := hentry hadd
    have hanswer := @respond_of_quiet { s₁ with pending := .empty } source hquiet hsource
    refine ⟨_, s₂, hhear, ?_⟩
    rw [hanswer]
    exact answerProgram_agrees access (hheard.format_eq.trans hformat) hshort
  · intro heard told s₁ _ line source hadd
    obtain ⟨s₂, hhear, hempty⟩ := hentry hadd
    exact ⟨_, s₂, hhear, hempty⟩

/-- A dialogue that shows source text. -/
def sourceSession : Session where
  format := Format.source.name
  verbose := false

/-- Files of which there are none. -/
def noFiles : FileAccess Id where
  Handle := String
  read name := .error (.missing name)
  create name := .error (.missing name)
  write name _ := .error (.missing name)

/-- After an entry that is refused, a program is answered as a job answers it. -/
theorem answers_agree_with_jobs_sampleSource :
  parse ")" = .error (.unexpectedOperand (.delimiter .rightParen))
    ∧ ∃ told s₁ answer s₂, sourceSession.Hears [")"] told s₁
      ∧ s₁.verbose = false ∧ s₁.pending.add sampleSource = .entry sampleSource
      ∧ AsksProgram sampleSource
      ∧ (∀ t ∈ (Scanner.ofList sampleSource.toList).remainder.tokens, t.Short)
      ∧ s₁.hear sampleSource = (answer, some s₂)
      ∧ ∃ output, (Job.ofText sampleSource .source).run noFiles = pure (.ok output, answer)
  := by
  have hends : sourceSession.pending.add ")" = .entry ")" := by decide
  have hquiet : sourceSession.respond ")" = sourceSession.answerProgram ")" :=
    respond_of_quiet rfl ⟨by decide, by decide, by decide⟩
  obtain ⟨front, buffer, hnext⟩ := sourceSession.exists_answerProgram_snd ")"
  have hfirst : sourceSession.hear ")"
      = ((sourceSession.answerProgram ")").1, some { sourceSession with front, buffer }) := by
    rw [← hnext, ← hquiet, hear, hends]
    rfl
  have hadd : Pending.add .empty sampleSource = .entry sampleSource := by decide
  have hasks : AsksProgram sampleSource := ⟨by decide, by decide, by decide⟩
  have hshort : ∀ t ∈ (Scanner.ofList sampleSource.toList).remainder.tokens, t.Short := by
    rw [((Scanner.cut_iff_remainder _ _).1 (tokenize_eq_ok_iff.1 tokenize_sampleSource)).2]
    exact short_sampleTokens
  obtain ⟨hanswers, -, -⟩ := @answers_agree_with_jobs sourceSession Id _ _ noFiles .source rfl
  obtain ⟨answer, s₂, hhear, hok | ⟨e, told, herror, -⟩⟩ :=
    hanswers _ _ _ (.cons hfirst .nil) rfl _ _ hadd hasks hshort
  · exact ⟨by cbv, _, _, answer, s₂, .cons hfirst .nil, rfl, hadd, hasks, hshort, hhear, hok⟩
  · obtain ⟨output, hrender⟩ := Program.exists_render parse_sampleSource .source
    rw [Job.run_of_parse_ok noFiles parse_sampleSource hrender] at herror
    cases herror

end Session

end Letter
