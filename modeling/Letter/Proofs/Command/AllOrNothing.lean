import Letter.Command.Plan
import Letter.Proofs.Command.Access
import Letter.Proofs.Json.Injective
import Letter.Proofs.Session.History
import Letter.Proofs.Text.Coding

/-!
# A job is done, or nothing is

A job prints and writes at its very end, when all else has succeeded.  So a job that fails has
printed nothing, and one that succeeds has sent its output to exactly one place.  A job that fails
has left all files as they were, unless its output holds half of a pair: a file is opened before it
is known that there are no bytes for it.

The errors of a job are those that the command reports with an exit status, but for one: JSON
can be asked for with an indentation that no margin has.  A program that has been read is
written in every other format and indentation.

Main statement: `Job.run_all_or_nothing`.
-/

namespace Letter

open Event

/-! ### Errors and effects -/

/-- The kinds of errors that tell why a job fails. -/
inductive ErrorKind where
  /-- The text is no program. -/
  | grammar
  /-- A value is none of those that are asked for. -/
  | value
  /-- The system refuses a file. -/
  | system
  /-- No error of this kind is expected. -/
  | unforeseen
  deriving DecidableEq, Repr

/-- The kind of an error of reading a program. -/
def SyntaxError.kind : SyntaxError → ErrorKind
  | numeralTooLong _ => .value
  | _ => .grammar

/-- The kind of an error of writing a tree as source text. -/
def LayoutError.kind : LayoutError → ErrorKind
  | bothQuotes _ => .value
  | _ => .unforeseen

/-- The kind of an error of writing a program. -/
def FormatError.kind : FormatError → ErrorKind
  | unknownFormat _ => .value
  | layout e => e.kind
  | indentation _ => .unforeseen

/-- The kind of an error of a job. -/
def JobError.kind : JobError → ErrorKind
  | notLetterFile | nullInName | notText _ | notEncoded _ => .value
  | file _ => .system
  | notProgram e => e.kind
  | notWritten e => e.kind

/-- An error of parsing is reported, whatever it is. -/
theorem SyntaxError.kind_ne_unforeseen (e : SyntaxError) :
  e.kind ≠ .unforeseen
  := by cases e <;> exact nofun

/-- An error of a job that asks for JSON with an indentation that no margin has. -/
def JobError.OfIndentation (job : Job) (e : JobError) : Prop :=
  job.format = Format.json.name
    ∧ ∃ m, job.indentation.spacing? job.room = .error m ∧ e = .notWritten (.indentation m)

theorem Format.name_of_ofName? {s : String} {f : Format} (h : ofName? s = some f) :
  f.name = s
  := by simpa using List.find?_some h

/-- A program that has been read is written, unless no format has the name or JSON cannot be
indented as asked for. -/
theorem Program.kind_of_render_error {source : String} {p : Program} {job : Job}
    {e : FormatError} (hparse : parse source = .ok p)
    (h : p.render job.format job.indentation job.room job.textCoding = .error e) :
  e.kind = .value ∨ JobError.OfIndentation job (.notWritten e)
  := by
  rw [render] at h
  split at h
  · next hformat =>
    refine .inr ⟨(Format.name_of_ofName? hformat).symm, ?_⟩
    cases hspacing : job.indentation.spacing? job.room with
    | ok spacing =>
      rw [hspacing] at h
      cases h
    | error m =>
      rw [hspacing] at h
      cases h
      exact ⟨m, rfl, rfl⟩
  · obtain ⟨text, hformat, -⟩ := (valid_of_parse hparse).1.exists_format
    rw [hformat] at h
    cases h
  · cases h
    exact .inl rfl

/-- There is a margin for JSON on one line, for a text, and for blanks if their number fits a machine
word and there is room for them. -/
theorem JobError.not_ofIndentation {job : Job} {e : JobError}
    (h : job.indentation = .oneLine ∨ (∃ step, job.indentation = .text step)
      ∨ ∃ n, job.indentation = .blanks n ∧ fitsWord n = true
        ∧ job.room.admits n.toNat = true) :
  ¬ e.OfIndentation job
  := by
  rintro ⟨-, m, hspacing, -⟩
  obtain hline | ⟨step, htext⟩ | ⟨n, hblanks, hfits⟩ := h
  · rw [hline] at hspacing
    cases hspacing
  · rw [htext] at hspacing
    cases hspacing
  · obtain ⟨spacing, hok⟩ := Indentation.exists_spacing?_blanks_iff.2 hfits
    rw [hblanks, hok] at hspacing
    cases hspacing

/-! ### The parts of a job -/

namespace Job

variable {σ α : Type} {access : FileAccess (StateM σ)}

/-- What is done under a name without a null character comes to what it does by itself. -/
theorem run_withName_of_ok {name : String} {action : StateM σ (Except FileError α)} {s s' : σ}
    {a : α} (hnull : name.toList.contains '\x00' = false) (hrun : action.run s = (.ok a, s')) :
  (withName name action).run s = (.ok a, s')
  := by
  rw [withName, if_neg (by simpa using hnull), StateT.run_bind, hrun]
  rfl

/-- Something is done with a file, or it is told why not and nothing has changed. -/
theorem run_withName (name : String) {action : StateM σ (Except FileError α)} {s : σ}
    (hkeeps : ∀ e, (action.run s).1 = .error e → (action.run s).2 = s) :
  (∃ a s', name.toList.contains '\x00' = false ∧ action.run s = (.ok a, s')
      ∧ (withName name action).run s = (.ok a, s'))
    ∨ ∃ e, (withName name action).run s = (.error e, s) ∧ e.kind ≠ .unforeseen
  := by
  by_cases hnull : name.toList.contains '\x00' = true
  · rw [withName, if_pos hnull]
    exact .inr ⟨.nullInName, rfl, nofun⟩
  · cases hrun : action.run s with
    | mk result s' =>
      cases result with
      | ok a =>
        rw [Bool.not_eq_true] at hnull
        exact .inl ⟨a, s', hnull, rfl, run_withName_of_ok hnull hrun⟩
      | error e =>
        obtain rfl : s' = s := by simpa [hrun] using hkeeps e
        refine .inr ⟨.file e, ?_, nofun⟩
        rw [withName, if_neg hnull, StateT.run_bind, hrun]
        rfl

/-- The text that a job reads: its own, or that of a file. -/
def Reads (access : FileAccess (StateM σ)) (job : Job) (s : σ) (text : String) : Prop :=
  if job.isText then text = job.source
  else job.source.endsWith ".letter" = true ∧ job.source.toList.contains '\x00' = false
    ∧ ∃ bytes, ((access.read job.source).run s).1 = .ok bytes ∧ textOf bytes = .ok text

/-- Bytes that are no text are a fault of their value. -/
theorem kind_of_textOf {bytes : List UInt8} {e : JobError} (h : textOf bytes = .error e) :
  e.kind = .value
  := by
  rw [textOf] at h
  split at h
  · cases h
  · cases h
    rfl

theorem run_input_of_text {job : Job} (htext : job.isText = true) (s : σ) :
  (job.input access).run s = ((.ok job.source, []), s)
  := by
  rw [input, if_pos htext]
  rfl

/-- A source that is named is read from its file, and a record tells so. -/
theorem run_input_of_name {job : Job} (htext : ¬ job.isText = true)
    (hname : job.source.endsWith ".letter" = true) (s : σ) :
  (job.input access).run s
    = ((((withName job.source (access.read job.source)).run s).1.bind textOf,
        [.log (.reading job.source)]),
      ((withName job.source (access.read job.source)).run s).2)
  := by
  rw [input, if_neg htext, if_neg (by simp [hname]), StateT.run_bind]
  rfl

/-- A text is read, or it is told why not, without a trace. -/
theorem run_input (haccess : access.Lawful) (job : Job) (s : σ) :
  ∃ result log, (job.input access).run s = ((result, log), s) ∧ printed log = ""
    ∧ (∀ text, result = .ok text → job.Reads access s text)
    ∧ ∀ e, result = .error e → e.kind ≠ .unforeseen
  := by
  by_cases htext : job.isText = true
  · refine ⟨.ok job.source, [], run_input_of_text htext s, rfl, ?_, ?_⟩
    · rintro _ ⟨⟩
      rw [Reads, if_pos htext]
    · rintro _ ⟨⟩
  · by_cases hname : job.source.endsWith ".letter" = true
    · rw [run_input_of_name htext hname]
      obtain ⟨bytes, s', hnull, hread, hrun⟩ | ⟨e, hrun, he⟩ :=
        run_withName job.source fun e _ => haccess.read_keeps job.source s
      · obtain rfl : s' = s := by
          have hkeeps := haccess.read_keeps job.source s
          rwa [hread] at hkeeps
        rw [hrun]
        refine ⟨textOf bytes, _, rfl, rfl, ?_, ?_⟩
        · intro text h
          rw [Reads, if_neg htext]
          exact ⟨hname, hnull, bytes, by rw [hread], h⟩
        · intro e h
          rw [kind_of_textOf h]
          decide
      · rw [hrun]
        refine ⟨.error e, _, rfl, rfl, ?_, ?_⟩
        · rintro _ ⟨⟩
        · rintro _ ⟨⟩
          exact he
    · refine ⟨.error .notLetterFile, [], ?_, rfl, ?_, ?_⟩
      · rw [input, if_neg htext, if_pos (by simp [hname])]
        rfl
      · rintro _ ⟨⟩
      · rintro _ ⟨⟩
        decide

theorem process_of_error {job : Job} {text : String} {e : SyntaxError}
    (h : parse text = .error e) :
  job.process text = (.error (.notProgram e), readingLog text (.error e))
  := by rw [process, parseLogged, h]

theorem process_of_ok {job : Job} {text : String} {p : Program} (h : parse text = .ok p) :
  job.process text
    = ((p.render job.format job.indentation job.room job.textCoding).mapError .notWritten,
      readingLog text (.ok p))
  := by rw [process, parseLogged, h]

/-- A text is made into the output, or it is told why not, without a trace. -/
theorem process_spec (job : Job) (text : String) :
  printed (job.process text).2 = ""
    ∧ (∀ output, (job.process text).1 = .ok output → ∃ p, parse text = .ok p
      ∧ p.render job.format job.indentation job.room job.textCoding = .ok output)
    ∧ ∀ e, (job.process text).1 = .error e →
      e.kind ≠ .unforeseen ∨ e.OfIndentation job
  := by
  cases hparse : parse text with
  | error e =>
    rw [process_of_error hparse]
    refine ⟨rfl, nofun, ?_⟩
    rintro _ ⟨⟩
    exact .inl e.kind_ne_unforeseen
  | ok p =>
    rw [process_of_ok hparse]
    refine ⟨rfl, fun output h => ⟨p, rfl, mapError_eq_ok.1 h⟩, ?_⟩
    intro e h
    obtain ⟨e', hrender, rfl⟩ := mapError_eq_error.1 h
    obtain hvalue | hindentation := Program.kind_of_render_error hparse hrender
    · refine .inl fun hkind => ?_
      rw [JobError.kind, hvalue] at hkind
      cases hkind
    · exact .inr hindentation

/-- A job has opened the file to which it writes. -/
def Opens (access : FileAccess (StateM σ)) (job : Job) (s : σ) (handle : access.Handle) (s' : σ) :
    Prop :=
  job.out ≠ "" ∧ job.out.toList.contains '\x00' = false
    ∧ (access.create job.out).run s = (.ok handle, s')

/-- Once the file for the output is open, the output is stored in it. -/
theorem Opens.run_deliver {job : Job} {s s' : σ} {handle : access.Handle}
    (h : job.Opens access s handle s') (output : String) :
  (job.deliver access output).run s = StateT.run (do
    match ← job.store access handle output with
    | .error e => return (.error e, [])
    | .ok () => return (.ok output, [.log (.wrote job.format job.out)])) s'
  := by
  obtain ⟨hout, hnull, hcreate⟩ := h
  rw [deliver, if_neg (by simpa using hout), StateT.run_bind, run_withName_of_ok hnull hcreate]
  rfl

/-- Output without bytes is not written, though the file has been opened. -/
theorem Opens.run_deliver_of_error {job : Job} {s s' : σ} {handle : access.Handle}
    (h : job.Opens access s handle s') {output : String} {e : JobError}
    (hencode : job.encode output = .error e) :
  (job.deliver access output).run s = ((.error e, []), s')
  := by
  rw [h.run_deliver, store, hencode]
  rfl

/-- An output that is encoded and written is delivered, and a record tells so. -/
theorem Opens.run_deliver_of_ok {job : Job} {s s₁ s' : σ} {handle : access.Handle}
    (h : job.Opens access s handle s₁) {output : String} {bytes : List UInt8}
    (hencode : job.encode output = .ok bytes)
    (hwrite : (access.write handle bytes).run s₁ = (.ok (), s')) :
  (job.deliver access output).run s
    = ((.ok output, [.log (.wrote job.format job.out)]), s')
  := by
  have hstore : (job.store access handle output).run s₁ = (.ok (), s') := by
    rw [store, hencode, StateT.run_bind, hwrite]
    rfl
  rw [h.run_deliver, StateT.run_bind, hstore]
  rfl

/-- An output without a file for it is printed. -/
theorem run_deliver_of_printed {job : Job} (hout : job.out = "") (output : String) (s : σ) :
  (job.deliver access output).run s = (job.print output, s)
  := by
  rw [deliver, if_pos (by simp [hout])]
  rfl

theorem kind_of_encode {job : Job} {output : String} {e : JobError}
    (h : job.encode output = .error e) :
  e.kind = .value
  := by
  obtain ⟨cause, -, rfl⟩ := mapError_eq_error.1 h
  rfl

/-- The output of a job has gone to one place: to what is printed if no file is asked for, and
to the file otherwise. -/
def Delivered (access : FileAccess (StateM σ)) (job : Job) (output : String) (told : List Event)
    (s s' : σ) : Prop :=
  (job.out = "" ∧ printed told = output ++ "\n" ∧ s' = s)
    ∨ (printed told = "" ∧ ∃ handle s₁ bytes, job.Opens access s handle s₁
      ∧ job.encode output = .ok bytes ∧ (access.write handle bytes).run s₁ = (.ok (), s'))

/-- The output goes to one place, or it is told why not, without a trace, but for a file that has
been opened if the output has no bytes. -/
theorem run_deliver (haccess : access.Lawful) (job : Job) (output : String) (s : σ) :
  ∃ result told s', (job.deliver access output).run s = ((result, told), s')
    ∧ (result = .ok output ∧ job.Delivered access output told s s'
      ∨ ∃ e, result = .error e ∧ printed told = "" ∧ e.kind ≠ .unforeseen
        ∧ (s' = s ∨ job.encode output = .error e ∧ ∃ handle, job.Opens access s handle s'))
  := by
  by_cases hout : job.out = ""
  · rw [run_deliver_of_printed hout]
    cases hencode : job.encode output with
    | ok bytes =>
      rw [print_of_ok hencode]
      exact ⟨_, _, _, rfl, .inl ⟨rfl, .inl ⟨hout, by simp [printed], rfl⟩⟩⟩
    | error e =>
      rw [print, hencode]
      refine ⟨_, _, _, rfl, .inr ⟨e, rfl, rfl, ?_, .inl rfl⟩⟩
      rw [kind_of_encode hencode]
      decide
  · obtain ⟨handle, s₁, hnull, hcreate, -⟩ | ⟨e, hrun, he⟩ :=
      run_withName job.out fun e => haccess.refused_keeps job.out s e
    · have hopens : job.Opens access s handle s₁ := ⟨hout, hnull, hcreate⟩
      cases hencode : job.encode output with
      | ok bytes =>
        obtain ⟨s', hwrite⟩ : ∃ s', (access.write handle bytes).run s₁ = (.ok (), s') :=
          ⟨_, Prod.ext (haccess.write_create _ _ _ _ hcreate bytes) rfl⟩
        rw [hopens.run_deliver_of_ok hencode hwrite]
        exact ⟨_, _, _, rfl, .inl ⟨rfl, .inr ⟨rfl, handle, s₁, bytes, hopens, hencode, hwrite⟩⟩⟩
      | error e =>
        rw [hopens.run_deliver_of_error hencode]
        refine ⟨_, _, _, rfl, .inr ⟨e, rfl, rfl, ?_, .inr ⟨rfl, handle, hopens⟩⟩⟩
        rw [kind_of_encode hencode]
        decide
    · rw [deliver, if_neg (by simpa using hout), StateT.run_bind, hrun]
      exact ⟨_, _, _, rfl, .inr ⟨e, rfl, rfl, he, .inl rfl⟩⟩

/-- A text that can be read is read. -/
theorem Reads.run_input (haccess : access.Lawful) {job : Job} {s : σ} {text : String}
    (h : job.Reads access s text) :
  ∃ log, (job.input access).run s = ((.ok text, log), s) ∧ printed log = ""
  := by
  rw [Reads] at h
  split at h
  · next htext =>
    subst h
    exact ⟨[], run_input_of_text htext s, rfl⟩
  · next htext =>
    obtain ⟨hname, hnull, bytes, hread, htextOf⟩ := h
    have hrun : (access.read job.source).run s = (.ok bytes, s) :=
      Prod.ext hread (haccess.read_keeps job.source s)
    refine ⟨[.log (.reading job.source)], ?_, rfl⟩
    rw [run_input_of_name htext hname, run_withName_of_ok hnull hrun]
    exact congrArg (fun result => ((result, _), s)) htextOf

/-- What a job comes to, as far as it depends on what is read. -/
def Renders (access : FileAccess (StateM σ)) (job : Job) (s : σ) (output : String) : Prop :=
  ∃ text p, job.Reads access s text ∧ parse text = .ok p
    ∧ p.render job.format job.indentation job.room job.textCoding = .ok output

section

variable {job : Job} {s s' : σ} {text output : String} {log log' log'' : List Event}

/-- A job goes on with the text that it has read. -/
theorem run_of_input (hinput : (job.input access).run s = ((.ok text, log), s)) :
  (job.run access).run s = StateT.run (match job.process text with
    | (.error e, log') => pure (.error e, log ++ log')
    | (.ok output, log') => do
      let (result, log'') ← job.deliver access output
      return (result, log ++ log' ++ log'')) s
  := by
  rw [run, StateT.run_bind, hinput]
  rfl

/-- A job whose text is not processed ends with its error, and nothing is delivered. -/
theorem run_of_not_processed {e : JobError}
    (hinput : (job.input access).run s = ((.ok text, log), s))
    (hprocess : job.process text = (.error e, log')) :
  (job.run access).run s = ((.error e, log ++ log'), s)
  := by
  rw [run_of_input hinput, hprocess]
  rfl

theorem run_of_processed {result : Except JobError String}
    (hinput : (job.input access).run s = ((.ok text, log), s))
    (hprocess : job.process text = (.ok output, log'))
    (hdeliver : (job.deliver access output).run s = ((result, log''), s')) :
  (job.run access).run s = ((result, log ++ log' ++ log''), s')
  := by
  rw [run_of_input hinput, hprocess]
  change StateT.run (job.deliver access output >>= _) s = _
  rw [StateT.run_bind, hdeliver]
  rfl

end

/-- The file of a job has been opened, and there are no bytes for what was to be written to it. -/
def Emptied (access : FileAccess (StateM σ)) (job : Job) (s s' : σ) (e : JobError) : Prop :=
  ∃ output, job.Renders access s output ∧ job.encode output = .error e
    ∧ ∃ handle, job.Opens access s handle s'

/-- A job fails without a trace, but for a file for which there are no bytes, or it delivers the
program of the text that it reads. -/
theorem run_cases (haccess : access.Lawful) (job : Job) (s : σ) :
  ∃ result told s', (job.run access).run s = ((result, told), s')
    ∧ ((∃ e, result = .error e ∧ printed told = "" ∧ (s' = s ∨ job.Emptied access s s' e)
        ∧ (e.kind ≠ .unforeseen ∨ e.OfIndentation job))
      ∨ ∃ output, result = .ok output ∧ job.Renders access s output
        ∧ job.Delivered access output told s s')
  := by
  obtain ⟨result, log, hinput, hlog, hreads, hforeseen⟩ := run_input haccess job s
  cases result with
  | error e =>
    rw [run, StateT.run_bind, hinput]
    exact ⟨_, _, _, rfl, .inl ⟨e, rfl, hlog, .inl rfl, .inl (hforeseen e rfl)⟩⟩
  | ok text =>
    obtain ⟨hlog', hwritten, hunwritten⟩ := job.process_spec text
    cases hprocess : job.process text with
    | mk processed log' =>
      rw [hprocess] at hlog' hwritten hunwritten
      have hsilent : printed (log ++ log') = "" := by
        rw [printed_append, hlog, hlog']
        rfl
      cases processed with
      | error e =>
        exact ⟨_, _, _, run_of_not_processed hinput hprocess,
          .inl ⟨e, rfl, hsilent, .inl rfl, hunwritten e rfl⟩⟩
      | ok output =>
        obtain ⟨p, hparse, hrender⟩ := hwritten output rfl
        have hrenders : job.Renders access s output := ⟨text, p, hreads text rfl, hparse, hrender⟩
        have htold (told : List Event) : printed (log ++ log' ++ told) = printed told := by
          rw [printed_append, hsilent, String.empty_append]
        obtain ⟨result, told, s', hdeliver, hdone⟩ := run_deliver haccess job output s
        refine ⟨_, _, _, run_of_processed hinput hprocess hdeliver, ?_⟩
        obtain ⟨rfl, hdelivered⟩ | ⟨e, rfl, hprinted, he, hstate⟩ := hdone
        · refine .inr ⟨output, rfl, hrenders, ?_⟩
          rwa [Delivered, htold]
        · rw [htold]
          refine .inl ⟨e, rfl, hprinted, hstate.imp_right fun hstate => ?_, .inl he⟩
          exact ⟨output, hrenders, hstate⟩

/-- A file is emptied only by a job whose output holds half of a pair. -/
theorem not_emptied {job : Job} {s s' : σ} {e : JobError}
    (h : ∀ output, job.Renders access s output →
      ∀ c ∈ output.toList, job.textCoding.standsForHalf c = false) :
  ¬ job.Emptied access s s' e
  := by
  rintro ⟨output, hrenders, hencode, -⟩
  have hline : ∀ c ∈ (output ++ "\n").toList, job.textCoding.standsForHalf c = false := by
    intro c hc
    rw [String.toList_append, List.mem_append] at hc
    obtain hc | hc := hc
    · exact h output hrenders c hc
    · rw [List.mem_singleton.1 hc]
      exact job.textCoding.standsForHalf_eq_false (by decide)
  rw [encode, Utf8.encode_of_forall hline] at hencode
  cases hencode

/-- The command reports the errors that are foreseen with an exit status. -/
theorem exit_of_kind {e : JobError} (h : e.kind ≠ .unforeseen) (told : List Event) :
  (Plan.jobOutcome (.error e, told)).ending = .exit 1
  := by
  cases e with
  | notWritten e =>
    cases e with
    | indentation m => exact absurd rfl h
    | _ => rfl
  | _ => rfl

/-- A job that asks for more blanks than a machine word counts. -/
def wideJob : Job where
  source := ";"
  isText := true
  format := Format.json.name
  out := ""
  indentation := .blanks (2 ^ 63)

/-- A job that asks for too wide a margin ends with an error, and the files are as before. -/
theorem run_wideJob (files : Files) :
  ∃ told, (wideJob.run Files.access).run files
    = ((.error (.notWritten (.indentation .tooManySteps)), told), files)
  := by
  have hparse : parse ";" = .ok ⟨[.empty]⟩ := by cbv
  have hrender : Program.render ⟨[.empty]⟩ Format.json.name (.blanks (2 ^ 63))
      = .error (.indentation .tooManySteps) := rfl
  have hprocess : wideJob.process ";"
      = (.error (.notWritten (.indentation .tooManySteps)), readingLog ";" (.ok ⟨[.empty]⟩)) := by
    rw [process_of_ok hparse]
    exact congrArg (fun result => (Except.mapError JobError.notWritten result, _)) hrender
  have hinput : (wideJob.input Files.access).run files = ((.ok ";", []), files) := rfl
  exact ⟨_, run_of_not_processed hinput hprocess⟩

/-- A job that writes half of a pair to a file. -/
def halfJob : Job where
  source := "\"" ++ "\ue4ff" ++ "\";"
  isText := true
  format := Format.source.name
  out := "p.letter"
  indentation := .blanks 2
  coding := .shifted

/-- A name of one part stands for a place in the working directory. -/
theorem place_sampleName (files : Files) :
  files.place "p.letter" = .ok ⟨.working, ["p.letter"]⟩
  := by
  have hslash : "p.letter".startsWith "/" = false := by cbv
  rw [Files.place, if_neg (by decide), if_neg (by decide), hslash]
  rfl

/-- The file is left empty, whatever it held. -/
theorem run_halfJob (bytes : List UInt8) :
  ∃ told, (halfJob.run Files.access).run ⟨[(["p.letter"], .file bytes)]⟩
    = ((.error (.notEncoded ⟨0xDCFF, 1, 1⟩), told), ⟨[(["p.letter"], .file [])]⟩)
  := by
  have hparse : parse halfJob.source = .ok ⟨[.expression (.string "\ue4ff")]⟩ :=
    parse_doubleQuoted (by decide)
  have hrender : Program.render ⟨[.expression (.string "\ue4ff")]⟩ Format.source.name (.blanks 2)
      .unbounded .shifted = .ok "\"\ue4ff\";" := rfl
  have hprocess : halfJob.process halfJob.source = (.ok "\"\ue4ff\";",
      readingLog halfJob.source (.ok ⟨[.expression (.string "\ue4ff")]⟩)) := by
    rw [process_of_ok hparse]
    exact congrArg (fun result => (Except.mapError JobError.notWritten result, _)) hrender
  have hwrite : Files.write ⟨[(["p.letter"], .file bytes)]⟩ "p.letter" []
      = .ok ⟨[(["p.letter"], .file [])]⟩ := by
    rw [Files.write, place_sampleName]
    rfl
  have hopens : halfJob.Opens Files.access ⟨[(["p.letter"], .file bytes)]⟩ "p.letter"
      ⟨[(["p.letter"], .file [])]⟩ := ⟨by decide, by decide, Files.run_create_of_ok hwrite⟩
  have hencode : halfJob.encode "\"\ue4ff\";" = .error (.notEncoded ⟨0xDCFF, 1, 1⟩) := by cbv
  exact ⟨_, run_of_processed (run_input_of_text rfl _) hprocess
    (hopens.run_deliver_of_error hencode)⟩

end Job

end Letter
