import Letter.Proofs.Command.AllOrNothing

/-!
# The command line

What the arguments ask for is one of the things that they can ask for: a format that there is and
a whole number of blanks, unless an option is given the separator for its value.

Only a job touches the files.  So the whole command has printed nothing, and left all files as
they were, unless it succeeds, but for a file that is emptied for want of bytes.  It refuses exactly
the arguments that come to no request, and breaks off for two reasons: an indentation that no margin
has, and an environment that names no severity.

Main statement: `Command.run_outcome`.
-/

namespace Letter

open Event

/-! ### Settings that can be asked for -/

/-- What settings hold that arguments ask for: an option whose values are an empty list names no
format, and is no number of blanks. -/
structure Settings.Offered (s : Settings) : Prop where
  format : (∃ f : Format, s.format = f.name) ∨ s.format = bracketed []
  indentation : (∃ n, s.indentation = .blanks n) ∨ s.indentation = .notInteger "list"

namespace Settings

theorem offered_default :
  Offered default
  := ⟨.inl ⟨.json, rfl⟩, .inl ⟨2, rfl⟩⟩

variable {s : Settings}

/-- The source is no matter of what is offered. -/
theorem Offered.withSource (h : s.Offered) (a : String) :
  Offered { s with source? := some a }
  := ⟨h.format, h.indentation⟩

theorem Offered.withFlag (h : s.Offered) (o : Opt) :
  (s.withFlag o).Offered
  := by cases o <;> exact ⟨h.format, h.indentation⟩

theorem Offered.withoutValue (h : s.Offered) (o : Opt) :
  (s.withoutValue o).Offered
  := by
  cases o with
  | format => exact ⟨.inr rfl, h.indentation⟩
  | indent => exact ⟨h.format, .inr rfl⟩
  | _ => exact ⟨h.format, h.indentation⟩

/-- An option with a value that is accepted keeps the settings offered. -/
theorem Offered.withValue (h : s.Offered) {s' : Settings} {o : Opt} {value : String}
    (hvalue : s.withValue o value = .ok s') :
  s'.Offered
  := by
  cases o with
  | format =>
    simp only [Settings.withValue] at hvalue
    split at hvalue
    · next f _ =>
      cases hvalue
      exact ⟨.inl ⟨f, rfl⟩, h.indentation⟩
    · cases hvalue
  | indent =>
    simp only [Settings.withValue] at hvalue
    split at hvalue
    · next n _ =>
      cases hvalue
      exact ⟨h.format, .inl ⟨n, rfl⟩⟩
    · cases hvalue
  | logLevel =>
    simp only [Settings.withValue] at hvalue
    split at hvalue
    · cases hvalue
      exact ⟨h.format, h.indentation⟩
    · cases hvalue
  | _ =>
    cases hvalue
    exact ⟨h.format, h.indentation⟩

/-- An option keeps the settings offered, whether its value is given with it or is its default. -/
theorem Offered.withGiven (h : s.Offered) {s' : Settings} {o : Opt} {value : String}
    (hvalue : s.withGiven o value = .ok s') :
  s'.Offered
  := by
  rw [Settings.withGiven] at hvalue
  split at hvalue
  · cases hvalue
    exact h.withoutValue o
  · exact h.withValue hvalue

end Settings

/-- Whatever is asked for, one thing after another, what is offered stays what is asked for. -/
theorem Request.offered_of_ofItems {s s' : Settings} {mayCome : Bool} {left : List String}
    {items : List Item} (h : s.Offered) (hitems : ofItems s mayCome left items = .ok (.settings s')) :
  s'.Offered
  := by
  fun_induction ofItems s mayCome left items with
  | case1 s mayCome left hnone =>
    cases hitems
    exact h
  | case2 | case3 | case4 => cases hitems
  | case5 s mayCome left o later hhelp ih => exact ih (h.withFlag o) hitems
  | case6 => cases hitems
  | case7 s mayCome left o value later s₁ hgiven ih => exact ih (h.withGiven hgiven) hitems
  | case8 s mayCome left a later ih => exact ih h hitems
  | case9 s left a later ih => exact ih (h.withSource a) hitems
  | case10 s left a later hnone ih => exact ih (h.withSource a) hitems
  | case11 s mayCome left a later hcome ih => exact ih h hitems
  | case12 s left a later ih => exact ih (h.withSource a) hitems
  | case13 s left later hnone ih => exact ih h hitems
  | case14 s mayCome left later hcome ih => exact ih h hitems

/-- Arguments that are accepted come to settings that are offered. -/
theorem Request.offered_of_ofArguments {arguments : List String} {s : Settings}
    (h : ofArguments arguments = .ok (.settings s)) :
  s.Offered
  := by
  obtain ⟨forms, -, hitems⟩ := bind_eq_ok.1 h
  exact offered_of_ofItems Settings.offered_default hitems

/-! ### What a plan comes to -/

namespace Plan

variable {σ : Type} {access : FileAccess (StateM σ)}

/-- Errors are reported, not printed. -/
theorem printed_jobOutcome (e : JobError) (told : List Event) :
  printed (jobOutcome (.error e, told)).events = printed told
  := by
  have hreport : printed (told ++ [.report ("error: " ++ e.message ++ "\n")]) = printed told := by
    rw [printed_append]
    exact String.append_empty
  cases e with
  | notWritten e =>
    cases e with
    | indentation m => rfl
    | _ => exact hreport
  | _ => exact hreport

/-- A job is carried out by a plan as it is done by itself. -/
theorem run_job {job : Job} {s s' : σ} {result : Except JobError String × List Event}
    (h : (job.run access).run s = (result, s')) (inputs : List Input) :
  ((Plan.job job).run access inputs).run s = (jobOutcome result, s')
  := by
  rw [run, StateT.run_bind, h]
  rfl

/-- How a plan ends in which nothing but a job has a part in the files, given these before and
after it. -/
inductive Ends (access : FileAccess (StateM σ)) (s : σ) : Plan → Outcome → σ → Prop where
  | help {outcome : Outcome} (ending : outcome.ending = .exit 0) : Ends access s .help outcome s
  | dialogue {session : Session} {outcome : Outcome} (ending : outcome.ending = .exit 0) :
      Ends access s (.dialogue session) outcome s
  | refused {e : UsageError} {outcome : Outcome} (ending : outcome.ending = .exit 2)
      (silent : printed outcome.events = "") : Ends access s (.refuse e) outcome s
  | brokenOff {e : ThresholdError} {outcome : Outcome}
      (ending : outcome.ending = .crash (.threshold e)) (silent : printed outcome.events = "") :
      Ends access s (.breakOff e) outcome s
  /-- The output of a job has gone to its place. -/
  | delivered {job : Job} {output : String} {outcome : Outcome} {s' : σ}
      (ending : outcome.ending = .exit 0) (renders : job.Renders access s output)
      (delivered : job.Delivered access output outcome.events s s') :
      Ends access s (.job job) outcome s'
  | failed {job : Job} {outcome : Outcome} (ending : outcome.ending = .exit 1)
      (silent : printed outcome.events = "") : Ends access s (.job job) outcome s
  /-- There are no bytes for what was to be written to a file that has been opened. -/
  | emptied {job : Job} {e : JobError} {outcome : Outcome} {s' : σ}
      (ending : outcome.ending = .exit 1) (silent : printed outcome.events = "")
      (emptied : job.Emptied access s s' e) : Ends access s (.job job) outcome s'
  /-- JSON is asked for with an indentation that no margin has. -/
  | notIndented {job : Job} {m : MarginError} {outcome : Outcome}
      (ending : outcome.ending = .crash (.indentation m)) (silent : printed outcome.events = "")
      (format : job.format = Format.json.name)
      (noMargin : job.indentation.spacing? job.room = .error m) :
      Ends access s (.job job) outcome s

/-- Every plan is carried out, and ends in one of these ways. -/
theorem exists_ends (haccess : access.Lawful) (plan : Plan) (inputs : List Input) (s : σ) :
  ∃ outcome s', (plan.run access inputs).run s = (outcome, s') ∧ plan.Ends access s outcome s'
  := by
  cases plan with
  | help => exact ⟨_, s, rfl, .help rfl⟩
  | refuse e => exact ⟨_, s, rfl, .refused rfl rfl⟩
  | dialogue session => exact ⟨_, s, rfl, .dialogue rfl⟩
  | breakOff e => exact ⟨_, s, rfl, .brokenOff rfl rfl⟩
  | job job =>
    obtain ⟨_, told, s', hrun, ⟨e, rfl, hprinted, hstate, he⟩ | ⟨output, rfl, hrenders, hdone⟩⟩ :=
      job.run_cases haccess s
    · have hsilent := (printed_jobOutcome e told).trans hprinted
      refine ⟨_, s', run_job hrun inputs, ?_⟩
      obtain he | ⟨hformat, m, hspacing, rfl⟩ := he
      · have hexit := Job.exit_of_kind he told
        obtain rfl | hemptied := hstate
        · exact .failed hexit hsilent
        · exact .emptied hexit hsilent hemptied
      · obtain rfl | ⟨output, -, hencode, -⟩ := hstate
        · exact .notIndented rfl hsilent hformat hspacing
        · obtain ⟨cause, -, hcause⟩ := mapError_eq_error.1 hencode
          cases hcause
    · exact ⟨_, s', run_job hrun inputs, .delivered rfl hrenders hdone⟩

variable {plan : Plan} {outcome : Outcome} {s s' : σ}

/-- Nothing has been printed unless the command succeeds. -/
theorem Ends.printed_eq (h : plan.Ends access s outcome s') (hfailed : outcome.ending ≠ .exit 0) :
  printed outcome.events = ""
  := by
  cases h with
  | help ending | dialogue ending | delivered ending => exact absurd ending hfailed
  | refused _ silent | brokenOff _ silent | failed _ silent | emptied _ silent
  | notIndented _ silent => exact silent

/-- The files have not been changed unless the command succeeds, or a file has been emptied. -/
theorem Ends.files_eq (h : plan.Ends access s outcome s') (hfailed : outcome.ending ≠ .exit 0) :
  s' = s ∨ ∃ job e, plan = .job job ∧ job.Emptied access s s' e
  := by
  cases h with
  | delivered ending => exact absurd ending hfailed
  | emptied _ _ emptied => exact .inr ⟨_, _, rfl, emptied⟩
  | _ => exact .inl rfl

/-- Only arguments that are refused give the exit status for that. -/
theorem Ends.exit_two_iff (h : plan.Ends access s outcome s') :
  outcome.ending = .exit 2 ↔ ∃ e, plan = .refuse e
  := by
  cases h with
  | refused ending => exact ⟨fun _ => ⟨_, rfl⟩, fun _ => ending⟩
  | help ending | dialogue ending | brokenOff ending | delivered ending | failed ending
  | emptied ending | notIndented ending =>
    rw [ending]
    exact ⟨nofun, nofun⟩

/-- Only a job for which there is no margin breaks the command off for want of one. -/
theorem Ends.exists_job_of_crash (h : plan.Ends access s outcome s') {m : MarginError}
    (hcrash : outcome.ending = .crash (.indentation m)) :
  ∃ job, plan = .job job ∧ job.indentation.spacing? job.room = .error m
  := by
  cases h with
  | notIndented ending _ _ noMargin =>
    cases ending.symm.trans hcrash
    exact ⟨_, rfl, noMargin⟩
  | help ending | dialogue ending | refused ending | brokenOff ending | delivered ending
  | failed ending | emptied ending => cases ending.symm.trans hcrash

end Plan

/-! ### What arguments come to -/

namespace Command

variable {σ : Type} {access : FileAccess (StateM σ)} {arguments : List String}
  {environment : String} {room : Room} {coding : Coding}

/-- A job that arguments ask for has what is offered, the room that there is, and the coding of the
arguments. -/
theorem job_of_ofArguments {job : Job}
    (h : (ofArguments arguments environment room coding).plan = .job job) :
  ((∃ f : Format, job.format = f.name) ∨ job.format = bracketed [])
    ∧ ((∃ n, job.indentation = .blanks n) ∨ job.indentation = .notInteger "list")
    ∧ job.room = room ∧ job.coding = coding
  := by
  rw [ofArguments] at h
  split at h
  · next settings hsettings =>
    have hoffered := Request.offered_of_ofArguments hsettings
    rw [ofSettings] at h
    split at h
    · rw [planOf] at h
      split at h
      · split at h
        · cases h
        · cases h
          exact ⟨hoffered.format, hoffered.indentation, rfl, rfl⟩
      · cases h
    · cases h
  · cases h
  · cases h

/-- Settings are never refused. -/
theorem plan_ofSettings_ne_refuse (settings : Settings) (e : UsageError) :
  (ofSettings settings environment room coding).plan ≠ .refuse e
  := by
  rw [ofSettings]
  split
  · rw [planOf]
    split
    · split <;> exact nofun
    · exact nofun
  · exact nofun

/-- Arguments are refused exactly if they come to no request. -/
theorem exists_plan_eq_refuse_iff :
  (∃ e, (ofArguments arguments environment room coding).plan = .refuse e)
    ↔ ∃ e, Request.ofArguments arguments = .error e
  := by
  rw [ofArguments]
  cases Request.ofArguments arguments with
  | error e => exact ⟨fun _ => ⟨e, rfl⟩, fun _ => ⟨e, rfl⟩⟩
  | ok request =>
    cases request with
    | help => exact ⟨nofun, nofun⟩
    | settings settings =>
      exact ⟨fun ⟨e, he⟩ => absurd he (plan_ofSettings_ne_refuse settings e), nofun⟩

/-- The whole command fails without a trace, but for a file that it has emptied, or it succeeds.
It refuses the arguments that come to no request, and no others.  JSON cannot be indented by an
empty list of values, and by a number of blanks only if there is a margin of so many. -/
theorem run_outcome (haccess : access.Lawful) {plan : Plan}
    (hplan : (ofArguments arguments environment room coding).plan = plan) (inputs : List Input)
    (s : σ) :
  ∃ outcome s', (plan.run access inputs).run s = (outcome, s') ∧ plan.Ends access s outcome s'
    ∧ (outcome.ending ≠ .exit 0 → printed outcome.events = ""
      ∧ (s' = s ∨ ∃ job e, plan = .job job ∧ job.Emptied access s s' e))
    ∧ (outcome.ending = .exit 2 ↔ ∃ e, Request.ofArguments arguments = .error e)
    ∧ ∀ m, outcome.ending = .crash (.indentation m) →
      m = .notInteger "list" ∨ ∃ n, marginWidth room 1 n = .error m
  := by
  obtain ⟨outcome, s', hrun, hends⟩ := plan.exists_ends haccess inputs s
  refine ⟨outcome, s', hrun, hends, ?_, ?_, fun m hcrash => ?_⟩
  · exact fun hfailed => ⟨hends.printed_eq hfailed, hends.files_eq hfailed⟩
  · rw [hends.exit_two_iff, ← hplan, exists_plan_eq_refuse_iff]
  · obtain ⟨job, rfl, hspacing⟩ := hends.exists_job_of_crash hcrash
    obtain ⟨-, ⟨n, hblanks⟩ | hlist, hroom, -⟩ := job_of_ofArguments hplan
    · rw [hblanks, hroom] at hspacing
      exact .inr ⟨n, map_eq_error.1 hspacing⟩
    · rw [hlist] at hspacing
      cases hspacing
      exact .inl rfl

end Command

end Letter
