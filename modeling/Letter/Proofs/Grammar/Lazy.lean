import Letter.Proofs.Grammar.CompleteProgram
import Letter.Proofs.Grammar.Lookahead

/-!
# Tokens read by need

The grammar brings tokens into view one at a time, as it needs them, and decides about them
in between.  This comes to the same as cutting the whole text into tokens first.  What is
read as a program has no text behind it; a text in which reading gets stuck is not cut into
tokens, for the same reason; and texts of the same tokens are read alike.
-/

namespace Letter

/-! ### The text that is left -/

namespace Scanner

/-- Where reading has finished, reading again finishes at once. -/
theorem remainder_stuck?_of_rest_nil {s : Scanner} (h : s.rest = []) :
  s.remainder.stuck? = none
  := by
  have hcut := (cut_iff_remainder s []).1 (by rw [h]; exact .nil)
  exact hcut.1

end Scanner

namespace Front

/-- The number of characters of the text that the front is a place of. -/
def extent (f : Front) : Nat := f.scanner.offset + f.scanner.rest.length

/-- What bringing the next token into view does to the text behind the token in view. -/
theorem advance_eq_ok {f g : Front} (h : Parse.advance f = .ok () g) :
  g.extent = f.extent ∧ (g.next? = none → g.behind = [])
    ∧ g.scanner.remainder.stuck? = f.scanner.remainder.stuck?
  := by
  have hoffset := f.scanner.next_offset
  rw [Parse.advance] at h
  split at h
  · next t s hnext =>
    cases h
    rw [hnext] at hoffset
    refine ⟨hoffset, by simp, ?_⟩
    rw [Scanner.remainder.eq_def f.scanner]
    split <;> simp_all
  · next s hnext =>
    cases h
    have hrest := Scanner.rest_of_next_finished hnext
    rw [hnext] at hoffset
    refine ⟨hoffset, fun _ => hrest, ?_⟩
    rw [Scanner.remainder_stuck?_of_rest_nil hrest, Scanner.remainder.eq_def f.scanner]
    split <;> simp_all
  · cases h

/-- Where taking a token gets stuck, cutting the text gets stuck as well. -/
theorem stuck?_of_advance {f g : Front} {e : Stuck}
    (h : Parse.advance f = .error (.stuck e) g) :
  f.scanner.remainder.stuck? = some e
  := by
  rw [Parse.advance] at h
  split at h
  · cases h
  · cases h
  · next e' s hnext =>
    cases h
    rw [Scanner.remainder.eq_def f.scanner]
    split <;> simp_all

/-- The token in view and those behind it, up to the end of the text or to a character at
which no rule applies. -/
def ahead (f : Front) : List Token := f.next?.toList ++ f.scanner.remainder.tokens

/-- The next token comes into view. -/
theorem ahead_of_advance {f g : Front} (h : Parse.advance f = .ok () g) :
  g.ahead = f.scanner.remainder.tokens
  := by
  rw [Parse.advance] at h
  split at h
  · next t s hnext =>
    cases h
    rw [Scanner.remainder.eq_def f.scanner]
    split <;> simp_all [ahead]
  · next s hnext =>
    cases h
    have hrest := Scanner.rest_of_next_finished hnext
    have hnone : s.remainder.tokens = [] := ((Scanner.cut_iff_remainder s []).1 (hrest ▸ .nil)).2
    rw [ahead, Scanner.remainder.eq_def f.scanner]
    split <;> simp_all
  · cases h

namespace Reach

variable {f g : Front} {ts us : List Token}

/-- What bringing tokens into view one after another does to the text behind. -/
theorem keeps (h : f.Reach ts g) :
  g.extent = f.extent ∧ ((f.next? = none → f.behind = []) → g.next? = none → g.behind = [])
    ∧ g.scanner.remainder.stuck? = f.scanner.remainder.stuck?
  := by
  induction h with
  | refl => exact ⟨rfl, id, rfl⟩
  | take _ advance _ ih =>
    obtain ⟨hextent, hbehind, hstuck⟩ := advance_eq_ok advance
    exact ⟨ih.1.trans hextent, fun _ => ih.2.1 hbehind, ih.2.2.trans hstuck⟩

/-- The tokens that are taken were ahead. -/
theorem ahead_eq (h : f.Reach ts g) :
  f.ahead = ts ++ g.ahead
  := by
  induction h with
  | refl => rfl
  | take view advance _ ih =>
    rw [List.cons_append, ← ih, ahead_of_advance advance, ahead, view]
    rfl

/-- Tokens that are taken from the ones shown leave the others. -/
theorem exists_shows (h : f.Reach us g) (hf : f.Shows ts) :
  ∃ vs, ts = us ++ vs ∧ g.Shows vs
  := by
  induction h generalizing ts with
  | refl => exact ⟨ts, rfl, hf⟩
  | @take f g h t us view advance later ih =>
    cases ts with
    | nil =>
      rw [shows_nil, view] at hf
      cases hf
    | cons u ts =>
      obtain ⟨hview, g', hadv, hg⟩ := shows_cons.1 hf
      rw [view] at hview
      rw [advance] at hadv
      cases hview
      cases hadv
      obtain ⟨vs, rfl, hvs⟩ := ih hg
      exact ⟨vs, rfl, hvs⟩

end Reach

namespace Shows

variable {f g : Front} {ts us : List Token}

/-- The front looks at the first of the tokens that it shows. -/
theorem next?_eq (h : f.Shows ts) :
  f.next? = ts.head?
  := by
  cases ts with
  | nil => apply shows_nil.1 h
  | cons t ts => apply (shows_cons.1 h).1

/-- Any of the tokens shown can be taken, up to a given one. -/
theorem exists_reach (h : f.Shows (us ++ ts)) :
  ∃ g, f.Reach us g ∧ g.Shows ts
  := by
  obtain ⟨h, hreach, hend⟩ := h
  obtain ⟨g, hus, hts⟩ := hreach.split
  exact ⟨g, hus, h, hts, hend⟩

/-- A front that shows tokens can advance over the one that it looks at. -/
theorem exists_advance {t : Token} (h : f.Shows ts) (hview : f.next? = some t) :
  ∃ g, Parse.advance f = .ok () g
  := by
  cases ts with
  | nil =>
    rw [shows_nil, hview] at h
    cases h
  | cons u ts =>
    obtain ⟨-, g, hadv, -⟩ := shows_cons.1 h
    exact ⟨g, hadv⟩

end Shows

/-- Where tokens are shown and the same one is in view, the same error is met. -/
theorem Fault.exists_of_shows {f f' g : Front} {e : SyntaxError} {ts us : List Token}
    (h : f.Fault e g) (hf : f.Shows ts) (hf' : f'.Shows us) (hview : f'.next? = f.next?) :
  ∃ g', f'.Fault e g'
  := by
  cases h with
  | told h => exact ⟨f', .told (hview ▸ h)⟩
  | refused view h _ =>
    obtain ⟨g', hadv⟩ := hf'.exists_advance (hview.trans view)
    exact ⟨g', .refused (hview.trans view) h hadv⟩
  | stuck view advance =>
    obtain ⟨g', hadv⟩ := hf.exists_advance view
    rw [hadv] at advance
    cases advance

end Front

namespace Parse

variable {α : Type}

/-- Where the same tokens are shown, the same is read. -/
theorem Predictive.eq_of_shows {p : Parse α} {f f' : Front} {ts : List Token}
    (hp : Predictive p f) (hf : f.Shows ts) (hf' : f'.Shows ts) :
  (∀ a g, p f = .ok a g → ∃ g', p f' = .ok a g')
    ∧ ∀ e g, p f = .error e g → ∃ g', p f' = .error e g'
  := by
  constructor
  · intro a g h
    obtain ⟨us, hreach, hagain⟩ := hp.of_eq_ok h
    obtain ⟨vs, rfl, hg⟩ := hreach.exists_shows hf
    obtain ⟨g', hreach', hg'⟩ := hf'.exists_reach
    exact ⟨g', hagain f' g' hreach' (hg'.next?_eq.trans hg.next?_eq.symm)⟩
  · intro e g h
    obtain ⟨us, f₁, hreach, hfault, hagain⟩ := hp.of_eq_error h
    obtain ⟨vs, rfl, hf₁⟩ := hreach.exists_shows hf
    obtain ⟨f₁', hreach', hf₁'⟩ := hf'.exists_reach
    have hview : f₁'.next? = f₁.next? := hf₁'.next?_eq.trans hf₁.next?_eq.symm
    obtain ⟨g', hfault'⟩ := hfault.exists_of_shows hf₁ hf₁' hview
    exact ⟨g', hagain f' f₁' g' hreach' hview hfault'⟩

/-- What loading a text does to the text behind the token in view. -/
theorem load_eq_ok {source : List Char} {front f : Front} (h : load source front = .ok () f) :
  f.extent = source.length ∧ (f.next? = none → f.behind = [])
    ∧ f.scanner.remainder.stuck? = (Scanner.ofList source).remainder.stuck?
  := by
  obtain ⟨hextent, hbehind, hstuck⟩ := Front.advance_eq_ok h
  refine ⟨hextent.trans ?_, hbehind, hstuck⟩
  rw [Front.extent, Scanner.ofList, Nat.zero_add]

/-- A program is read up to the end of the text. -/
theorem scanner_of_source {source : List Char} {front g : Front} {p : Program}
    (h : Parse.source source front = .ok p g) :
  g.next? = none ∧ g.scanner = ⟨[], source.length⟩
  := by
  obtain ⟨_, f, hload, hprogram⟩ := bind_eq_ok.1 h
  obtain ⟨⟨ts, hreach, -⟩, hend⟩ := takes_of_program hprogram
  obtain ⟨hextent, hbehind, -⟩ := load_eq_ok hload
  obtain ⟨hextent', hbehind', -⟩ := hreach.keeps
  have hrest : g.scanner.rest = [] := hbehind' hbehind hend
  have hoffset : g.scanner.offset = source.length := by
    rw [Front.extent, hrest, List.length_nil, Nat.add_zero] at hextent'
    exact hextent'.trans hextent
  refine ⟨hend, ?_⟩
  rw [← hrest, ← hoffset]

/-- Where reading a program gets stuck, cutting the text gets stuck as well. -/
theorem stuck?_of_source {source : List Char} {front g : Front} {e : Stuck}
    (h : Parse.source source front = .error (.stuck e) g) :
  (Scanner.ofList source).remainder.stuck? = some e
  := by
  obtain hload | ⟨_, f, hload, hprogram⟩ := bind_eq_error.1 h
  · apply Front.stuck?_of_advance hload
  · obtain ⟨ts, f₁, hreach, hfault, -⟩ := (predictive_program f).of_eq_error hprogram
    rw [← (load_eq_ok hload).2.2, ← hreach.keeps.2.2]
    apply Front.stuck?_of_advance hfault.advance_of_stuck

/-- A numeral that is refused as too long is one of the tokens of the text. -/
theorem exists_long_of_source {source : List Char} {front g : Front} {n : Nat}
    (h : Parse.source source front = .error (.numeralTooLong n) g) :
  ∃ t ∈ (Scanner.ofList source).remainder.tokens, ¬ t.Short
  := by
  obtain hload | ⟨_, f, hload, hprogram⟩ := bind_eq_error.1 h
  · obtain ⟨_, ⟨⟩⟩ := advance_eq_error hload
  · obtain ⟨ts, f₁, hreach, hfault, -⟩ := (predictive_program f).of_eq_error hprogram
    cases hfault with
    | told he => exact absurd he id
    | refused view he _ =>
      obtain ⟨digits, rfl, rfl, hlong⟩ := he
      refine ⟨.number digits, ?_, Nat.not_le.2 hlong⟩
      have hahead : (Scanner.ofList source).remainder.tokens = ts ++ f₁.ahead :=
        (Front.ahead_of_advance hload).symm.trans hreach.ahead_eq
      rw [hahead, Front.ahead, view]
      simp

end Parse

/-! ### Reading and cutting -/

namespace Parse

/-- What reading comes to, without the front where it ends. -/
def outcome {α : Type} : EStateM.Result SyntaxError Front α → Except SyntaxError α
  | .ok a _ => .ok a
  | .error e _ => .error e

/-- A value is the outcome whatever front it comes with. -/
theorem outcome_eq_ok_iff {α : Type} {r : EStateM.Result SyntaxError Front α} {a : α} :
  outcome r = .ok a ↔ ∃ g, r = .ok a g
  := by cases r <;> simp [outcome]

theorem outcome_eq_error_iff {α : Type} {r : EStateM.Result SyntaxError Front α}
    {e : SyntaxError} :
  outcome r = .error e ↔ ∃ g, r = .error e g
  := by cases r <;> simp [outcome]

/-- What has been read before has no part in what a text is read as. -/
theorem outcome_source (source : String) (front : Front) :
  outcome (Parse.source source.toList front) = parse source
  := by
  have hparse : parse source = outcome (Parse.source source.toList .empty) := by
    rw [parse]
    cases Parse.source source.toList .empty <;> rfl
  rw [hparse, Parse.source]
  cases hload : load source.toList front with
  | ok _ f =>
    have hload' : load source.toList .empty = .ok () f := by
      rw [load, advance] at hload ⊢
      split at hload <;> simp_all
    rw [bind_of_ok hload, bind_of_ok hload']
  | error e f =>
    obtain ⟨g, hload'⟩ : ∃ g, load source.toList .empty = .error e g := by
      rw [load, advance] at hload ⊢
      split at hload <;> simp_all
    rw [bind_of_error hload, bind_of_error hload', outcome, outcome]

/-- What a text is read as, it is read as from any front. -/
theorem exists_source_of_ok {source : String} {p : Program} (front : Front)
    (h : parse source = .ok p) :
  ∃ g, Parse.source source.toList front = .ok p g
  := outcome_eq_ok_iff.1 ((outcome_source source front).trans h)

/-- What is wrong with a text is wrong with it from any front. -/
theorem exists_source_of_error {source : String} {e : SyntaxError} (front : Front)
    (h : parse source = .error e) :
  ∃ g, Parse.source source.toList front = .error e g
  := outcome_eq_error_iff.1 ((outcome_source source front).trans h)

/-- Texts of the same tokens are read alike. -/
theorem parse_eq_of_tokenize {source source' : String} {ts : List Token}
    (h : tokenize source = .ok ts) (h' : tokenize source' = .ok ts) :
  parse source = parse source'
  := by
  rw [tokenize_eq_ok_iff] at h h'
  obtain ⟨f, hload, hf⟩ := (exists_load_iff .empty).2 h
  obtain ⟨f', hload', hf'⟩ := (exists_load_iff .empty).2 h'
  obtain ⟨hok, herror⟩ := (predictive_program f).eq_of_shows hf hf'
  rw [← outcome_source source .empty, ← outcome_source source' .empty, Parse.source,
    Parse.source, bind_of_ok hload, bind_of_ok hload']
  cases hrun : program f with
  | ok p g =>
    obtain ⟨g', hrun'⟩ := hok p g hrun
    rw [hrun', outcome, outcome]
  | error e g =>
    obtain ⟨g', hrun'⟩ := herror e g hrun
    rw [hrun', outcome, outcome]

end Parse

/-- Bringing tokens into view by need comes to the same as cutting the whole text into
tokens first, whatever has been read before: a program is read up to the end of the text,
reading is stuck only where cutting is, and what stands between the tokens never matters. -/
theorem source_agrees_with_tokenize (source : String) (front : Front) :
  (∀ p g, Parse.source source.toList front = .ok p g →
      (∃ ts, tokenize source = .ok ts) ∧ g.next? = none
        ∧ g.scanner = ⟨[], source.length⟩)
    ∧ (∀ e g, Parse.source source.toList front = .error (.stuck e) g →
        tokenize source = .error e)
    ∧ ∀ source' front' ts, tokenize source = .ok ts → tokenize source' = .ok ts →
        Parse.outcome (Parse.source source.toList front)
          = Parse.outcome (Parse.source source'.toList front')
  := by
  refine ⟨fun p g h => ?_, fun e g h => ?_, fun source' front' ts h h' => ?_⟩
  · have hparse : parse source = .ok p := by
      rw [← Parse.outcome_source source front, h, Parse.outcome]
    obtain ⟨ts, hcut, -⟩ := exists_derives_of_parse hparse
    obtain ⟨hend, hscanner⟩ := Parse.scanner_of_source h
    exact ⟨⟨ts, hcut⟩, hend, by rw [hscanner, String.length_toList]⟩
  · apply tokenize_eq_error_iff.2 (Parse.stuck?_of_source h)
  · rw [Parse.outcome_source, Parse.outcome_source]
    apply Parse.parse_eq_of_tokenize h h'

/-- A text that is parsed, one at whose second character reading is stuck, and two texts with the
same tokens. -/
theorem source_agrees_with_tokenize_samples :
  (∃ g, Parse.source sampleSource.toList .empty = .ok sampleProgram g ∧ g.next? = none
      ∧ g.scanner = ⟨[], sampleSource.length⟩)
    ∧ Parse.source ";@".toList .empty
      = .error (.stuck ⟨'@', 1⟩) ⟨some (.delimiter .semicolon), ⟨['@'], 1⟩⟩
    ∧ tokenize ";@" = .error ⟨'@', 1⟩
    ∧ tokenize sampleSource = .ok sampleTokens ∧ tokenize "x=((01)) ;" = .ok sampleTokens
    ∧ Parse.outcome (Parse.source sampleSource.toList .empty)
      = Parse.outcome (Parse.source "x=((01)) ;".toList .empty)
  := by
  have hread : ∃ g, Parse.source sampleSource.toList .empty = .ok sampleProgram g := by
    have hparse := parse_sampleSource
    rw [parse] at hparse
    split at hparse
    · next p g hsource =>
      cases hparse
      exact ⟨g, hsource⟩
    · cases hparse
  obtain ⟨g, hread⟩ := hread
  have hstuck : Parse.source ";@".toList .empty
      = .error (.stuck ⟨'@', 1⟩) ⟨some (.delimiter .semicolon), ⟨['@'], 1⟩⟩ := by
    with_unfolding_all rfl
  have hcut : tokenize "x=((01)) ;" = .ok sampleTokens :=
    tokenize_eq_ok_iff.2 (.token rfl (.token rfl (.token rfl (.token rfl (.token rfl (.token rfl
      (.token rfl (.skip rfl (.token rfl .nil)))))))))
  obtain ⟨hok, -, hlayout⟩ := source_agrees_with_tokenize sampleSource .empty
  exact ⟨⟨g, hread, (hok _ g hread).2⟩, hstuck,
    (source_agrees_with_tokenize ";@" .empty).2.1 _ _ hstuck, tokenize_sampleSource, hcut,
    hlayout _ .empty _ tokenize_sampleSource hcut⟩

end Letter
