import Letter.Proofs.Session.Balance
import Letter.Proofs.Session.Verbose

/-!
# Lines and entries

The lines that are typed fall into stretches, one for each entry: the first lines that are left,
up to the first one after which no more braces are open.  Braces are counted in each line in
front of its first two slashes in a row.  A line that asks to leave does so in front of a stretch,
and inside of one it is a line like others.

A dialogue does not answer an entry that has no text or begins with two slashes.  There is no code
in such an entry, since the first line of an entry with more lines than one opens a brace in front
of its first two slashes.

Main statement: `entries_stretches`.
-/

namespace Letter

/-! ### Braces in lines -/

/-- The part of a line in front of its first two slashes in a row. -/
def codePart : List Char → List Char
  | [] => []
  | '/' :: '/' :: _ => []
  | c :: s => c :: codePart s

/-- The number of braces that a line opens in front of its first two slashes in a row, beyond
those that it closes there. -/
def opened (line : String) : Int :=
  ((codePart line.toList).count '{' : Int) - (codePart line.toList).count '}'

/-- The number of braces that lines open beyond those that they close. -/
def allOpened (lines : List String) : Int := (lines.map opened).sum

/-- A further line opens what it opens by itself. -/
theorem allOpened_concat (lines : List String) (line : String) :
  allOpened (lines ++ [line]) = allOpened lines + opened line
  := by simp [allOpened]

/-- In a line the text without line comments is what stands in front of the first one. -/
theorem uncommented_eq_codePart {s : List Char} (h : '\n' ∉ s) :
  uncommented false s = codePart s
  := by
  fun_induction codePart s with
  | case1 => rfl
  | case2 s =>
    have hcomment := @uncommented_lineComment s [] (by simp_all) nofun
    rwa [List.append_nil] at hcomment
  | case3 c s hc ih =>
    rw [List.mem_cons, not_or] at h
    rw [uncommented.eq_5 _ _ hc, ih h.2]

/-- The balance of a line is what it opens, for a comment in it goes up to its end. -/
theorem braceBalance_eq_opened {line : String} (h : '\n' ∉ line.toList) :
  braceBalance line = opened line
  := by rw [braceBalance, uncommented_eq_codePart h, opened]

theorem codePart_subset (s : List Char) :
  codePart s ⊆ s
  := by
  fun_induction codePart s with
  | case1 => exact List.Subset.refl _
  | case2 s => exact List.nil_subset _
  | case3 c s hc ih => exact List.cons_subset_cons c ih

/-- In front of two slashes, what holds no slash is the part that counts. -/
theorem codePart_append {a : List Char} (h : '/' ∉ a) (s : List Char) :
  codePart (a ++ '/' :: '/' :: s) = a
  := by
  induction a with
  | nil => rfl
  | cons c a ih =>
    rw [List.mem_cons, not_or] at h
    rw [List.cons_append, codePart.eq_3, ih h.2]
    rintro r rfl
    exact absurd rfl h.1

/-- A line that opens braces has one in front of its first two slashes. -/
theorem mem_codePart_of_opened {line : String} (h : 0 < opened line) :
  '{' ∈ codePart line.toList
  := by
  rw [opened] at h
  exact List.count_pos_iff.1 (by omega)

/-! ### Stretches of lines -/

/-- The text of an entry with some lines. -/
def entryText (lines : List String) : String := trimmed ("\n".intercalate lines)

/-- Lines that make up an entry: the first one does not ask to leave, they open no more braces
than they close, and fewer of the lines would open more. -/
structure Stretch (lines : List String) : Prop where
  nonempty : lines ≠ []
  stays : ∀ first ∈ lines.head?, isFarewell first = false
  balanced : allOpened lines ≤ 0
  shortest : ∀ before, before <+: lines → before ≠ [] → before ≠ lines → 0 < allOpened before

/-- Lines of an entry that has not ended. -/
structure Begun (lines : List String) : Prop where
  stays : ∀ first ∈ lines.head?, isFarewell first = false
  opens : ∀ before, before <+: lines → before ≠ [] → 0 < allOpened before

theorem Begun.nil : Begun [] where
  stays := nofun
  opens _ h hne := absurd (List.prefix_nil.1 h) hne

/-- Lines do not begin by asking to leave if those in front of the last one do not, nor the last one
does where it is the first. -/
theorem stays_concat_iff {lines : List String} {line : String} :
  (∀ first ∈ (lines ++ [line]).head?, isFarewell first = false)
    ↔ (∀ first ∈ lines.head?, isFarewell first = false)
      ∧ ¬ (isFarewell line = true ∧ lines = [])
  := by cases lines <;> simp

namespace Begun

variable {lines : List String} {line : String}

/-- With a line after which braces are open, an entry goes on. -/
theorem concat (h : Begun lines) (hstays : ¬ (isFarewell line = true ∧ lines = []))
    (hopen : 0 < allOpened (lines ++ [line])) :
  Begun (lines ++ [line])
  where
  stays := stays_concat_iff.2 ⟨h.stays, hstays⟩
  opens before hbefore hne := by
    obtain rfl | hbefore := List.prefix_concat_iff.1 hbefore
    · exact hopen
    · exact h.opens before hbefore hne

/-- With the first line after which no braces are open, an entry ends. -/
theorem stretch (h : Begun lines) (hstays : ¬ (isFarewell line = true ∧ lines = []))
    (hclosed : allOpened (lines ++ [line]) ≤ 0) :
  Stretch (lines ++ [line])
  where
  nonempty := by simp
  stays := stays_concat_iff.2 ⟨h.stays, hstays⟩
  balanced := hclosed
  shortest before hbefore hne hproper := by
    obtain rfl | hbefore := List.prefix_concat_iff.1 hbefore
    · exact absurd rfl hproper
    · exact h.opens before hbefore hne

/-- Without its last line, an entry that has not ended has not ended. -/
theorem of_concat (h : Begun (lines ++ [line])) :
  Begun lines ∧ ¬ (isFarewell line = true ∧ lines = []) ∧ 0 < allOpened (lines ++ [line])
  := by
  obtain ⟨hfirst, hstays⟩ := stays_concat_iff.1 h.stays
  refine ⟨⟨hfirst, fun before hbefore => ?_⟩, hstays, ?_⟩
  · exact h.opens before (hbefore.trans (List.prefix_append _ _))
  · exact h.opens _ (List.prefix_refl _) (by simp)

end Begun

/-- A stretch is an entry that has not ended, and one line more. -/
theorem Stretch.exists_begun {lines : List String} (h : Stretch lines) :
  ∃ begun line, lines = begun ++ [line] ∧ Begun begun ∧ ¬ (isFarewell line = true ∧ begun = [])
  := by
  obtain hnil | ⟨begun, line, hconcat⟩ := List.eq_nil_or_concat lines
  · exact absurd hnil h.nonempty
  rw [List.concat_eq_append] at hconcat
  subst hconcat
  obtain ⟨hfirst, hstays⟩ := stays_concat_iff.1 h.stays
  refine ⟨begun, line, rfl, ⟨hfirst, fun before hbefore hne => ?_⟩, hstays⟩
  apply h.shortest before (hbefore.trans (List.prefix_append _ _)) hne
  rintro rfl
  exact absurd hbefore.length_le (by simp)

/-! ### Entries -/

/-- What asks for some lines of an entry. -/
def prompts : Nat → List String
  | 0 => []
  | n + 1 => ">>> " :: List.replicate n "... "

namespace Pending

/-- An entry of which some lines have been typed. -/
def typed (lines : List String) : Pending := ⟨lines, allOpened lines⟩

/-- One prompt is shown for each line, and one for the next. -/
theorem prompts_typed (lines : List String) :
  prompts lines.length ++ [(typed lines).prompt] = prompts (lines.length + 1)
  := by
  cases lines with
  | nil => rfl
  | cons l ls =>
    rw [List.length_cons, prompts, prompts, List.cons_append]
    exact congrArg _ List.replicate_succ'.symm

/-- A line leaves, completes an entry or asks for more, by what all lines have opened. -/
theorem add_typed {line : String} (h : '\n' ∉ line.toList) (lines : List String) :
  (typed lines).add line
    = if isFarewell line = true ∧ lines = [] then .leave
      else if allOpened (lines ++ [line]) ≤ 0 then .entry (entryText (lines ++ [line]))
      else .more (typed (lines ++ [line]))
  := by
  simp only [add, typed, braceBalance_eq_opened h, allOpened_concat, entryText,
    Bool.and_eq_true, List.isEmpty_iff]

end Pending

/-- What is left behind some stretches: nothing, a line that asks to leave, or lines of an entry
that does not end.  With it go the entries that are read from there. -/
inductive Stops : List String → List (Entry × String) → Prop where
  | nothing : Stops [] []
  | farewell {line : String} (unread : List String) (h : isFarewell line = true) :
      Stops (line :: unread) ((.leave, ">>> ") :: entries (unread.map .line))
  | unfinished {lines : List String} (hne : lines ≠ []) (h : Begun lines) :
      Stops lines [(.ended, String.join (prompts (lines.length + 1)))]

/-- The entry that is read from a stretch of lines, with what asks for them. -/
def readStretch (lines : List String) : Entry × String :=
  (.text (entryText lines), String.join (prompts lines.length))

/-- The lines of an entry that has begun and those that follow fall into stretches, and each
stretch is an entry. -/
theorem exists_stretches {lines : List String} (hlines : ∀ l ∈ lines, '\n' ∉ l.toList)
    {begun : List String} (hbegun : Begun begun) :
  ∃ (stretches : List (List String)) (left : List String) (last : List (Entry × String)),
    begun ++ lines = stretches.flatten ++ left
    ∧ (∀ ls ∈ stretches, Stretch ls) ∧ Stops left last
    ∧ entriesFrom (.typed begun) (String.join (prompts begun.length)) (lines.map .line)
      = stretches.map readStretch ++ last
  := by
  have hprompt (ls : List String) : String.join (prompts ls.length) ++ (Pending.typed ls).prompt
      = String.join (prompts (ls.length + 1)) := by
    rw [← Pending.prompts_typed]
    simp
  -- The lines of the entry that has begun are all that is known of the lines before, so that the
  -- induction is on the lines that follow, whatever has begun.
  induction lines generalizing begun with
  | nil =>
    rw [List.map_nil, entriesFrom, hprompt, List.append_nil]
    by_cases hne : begun = []
    · subst hne
      exact ⟨[], [], [], rfl, nofun, .nothing, rfl⟩
    · refine ⟨[], begun, _, rfl, nofun, .unfinished hne hbegun, ?_⟩
      rw [if_neg (by simpa [Pending.typed] using hne)]
      rfl
  | cons line lines ih =>
    rw [List.forall_mem_cons] at hlines
    rw [List.map_cons, entriesFrom, Pending.add_typed hlines.1, hprompt]
    by_cases hleave : isFarewell line = true ∧ begun = []
    · obtain ⟨hfarewell, rfl⟩ := hleave
      rw [if_pos ⟨hfarewell, rfl⟩]
      exact ⟨[], line :: lines, _, rfl, nofun, .farewell lines hfarewell, rfl⟩
    · rw [if_neg hleave]
      by_cases hclosed : allOpened (begun ++ [line]) ≤ 0
      · rw [if_pos hclosed]
        obtain ⟨stretches, left, last, hsplit, hstretches, hstops, hentries⟩ := ih hlines.2 .nil
        refine ⟨(begun ++ [line]) :: stretches, left, last, ?_, ?_, hstops, ?_⟩
        · rw [List.flatten_cons, List.append_assoc _ stretches.flatten, ← hsplit]
          simp
        · exact List.forall_mem_cons.2 ⟨hbegun.stretch hleave hclosed, hstretches⟩
        · rw [List.map_cons, List.cons_append, ← hentries, readStretch, List.length_append]
          rfl
      · rw [if_neg hclosed]
        obtain ⟨stretches, left, last, hsplit, hstretches, hstops, hentries⟩ :=
          ih hlines.2 (hbegun.concat hleave (Int.not_le.1 hclosed))
        refine ⟨stretches, left, last, ?_, hstretches, hstops, ?_⟩
        · rw [← hsplit, List.append_assoc]
          rfl
        · rw [← hentries, List.length_append]
          rfl

/-! ### Entries without code -/

/-- A text is blanks, what is left of it without them at its ends, and blanks. -/
theorem exists_trimBlanks (s : List Char) :
  ∃ a b, s = a ++ (trimBlanks s ++ b) ∧ (∀ c ∈ a, isBlank c = true) ∧ ∀ c ∈ b, isBlank c = true
  := by
  refine ⟨s.takeWhile isBlank, ((s.dropWhile isBlank).reverse.takeWhile isBlank).reverse, ?_, ?_, ?_⟩
  · rw [trimBlanks, trim, ← List.reverse_append, List.takeWhile_append_dropWhile,
      List.reverse_reverse, List.takeWhile_append_dropWhile]
  · exact fun c hc => (List.mem_takeWhile_imp hc)
  · exact fun c hc => (List.mem_takeWhile_imp (List.mem_reverse.1 hc))

/-- A line comment has no tokens, also behind blanks. -/
theorem Cut.comment {a inside : List Char} (ha : ∀ c ∈ a, isBlank c = true) (h : '\n' ∉ inside) :
  Cut (a ++ '/' :: '/' :: inside) []
  := by
  have hcomment := @Rule.first?_lineComment inside [] h nofun
  rw [List.append_nil] at hcomment
  exact (Cut.skip hcomment .nil).gap (.blanks ha)

namespace Stretch

variable {lines : List String}

/-- A stretch of more lines than one does not begin with a line comment. -/
theorem length_eq_one_of_comment (h : Stretch lines) {a r : List Char}
    (ha : ∀ c ∈ a, isBlank c = true)
    (hcomment : ("\n".intercalate lines).toList = a ++ '/' :: '/' :: r) :
  ∃ line, lines = [line]
  := by
  obtain ⟨first, later, rfl⟩ := List.exists_cons_of_ne_nil h.nonempty
  by_cases hlater : later = []
  · exact ⟨first, by rw [hlater]⟩
  exfalso
  have hopened : 0 < opened first := by
    have hfirst := h.shortest [first] (by simp) (by simp) (by simpa using Ne.symm hlater)
    simpa [allOpened] using hfirst
  have hbrace := mem_codePart_of_opened hopened
  have hslash : '/' ∉ a := fun hc => absurd (ha _ hc) (by decide)
  have hbraceless : '{' ∉ a ++ ['/', '/'] := by
    rw [List.mem_append, not_or]
    exact ⟨fun hc => absurd (ha _ hc) (by decide), by decide⟩
  have hfirst : first.toList <+: a ++ ['/', '/'] ++ r := by
    rw [List.append_assoc]
    change _ <+: a ++ '/' :: '/' :: r
    rw [← hcomment, String.intercalate_cons_of_ne_nil hlater, String.toList_append,
      String.toList_append, List.append_assoc]
    exact List.prefix_append _ _
  -- The brace stands behind the two slashes, so that these are the first ones of the line.
  obtain hshort | ⟨inside, hlong⟩ :=
    List.prefix_or_prefix_of_prefix hfirst (List.prefix_append _ r)
  · exact hbraceless (hshort.subset (codePart_subset _ hbrace))
  · rw [← hlong, List.append_assoc] at hbrace
    change '{' ∈ codePart (a ++ '/' :: '/' :: inside) at hbrace
    rw [codePart_append hslash] at hbrace
    exact hbraceless (List.mem_append_left _ hbrace)

/-- An entry that has no text or begins with two slashes has no tokens, and neither have its
lines. -/
theorem tokenize_of_skipped (h : Stretch lines) (hlines : ∀ l ∈ lines, '\n' ∉ l.toList)
    (hskipped : (entryText lines).toList = [] ∨ (entryText lines).toList.take 2 = ['/', '/']) :
  tokenize (entryText lines) = .ok [] ∧ tokenize ("\n".intercalate lines) = .ok []
  := by
  obtain ⟨a, b, hsplit, ha, hb⟩ := exists_trimBlanks ("\n".intercalate lines).toList
  have htext : trimBlanks ("\n".intercalate lines).toList = (entryText lines).toList := by
    rw [entryText, trimmed, String.toList_ofList]
  rw [htext] at hsplit
  rw [tokenize_eq_ok_iff, tokenize_eq_ok_iff, hsplit]
  obtain hempty | hslashes := hskipped
  · rw [hempty, List.nil_append]
    have hblanks := Cut.nil.gap ((Gap.blanks ha).append (.blanks hb))
    rw [List.append_nil] at hblanks
    exact ⟨.nil, hblanks⟩
  · obtain ⟨inside, hcomment⟩ : ∃ inside, (entryText lines).toList = '/' :: '/' :: inside := by
      refine ⟨(entryText lines).toList.drop 2, ?_⟩
      rw [← List.take_append_drop 2 (entryText lines).toList, hslashes]
      rfl
    rw [hcomment] at hsplit ⊢
    obtain ⟨line, rfl⟩ := h.length_eq_one_of_comment ha hsplit
    have hnewline := hlines line List.mem_cons_self
    rw [String.intercalate_singleton] at hsplit
    rw [hsplit] at hnewline
    simp only [List.cons_append, List.mem_append, List.mem_cons, not_or] at hnewline
    obtain ⟨-, -, -, hinside, hend⟩ := hnewline
    refine ⟨?_, ?_⟩
    · exact Cut.comment (a := []) nofun hinside
    · exact Cut.comment ha (by simp [hinside, hend])

end Stretch

/-! ### Stretches in a dialogue -/

namespace Session

variable {s s' s'' : Session}

/-- What is heard of some lines and then of others is heard of all of them. -/
theorem Hears.append {ls ls' : List String} {told told' : List Event} (h : s.Hears ls told s')
    (later : s'.Hears ls' told' s'') :
  s.Hears (ls ++ ls') (told ++ told') s''
  := by
  induction h with
  | nil => exact later
  | cons first _ ih =>
    rw [List.cons_append, List.cons_append, List.append_assoc]
    exact .cons first (ih later)

/-- A program, and what is none, is answered by something. -/
theorem answerProgram_ne_nil (s : Session) (source : String) :
  (s.answerProgram source).1 ≠ []
  := by
  cases hparse : parse source with
  | ok p =>
    obtain ⟨front, hread⟩ := Parse.exists_source_of_ok s.front hparse
    rw [answerProgram, hread]
    exact List.cons_ne_nil _ _
  | error e =>
    rw [answerProgram_of_parse_error hparse]
    exact List.cons_ne_nil _ _

/-- An entry to which nothing is answered is one that is passed over. -/
theorem skipped_of_respond {source : String} (h : (s.respond source).1 = []) :
  source.toList = [] ∨ source.toList.take 2 = ['/', '/']
  := by
  by_contra hnot
  obtain ⟨hnonempty, hcode⟩ := not_or.1 hnot
  by_cases hcommand : lowercase source.toList = "verbose-mode".toList
  · rw [respond_of_command hcommand] at h
    exact List.cons_ne_nil _ _ h
  · have hsource : AsksProgram source := ⟨hnonempty, hcode, hcommand⟩
    cases hverbose : s.verbose with
    | false =>
      rw [respond_of_quiet hverbose hsource] at h
      exact s.answerProgram_ne_nil source h
    | true =>
      obtain ⟨hcut, hstuck⟩ := respond_of_verbose hverbose hsource
      cases htokens : tokenize source with
      | ok ts =>
        rw [hcut ts htokens] at h
        exact List.cons_ne_nil _ _ h
      | error e =>
        rw [hstuck e htokens] at h
        exact List.cons_ne_nil _ _ h

/-- Lines of an entry that has not ended are asked for, and nothing is answered. -/
theorem hears_of_begun {lines : List String} (h : Begun lines)
    (hlines : ∀ l ∈ lines, '\n' ∉ l.toList) (hs : s.pending = .empty) :
  s.Hears lines ((prompts lines.length).map .print) { s with pending := .typed lines }
  := by
  induction lines using List.reverseRecOn with
  | nil =>
    have hsame : { s with pending := .typed [] } = s := by
      cases s
      cases hs
      rfl
    rw [hsame]
    exact .nil
  | append_singleton lines line ih =>
    obtain ⟨hbegun, hstays, hopen⟩ := h.of_concat
    rw [List.forall_mem_append, List.forall_mem_singleton] at hlines
    have hhear : hear { s with pending := .typed lines } line
        = ([], some { s with pending := .typed (lines ++ [line]) }) := by
      rw [hear, Pending.add_typed hlines.2, if_neg hstays, if_neg (Int.not_le.2 hopen)]
    have hall := (ih hbegun hlines.1).append (.cons hhear .nil)
    rw [List.length_append, List.length_singleton, ← Pending.prompts_typed, List.map_append]
    exact hall

/-- To the lines of a stretch the dialogue answers what it answers to their text. -/
theorem hears_of_stretch {lines : List String} (h : Stretch lines)
    (hlines : ∀ l ∈ lines, '\n' ∉ l.toList) (hs : s.pending = .empty) :
  s.Hears lines ((prompts lines.length).map .print ++ (s.respond (entryText lines)).1)
    (s.respond (entryText lines)).2
  := by
  obtain ⟨begun, line, rfl, hbegun, hstays⟩ := h.exists_begun
  rw [List.forall_mem_append, List.forall_mem_singleton] at hlines
  have hsame : { s with pending := .empty } = s := by
    cases s
    cases hs
    rfl
  have hhear : hear { s with pending := .typed begun } line
      = ((s.respond (entryText (begun ++ [line]))).1,
        some (s.respond (entryText (begun ++ [line]))).2) := by
    rw [hear, Pending.add_typed hlines.2, if_neg hstays, if_pos h.balanced]
    dsimp only
    rw [hsame]
  have hall := (hears_of_begun hbegun hlines.1 hs).append (.cons hhear .nil)
  rw [List.length_append, List.length_singleton, ← Pending.prompts_typed, List.map_append,
    List.append_assoc]
  rwa [List.append_nil] at hall

end Session

/-- Lines fall into stretches, one after another, up to a line that asks to leave in front of a
stretch, or to the end.  Each stretch is an entry, and a dialogue that hears the lines of a stretch
answers their text.  If it does not answer, there are no tokens in the stretch.  A dialogue that
hears a line that asks to leave in front of a stretch ends. -/
theorem entries_stretches {lines : List String} (hlines : ∀ l ∈ lines, '\n' ∉ l.toList) :
  (∃ (stretches : List (List String)) (left : List String) (last : List (Entry × String)),
      lines = stretches.flatten ++ left ∧ (∀ ls ∈ stretches, Stretch ls) ∧ Stops left last
      ∧ entries (lines.map .line) = stretches.map readStretch ++ last
      ∧ ∀ ls ∈ stretches, ∀ s : Session, s.pending = .empty →
        s.Hears ls ((prompts ls.length).map .print ++ (s.respond (entryText ls)).1)
            (s.respond (entryText ls)).2
          ∧ ((s.respond (entryText ls)).1 = [] →
            tokenize (entryText ls) = .ok [] ∧ tokenize ("\n".intercalate ls) = .ok []))
    ∧ ∀ s : Session, s.pending = .empty → ∀ line, isFarewell line = true →
      s.hear line = (Session.farewell, none)
  := by
  refine ⟨?_, fun s hs line hfarewell => ?_⟩
  · obtain ⟨stretches, left, last, hsplit, hstretches, hstops, hentries⟩ :=
      exists_stretches hlines .nil
    refine ⟨stretches, left, last, hsplit, hstretches, hstops, hentries, fun ls hls s hs => ?_⟩
    have hnewline : ∀ l ∈ ls, '\n' ∉ l.toList := by
      intro l hl
      apply hlines
      rw [← List.nil_append lines, hsplit]
      exact List.mem_append_left _ (List.mem_flatten_of_mem hls hl)
    refine ⟨Session.hears_of_stretch (hstretches ls hls) hnewline hs, fun hnone => ?_⟩
    exact (hstretches ls hls).tokenize_of_skipped hnewline (Session.skipped_of_respond hnone)
  · have hleave : s.pending.add line = .leave :=
      Pending.add_eq_leave_iff.2 ⟨hfarewell, congrArg Pending.lines hs⟩
    rw [Session.hear, hleave]

/-- Lines with a word that does not end the dialogue, and with one that does. -/
def sampleLines : List String := ["\x7b // \x7d", "quit", "\x7d", "  // 1;", " exit", "1;"]

/-- Lines that make a block with a farewell inside it, a comment, a farewell and a program. -/
theorem entries_stretches_sampleLines :
  (∀ l ∈ sampleLines, '\n' ∉ l.toList)
    ∧ entries (sampleLines.map .line)
      = [(.text "\x7b // \x7d\nquit\n\x7d", ">>> ... ... "), (.text "// 1;", ">>> "),
        (.leave, ">>> "), (.text "1;", ">>> ")]
    ∧ ∃ (stretches : List (List String)) (left : List String) (last : List (Entry × String)),
      sampleLines = stretches.flatten ++ left ∧ (∀ ls ∈ stretches, Stretch ls) ∧ Stops left last
      ∧ entries (sampleLines.map .line) = stretches.map readStretch ++ last
  := by
  have hlines : ∀ l ∈ sampleLines, '\n' ∉ l.toList := by decide
  obtain ⟨⟨stretches, left, last, hsplit, hstretches, hstops, hentries, -⟩, -⟩ :=
    entries_stretches hlines
  exact ⟨hlines, by decide +kernel, stretches, left, last, hsplit, hstretches, hstops, hentries⟩

end Letter
