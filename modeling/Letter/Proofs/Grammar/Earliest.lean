import Mathlib
import Letter.Proofs.Grammar.Completion
import Letter.Proofs.Grammar.Lazy
import Letter.Proofs.Printing.Spells

/-!
# Errors are told at the earliest token

A text is refused at the first token that cannot stand where it stands.  The tokens before it
are the beginning of some program, and no program begins with them and that token.  An
assignment to something that is no target is refused one token later, once the operator of
the assignment has been taken.  If there is no such token and the text is no program, then
it is the beginning of one; this is what it means that the end of the input is unexpected.
-/

namespace Letter

/-! ### Tokens of programs -/

/-- The tokens are those of a text that is read as a program. -/
def Accepted (ts : List Token) : Prop :=
  ∃ source p, tokenize source = .ok ts ∧ parse source = .ok p

/-- Some further tokens make the tokens those of a program. -/
def Viable (ts : List Token) : Prop := ∃ us, Accepted (ts ++ us)

/-- Valid tokens can be written one after another. -/
theorem exists_cut {ts : List Token} (h : ∀ t ∈ ts, t.Valid) :
  ∃ s, Cut s ts
  := by
  induction ts with
  | nil => exact ⟨[], .nil⟩
  | cons t ts ih =>
    rw [List.forall_mem_cons] at h
    obtain ⟨s, hs⟩ := ih h.2
    exact ⟨_, Cut.text h.1 (t.apart_blank (by decide) s) hs.space⟩

/-- Tokens that form a program, and can stand in a text, are those of a text that is parsed. -/
theorem accepted_of_forms {ts : List Token} (h : Forms .program ts)
    (hts : ∀ t ∈ ts, t.Valid ∧ t.Short) :
  Accepted ts
  := by
  obtain ⟨p, h⟩ := h
  obtain ⟨s, hs⟩ := exists_cut fun t ht => (hts t ht).1
  have hcut : tokenize (String.ofList s) = .ok ts := by
    rwa [tokenize_eq_ok_iff, String.toList_ofList]
  exact ⟨_, p, hcut, parse_eq_ok_iff.2 ⟨ts, hcut, h, fun t ht => (hts t ht).2⟩⟩

/-- Tokens that begin a program, and can stand in a text, can be continued to a text that is parsed.
-/
theorem viable_of_begins {ts : List Token} (h : Begins (Forms .program) ts)
    (hts : ∀ t ∈ ts, t.Valid ∧ t.Short) :
  Viable ts
  := by
  obtain ⟨us, hus, h⟩ := h
  exact ⟨us, accepted_of_forms h (List.forall_mem_append.2 ⟨hts, hus⟩)⟩

/-- Whether tokens are those of a program does not depend on the text. -/
theorem accepted_iff {source : String} {ts : List Token} (hcut : tokenize source = .ok ts) :
  Accepted ts ↔ ∃ p, parse source = .ok p
  := by
  constructor
  · rintro ⟨source', p, hcut', hparse⟩
    exact ⟨p, (Parse.parse_eq_of_tokenize hcut hcut').trans hparse⟩
  · rintro ⟨p, hparse⟩
    exact ⟨source, p, hcut, hparse⟩

/-! ### Where an error is met -/

namespace Front

/-- An error that is met at a front is not met again behind a token there. -/
theorem Fault.not_later {f g g' h : Front} {e : SyntaxError} {t : Token} {ts : List Token}
    (hf : f.Fault e h) (view : f.next? = some t) (advance : Parse.advance f = .ok () g)
    (later : g.Reach ts g') :
  ¬ g'.Fault e h
  := by
  intro hf'
  have := size_advance view advance
  have := later.size_le
  cases hf with
  | told he =>
    cases hf' with
    | told _ => omega
    | refused _ he' _ => exact he.not_refuses _ he'
    | stuck _ _ => exact he
  | refused _ he hadv =>
    rw [advance] at hadv
    cases hadv
    cases hf' with
    | told he' => exact he'.not_refuses _ he
    | refused view' _ advance' =>
      have := size_advance view' advance'
      omega
    | stuck _ _ => exact he
  | stuck _ hadv =>
    rw [advance] at hadv
    cases hadv

/-- An error is met behind the same tokens, however it is come to. -/
theorem Reach.eq_of_fault {f g g' h : Front} {e : SyntaxError} {ts us : List Token}
    (hts : f.Reach ts g) (hg : g.Fault e h) (hus : f.Reach us g') (hg' : g'.Fault e h) :
  ts = us
  := by
  induction hts generalizing us with
  | refl f =>
    cases hus with
    | refl => rfl
    | take view advance later => exact absurd hg' (hg.not_later view advance later)
  | take view advance later ih =>
    cases hus with
    | refl => exact absurd hg (hg'.not_later view advance later)
    | take view' advance' later' =>
      rw [view] at view'
      rw [advance] at advance'
      cases view'
      cases advance'
      rw [ih hg later']

end Front

/-- Where reading ends with an error, the tokens that have been taken are the beginning of
some program, and no program goes on with the token in view. -/
theorem Parse.exists_fault {source : String} {ts : List Token} (hcut : tokenize source = .ok ts)
    {front g : Front} {e : SyntaxError}
    (h : Parse.source source.toList front = .error e g) :
  ∃ f f₁ taken left, Parse.load source.toList front = .ok () f ∧ f.Reach taken f₁
    ∧ f₁.Fault e g ∧ ts = taken ++ left ∧ f₁.Shows left ∧ Begins (Forms .program) taken
    ∧ ∀ t ∈ left.head?, ¬ Viable (taken ++ [t])
  := by
  rw [tokenize_eq_ok_iff] at hcut
  obtain ⟨f, hload, hf⟩ := (exists_load_iff front).2 hcut
  rw [Parse.source, bind_of_ok hload] at h
  obtain ⟨taken, f₁, hreach, hfault, hagain⟩ := (predictive_program f).of_eq_error h
  obtain ⟨taken', f₁', hreach', hfault', hbegins⟩ := keepsTo_program f e g h
  obtain rfl := hreach.eq_of_fault hfault hreach' hfault'
  obtain ⟨left, rfl, hleft⟩ := hreach.exists_shows hf
  refine ⟨f, f₁, taken, left, hload, hreach, hfault, rfl, hleft, hbegins, ?_⟩
  -- a program that went on with the token would be refused there
  rintro t ht ⟨us, source', p, hcut', hparse⟩
  rw [List.append_assoc, tokenize_eq_ok_iff] at hcut'
  obtain ⟨k, hload', hk⟩ := (exists_load_iff .empty).2 hcut'
  obtain ⟨k₁, hreach', hk₁⟩ := hk.exists_reach
  have hview : k₁.next? = f₁.next? := by
    rw [hk₁.next?_eq, hleft.next?_eq]
    exact ht.symm
  obtain ⟨k₂, hfault'⟩ := hfault.exists_of_shows hleft hk₁ hview
  rw [parse, Parse.source, bind_of_ok hload', hagain k k₁ k₂ hreach' hview hfault'] at hparse
  cases hparse

/-! ### The end of the input -/

/-- Whether the message of an error says that the end of the input is unexpected. -/
def SyntaxError.OfEnd (e : SyntaxError) : Prop :=
  "Unexpected end of input".toList <+: e.message.toList

theorem prefix_toList_append {p : List Char} {s : String} (h : p <+: s.toList) (t : String) :
  p <+: (s ++ t).toList
  := by
  rw [String.toList_append]
  apply h.trans (List.prefix_append _ _)

namespace SyntaxError

/-- Whatever else a message begins with, it does not say that the input ends. -/
theorem not_ofEnd {e : SyntaxError} {s : String} (hs : s.toList <+: e.message.toList)
    (h : ¬ s.toList <+: "Unexpected end of input".toList)
    (h' : ¬ "Unexpected end of input".toList <+: s.toList) :
  ¬ e.OfEnd
  := by
  intro he
  obtain hp | hp := List.prefix_or_prefix_of_prefix hs he
  · apply h hp
  · apply h' hp

/-- The errors that are told where nothing is in view are those whose message says so. -/
theorem toldOf_none_iff {e : SyntaxError} :
  e.ToldOf none ↔ e.OfEnd
  := by
  cases e with
  | missingOperand =>
    have hliteral : "Unexpected end of input".toList
        <+: "Unexpected end of input, expected primary expression".toList := by decide
    exact iff_of_true rfl hliteral
  | missingToken expected =>
    have hliteral : "Unexpected end of input".toList
        <+: "Unexpected end of input, expected \"".toList := by decide
    exact iff_of_true rfl (prefix_toList_append (prefix_toList_append hliteral _) _)
  | stuck s =>
    have hmessage : "Unexpected token: \"".toList <+: (stuck s).message.toList :=
      prefix_toList_append (prefix_toList_append (prefix_toList_append List.prefix_rfl _) _) _
    exact iff_of_false id (not_ofEnd hmessage (by decide) (by decide))
  | unexpectedToken found expected =>
    have hmessage : "Unexpected token: \"".toList
        <+: (unexpectedToken found expected).message.toList :=
      prefix_toList_append (prefix_toList_append (prefix_toList_append (prefix_toList_append
        List.prefix_rfl _) _) _) _
    exact iff_of_false nofun (not_ofEnd hmessage (by decide) (by decide))
  | unexpectedOperand found =>
    have hmessage : "Unexpected primary expression: \"".toList
        <+: (unexpectedOperand found).message.toList :=
      prefix_toList_append (prefix_toList_append List.prefix_rfl _) _
    exact iff_of_false nofun (not_ofEnd hmessage (by decide) (by decide))
  | invalidTarget => exact iff_of_false id (not_ofEnd List.prefix_rfl (by decide) (by decide))
  | notLiteral => exact iff_of_false id (not_ofEnd List.prefix_rfl (by decide) (by decide))
  | numeralTooLong digits =>
    have hmessage : "Exceeds the limit (".toList <+: (numeralTooLong digits).message.toList :=
      prefix_toList_append (prefix_toList_append (prefix_toList_append (prefix_toList_append
        List.prefix_rfl _) _) _) _
    exact iff_of_false id (not_ofEnd hmessage (by decide) (by decide))

/-- An error that is told of the end of the input is told of nothing else. -/
theorem ToldOf.eq_none {e : SyntaxError} {view : Option Token} (h : e.ToldOf view)
    (hend : e.ToldOf none) :
  view = none
  := by
  cases e with
  | missingToken _ | missingOperand => exact h
  | unexpectedToken _ _ | unexpectedOperand _ => cases hend
  | _ => exact absurd h id

end SyntaxError

/-! ### The earliest token -/

/-- An error is told of the first token that cannot stand where it stands, or of the operator
of an assignment once it has been taken. -/
theorem Parse.exists_refused {source : String} {ts : List Token}
    (hcut : tokenize source = .ok ts) (hshort : ∀ t ∈ ts, t.Short) {front g : Front}
    {e : SyntaxError} (h : Parse.source source.toList front = .error e g) :
  ∃ f eaten left, Parse.load source.toList front = .ok () f ∧ f.Reach eaten g ∧ g.Shows left
    ∧ ts = eaten ++ left
    ∧ (e.ToldOf left.head? ∧ Viable eaten ∧ (∀ t ∈ left.head?, ¬ Viable (eaten ++ [t]))
      ∨ e = .invalidTarget ∧ ∃ before op, eaten = before ++ [.operator (.assign op)]
        ∧ Viable before ∧ ¬ Viable eaten)
  := by
  obtain ⟨f, f₁, taken, left, hload, hreach, hfault, rfl, hleft, hbegins, hdead⟩ :=
    exists_fault hcut h
  have hvalid := (tokenize_eq_ok_iff.1 hcut).valid
  have hviable : Viable taken := by
    apply viable_of_begins hbegins
    intro t ht
    have ht' : t ∈ taken ++ left := List.mem_append_left _ ht
    exact ⟨hvalid t ht', hshort t ht'⟩
  cases hfault with
  | told he =>
    rw [hleft.next?_eq] at he
    exact ⟨f, taken, left, hload, hreach, hleft, rfl, .inl ⟨he, hviable, hdead⟩⟩
  | @refused _ _ t view he hadv =>
    obtain ⟨left, rfl⟩ : ∃ later, left = t :: later := by
      rw [hleft.next?_eq] at view
      obtain ⟨later, rfl⟩ := List.head?_eq_some_iff.1 view
      exact ⟨later, rfl⟩
    obtain ⟨-, g', hadv', hg⟩ := Front.shows_cons.1 hleft
    rw [hadv] at hadv'
    cases hadv'
    refine ⟨f, taken ++ [t], left, hload, hreach.trans (.one view hadv), hg, by simp, .inr ?_⟩
    cases e with
    | invalidTarget =>
      obtain ⟨op, rfl⟩ := he
      exact ⟨rfl, taken, op, rfl, hviable, hdead _ rfl⟩
    | numeralTooLong n =>
      obtain ⟨digits, rfl, rfl, hlong⟩ := he
      have hle : digits.length ≤ maxDigits := hshort (.number digits) (by simp)
      omega
    | _ => exact absurd he id
  | stuck view hadv =>
    obtain ⟨g', hadv'⟩ := hleft.exists_advance view
    rw [hadv] at hadv'
    cases hadv'

/-- The end of the input is unexpected exactly where the tokens are no program and some
further ones make them one. -/
theorem exists_ofEnd_iff {source : String} {ts : List Token} (hcut : tokenize source = .ok ts)
    (hshort : ∀ t ∈ ts, t.Short) :
  (∃ e, parse source = .error e ∧ e.OfEnd)
    ↔ (∃ us, us ≠ [] ∧ Accepted (ts ++ us)) ∧ ¬ Accepted ts
  := by
  constructor
  · rintro ⟨e, hparse, hend⟩
    rw [← SyntaxError.toldOf_none_iff] at hend
    have hrefused : ¬ Accepted ts := by
      rw [accepted_iff hcut, hparse]
      rintro ⟨p, ⟨⟩⟩
    obtain ⟨g, hsource⟩ := Parse.exists_source_of_error .empty hparse
    obtain ⟨f, eaten, left, -, -, -, rfl, ⟨he, ⟨us, hus⟩, -⟩ | ⟨rfl, -⟩⟩ :=
      Parse.exists_refused hcut hshort hsource
    · obtain rfl := List.head?_eq_none_iff.1 (he.eq_none hend)
      rw [List.append_nil] at hrefused ⊢
      refine ⟨⟨us, ?_, hus⟩, hrefused⟩
      rintro rfl
      rw [List.append_nil] at hus
      exact hrefused hus
    · exact absurd hend id
  · rintro ⟨⟨us, -, hus⟩, hno⟩
    cases hparse : parse source with
    | ok p => exact absurd ((accepted_iff hcut).2 ⟨p, hparse⟩) hno
    | error e =>
      refine ⟨e, rfl, SyntaxError.toldOf_none_iff.1 ?_⟩
      obtain ⟨g, hsource⟩ := Parse.exists_source_of_error .empty hparse
      obtain ⟨f, eaten, left, -, -, -, rfl, ⟨he, -, hdead⟩ | ⟨-, before, op, -, -, hdead⟩⟩ :=
        Parse.exists_refused hcut hshort hsource
      · cases left with
        | nil => exact he
        | cons t later =>
          exact absurd ⟨later ++ us, by simpa using hus⟩ (hdead t rfl)
      · exact absurd ⟨left ++ us, by simpa using hus⟩ hdead

/-- An expression that is no target is refused where the operator of an assignment stands
behind it at the beginning of a text. -/
theorem Parse.source_of_no_target {source : String} {ts us : List Token} {op : AssignOp}
    {l : Expr} (hcut : tokenize source = .ok (ts ++ .operator (.assign op) :: us))
    (hts : Derives ts (.expression (.binary .disjunction) l)) (hshort : ∀ t ∈ ts, t.Short)
    (hl : l.isTarget = false) (front : Front) :
  ∃ g, Parse.source source.toList front = .error .invalidTarget g
  := by
  rw [tokenize_eq_ok_iff] at hcut
  obtain ⟨f, hload, hf⟩ := (exists_load_iff front).2 hcut
  obtain ⟨f₁, hreach, hf₁⟩ := hf.exists_reach
  obtain ⟨hview, g, hadv, -⟩ := Front.shows_cons.1 hf₁
  have hjoins : f₁.joins = assignmentStrength := Front.joins_of_some hview
  have hoperand : disjunction expression f = .ok l f₁ :=
    (hts.completes hreach hshort).done (by rw [hjoins]; decide) (by rw [hjoins]; decide)
  have hpeek : peek assignOp? f₁ = .ok (some op) f₁ := peek_eq_ok.2 ⟨by rw [hview]; rfl, rfl⟩
  have hop : assignOp f₁ = .ok op g := take_eq_ok.2 ⟨_, hview, rfl, hadv⟩
  have hexpression : expression f = .error .invalidTarget g := by
    rw [expression_eq, assignment, bind_of_ok hoperand, bind_of_ok hpeek]
    change (assignOp >>= _) f₁ = _
    rw [bind_of_ok hop, if_neg (Bool.eq_false_iff.1 hl)]
    rfl
  obtain ⟨t, hfirst, ht⟩ := hts.exists_view hreach
  have hstatement : statement f = .error .invalidTarget g := by
    rw [statement_of_mayStart hfirst ht]
    exact bind_of_error hexpression _
  refine ⟨g, ?_⟩
  rw [Parse.source, bind_of_ok hload]
  exact bind_of_error (bind_of_error hstatement _) _

/-- A text is refused at the earliest token: what has been taken before an error can be
completed to a program, and no program goes on with the token in view; an assignment to
something that is no target is refused with the operator taken.  The end of the input is
unexpected exactly where the tokens are no program and some further ones make them one. -/
theorem source_error_earliest {source : String} {ts : List Token}
    (hcut : tokenize source = .ok ts) (hshort : ∀ t ∈ ts, t.Short) :
  (∀ front e g, Parse.source source.toList front = .error e g →
      ∃ f eaten left, Parse.load source.toList front = .ok () f ∧ f.Reach eaten g
        ∧ g.Shows left ∧ ts = eaten ++ left
        ∧ (e ≠ .invalidTarget →
          Viable eaten ∧ ∀ t ∈ left.head?, ¬ Viable (eaten ++ [t]))
        ∧ (e = .invalidTarget →
          ∃ before op, eaten = before ++ [.operator (.assign op)] ∧ Viable before
            ∧ ¬ Viable eaten))
    ∧ ((∃ e, parse source = .error e ∧ e.OfEnd)
      ↔ (∃ us, us ≠ [] ∧ Accepted (ts ++ us)) ∧ ¬ Accepted ts)
  := by
  refine ⟨fun front e g h => ?_, exists_ofEnd_iff hcut hshort⟩
  obtain ⟨f, eaten, left, hload, hreach, hleft, hts, hrefused⟩ :=
    Parse.exists_refused hcut hshort h
  refine ⟨f, eaten, left, hload, hreach, hleft, hts, ?_⟩
  obtain ⟨he, hviable⟩ | ⟨he, hbefore⟩ := hrefused
  · refine ⟨fun _ => hviable, ?_⟩
    rintro rfl
    exact absurd he id
  · exact ⟨fun hne => absurd he hne, fun _ => hbefore⟩

/-- The three kinds of error: at the end of the input, at a token that continues nothing, and at an
assignment to what is no target. -/
theorem source_error_earliest_samples :
  (tokenize "(" = .ok [.delimiter .leftParen] ∧ parse "(" = .error .missingOperand
      ∧ ∃ us, us ≠ [] ∧ Accepted ([.delimiter .leftParen] ++ us))
    ∧ (tokenize ")" = .ok [.delimiter .rightParen]
      ∧ parse ")" = .error (.unexpectedOperand (.delimiter .rightParen))
      ∧ Viable [] ∧ ¬ Viable [.delimiter .rightParen])
    ∧ tokenize "null=" = .ok [.keyword .nullWord, .operator (.assign .set)]
      ∧ parse "null=" = .error .invalidTarget
      ∧ Viable [.keyword .nullWord]
      ∧ ¬ Viable [.keyword .nullWord, .operator (.assign .set)]
  := by
  have hend : tokenize "(" = .ok [.delimiter .leftParen] :=
    tokenize_eq_ok_iff.2 (.token rfl .nil)
  have hclosed : tokenize ")" = .ok [.delimiter .rightParen] :=
    tokenize_eq_ok_iff.2 (.token rfl .nil)
  have htarget : tokenize "null=" = .ok [.keyword .nullWord, .operator (.assign .set)] :=
    tokenize_eq_ok_iff.2 (.token rfl (.token rfl .nil))
  have hends : parse "(" = .error .missingOperand := by cbv
  have hcloses : Parse.source ")".toList .empty = .error
      (.unexpectedOperand (.delimiter .rightParen))
      ⟨some (.delimiter .rightParen), ⟨[], 1⟩⟩ := by cbv
  obtain ⟨g, htargets⟩ := @Parse.source_of_no_target "null=" [.keyword .nullWord] [] .set .null
    htarget (Derives.nullWord.loosen (by decide)) (List.forall_mem_singleton.2 trivial) rfl .empty
  have hone := source_error_earliest hend (List.forall_mem_singleton.2 trivial)
  have htwo := source_error_earliest hclosed (List.forall_mem_singleton.2 trivial)
  have hthree := source_error_earliest htarget
    (List.forall_mem_cons.2 ⟨trivial, List.forall_mem_singleton.2 trivial⟩)
  refine ⟨⟨hend, hends, ?_⟩, ⟨hclosed, ?_, ?_⟩, htarget, ?_, ?_⟩
  · exact (hone.2.1 ⟨_, hends, SyntaxError.toldOf_none_iff.1 rfl⟩).1
  · rw [← Parse.outcome_source ")" .empty, hcloses, Parse.outcome]
  · obtain ⟨f, eaten, left, -, -, hleft, hts, heaten, -⟩ := htwo.1 _ _ _ hcloses
    obtain ⟨hviable, hdead⟩ := heaten (by simp)
    cases left with
    | nil => cases Front.shows_nil.1 hleft
    | cons t later =>
      obtain ⟨rfl, rfl⟩ : eaten = [] ∧ t = .delimiter .rightParen := by
        cases eaten with
        | nil => exact ⟨rfl, (List.cons.inj hts).1.symm⟩
        | cons _ _ => simp at hts
      exact ⟨hviable, hdead _ rfl⟩
  · rw [← Parse.outcome_source "null=" .empty, htargets, Parse.outcome]
  · obtain ⟨f, eaten, left, -, -, -, hts, -, hbefore⟩ := hthree.1 _ _ _ htargets
    obtain ⟨before, op, rfl, hviable, hdead⟩ := hbefore rfl
    obtain _ | ⟨b, _ | ⟨c, before⟩⟩ := before
    · simp at hts
    · obtain ⟨rfl, hts⟩ := List.cons.inj hts
      obtain ⟨rfl, -⟩ : AssignOp.set = op ∧ left = [] := by simpa using hts
      exact ⟨hviable, hdead⟩
    · simp at hts

end Letter
