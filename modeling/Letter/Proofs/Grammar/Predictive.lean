import Letter.Proofs.Grammar.Knot

/-!
# Readers with one token of lookahead

A reader is predictive at a front if it gives a value or tells an error by the token in view
alone, or takes that token and goes on in the same way.  What such a reader does is decided
by the tokens that it takes and the one in view behind them; the text that they stand in has
no part in it.

An error is met at the token in view: it is told before that token is taken, or of the token
once it has been taken, or taking it gets stuck.

Main statements: `Predictive.of_eq_ok`, `Predictive.of_eq_error`.
-/

namespace Letter

/-! ### Where errors are met -/

/-- Whether an error is told of what is in view. -/
def SyntaxError.ToldOf : SyntaxError → Option Token → Prop
  | missingToken _, view | missingOperand, view => view = none
  | unexpectedToken found _, view | unexpectedOperand found, view => view = some found
  | _, _ => False

/-- Whether an error is told of a token that has been taken. -/
def SyntaxError.Refuses : SyntaxError → Token → Prop
  | invalidTarget, t => ∃ op, t = .operator (.assign op)
  | numeralTooLong n, t => ∃ digits, t = .number digits ∧ digits.length = n ∧ maxDigits < n
  | _, _ => False

/-- Reading that has come to a front ends there with an error. -/
inductive Front.Fault : Front → SyntaxError → Front → Prop where
  | told {f : Front} {e : SyntaxError} (h : e.ToldOf f.next?) : Fault f e f
  | refused {f g : Front} {e : SyntaxError} {t : Token} (view : f.next? = some t)
      (h : e.Refuses t) (advance : Parse.advance f = .ok () g) : Fault f e g
  | stuck {f g : Front} {e : Stuck} {t : Token} (view : f.next? = some t)
      (advance : Parse.advance f = .error (.stuck e) g) : Fault f (.stuck e) g

/-- An error that is told of what is in front refuses no token that has been taken. -/
theorem SyntaxError.ToldOf.not_refuses {e : SyntaxError} {view : Option Token}
    (h : e.ToldOf view) (t : Token) :
  ¬ e.Refuses t
  := by cases e <;> first | exact id | exact absurd h id

namespace Front.Fault

/-- Reading is stuck only where taking the token in view gets stuck. -/
theorem advance_of_stuck {f g : Front} {s : Stuck} (h : f.Fault (.stuck s) g) :
  Parse.advance f = .error (.stuck s) g
  := by
  cases h with
  | told h => exact absurd h id
  | refused _ h _ => exact absurd h id
  | stuck _ hadv => exact hadv

/-- An error of a token that has been taken is told behind that token. -/
theorem advance_of_refuses {f g : Front} {e : SyntaxError} {t : Token} (h : f.Fault e g)
    (he : e.Refuses t) :
  Parse.advance f = .ok () g
  := by
  cases h with
  | told h => exact absurd he (h.not_refuses t)
  | refused _ _ hadv => exact hadv
  | stuck _ _ => exact absurd he id

end Front.Fault

namespace Parse

variable {α β : Type}

/-- Two steps fail if the first one does, or the second on what the first comes to. -/
theorem bind_eq_error {p : Parse α} {k : α → Parse β} {f h : Front} {e : SyntaxError} :
  (p >>= k) f = .error e h ↔ p f = .error e h ∨ ∃ a g, p f = .ok a g ∧ k a g = .error e h
  := by
  change EStateM.bind p k f = .error e h ↔ _
  rw [EStateM.bind]
  cases p f with
  | ok a g =>
    constructor
    · exact fun h => .inr ⟨a, g, rfl, h⟩
    · rintro (h | ⟨_, _, ⟨⟩, h⟩)
      · cases h
      · exact h
  | error e g => simp

/-- Where something is found in the token in view, that token is taken. -/
theorem take_of_some {expected : TokenKind} {select : Token → Option α} {f : Front} {t : Token}
    {a : α} (hview : f.next? = some t) (hsel : select t = some a) :
  take expected select f = (advance >>= fun _ => pure a) f
  := by simp only [take, hview, hsel]

/-- Bringing the next token into view fails only where no rule applies. -/
theorem advance_eq_error {f g : Front} {e : SyntaxError} (h : advance f = .error e g) :
  ∃ s, e = .stuck s
  := by
  rw [advance] at h
  split at h
  · cases h
  · cases h
  · next s _ _ =>
    cases h
    exact ⟨s, rfl⟩

/-! ### Predictive readers -/

/-- A reader at a front decides by the token in view. -/
inductive Predictive : Parse α → Front → Prop where
  /-- It gives a value. -/
  | value {p : Parse α} {f : Front} (a : α) (h : ∀ g, g.next? = f.next? → p g = .ok a g) :
      Predictive p f
  /-- It tells an error of what is in view. -/
  | told {p : Parse α} {f : Front} (e : SyntaxError) (he : e.ToldOf f.next?)
      (h : ∀ g, g.next? = f.next? → p g = .error e g) : Predictive p f
  /-- It takes the token in view and tells an error of it. -/
  | refused {p : Parse α} {f : Front} {e : SyntaxError} {t : Token} (view : f.next? = some t)
      (he : e.Refuses t)
      (h : ∀ g, g.next? = some t → p g = (advance >>= fun _ => throw e) g) : Predictive p f
  /-- It takes the token in view and goes on. -/
  | taken {p q : Parse α} {f : Front} {t : Token} (view : f.next? = some t)
      (h : ∀ g, g.next? = some t → p g = (advance >>= fun _ => q) g)
      (later : ∀ g, advance f = .ok () g → Predictive q g) : Predictive p f

namespace Predictive

/-- A reader that does the same where the same token is in view is predictive as well. -/
theorem congr {p q : Parse α} {f : Front} (hq : Predictive q f)
    (h : ∀ g, g.next? = f.next? → p g = q g) :
  Predictive p f
  := by
  cases hq with
  | value a hq => exact .value a fun g hg => (h g hg).trans (hq g hg)
  | told e he hq => exact .told e he fun g hg => (h g hg).trans (hq g hg)
  | refused view he hq =>
    exact .refused view he fun g hg => (h g (hg.trans view.symm)).trans (hq g hg)
  | taken view hq later =>
    exact .taken view (fun g hg => (h g (hg.trans view.symm)).trans (hq g hg)) later

/-- One predictive step after another is predictive. -/
theorem bind {p : Parse α} {k : α → Parse β} {f : Front} (hp : Predictive p f)
    (hk : ∀ a g, p f = .ok a g → Predictive (k a) g) :
  Predictive (p >>= k) f
  := by
  induction hp with
  | @value p f a h =>
    apply (hk a f (h f rfl)).congr
    exact fun g hg => bind_of_ok (h g hg) k
  | told e he h => exact .told e he fun g hg => bind_of_error (h g hg) k
  | @refused p f e t view he h =>
    refine .refused view he fun g hg => ?_
    rw [bind_congr_left (h g hg) k, bind_assoc]
    rfl
  | @taken p q f t view h later ih =>
    refine .taken (q := q >>= k) view (fun g hg => ?_) fun g hadv => ?_
    · rw [bind_congr_left (h g hg) k, bind_assoc]
    · apply ih g hadv
      intro a g' hq
      apply hk a g'
      rw [h f view, bind_of_ok hadv, hq]

theorem pure (a : α) (f : Front) :
  Predictive (Pure.pure a : Parse α) f
  := .value a fun _ _ => rfl

theorem map {p : Parse α} {f : Front} (hp : Predictive p f) (k : α → β) :
  Predictive (k <$> p) f
  := by
  apply (hp.bind (k := fun a => Pure.pure (k a)) fun a g _ => .pure _ g).congr
  intro g _
  rw [map_eq_pure_bind]

theorem peek (select : Token → Option α) (f : Front) :
  Predictive (Parse.peek select) f
  := .value (f.next?.bind select) fun g hg => by rw [Parse.peek, hg]

theorem sees (kinds : List TokenKind) (f : Front) :
  Predictive (Parse.sees kinds) f
  := .value (f.next?.any fun t => kinds.contains t.kind) fun g hg => by rw [Parse.sees, hg]

theorem advance {f : Front} {t : Token} (view : f.next? = some t) :
  Predictive Parse.advance f
  := by
  refine .taken (q := Pure.pure ()) view (fun g _ => ?_) fun g _ => .pure () g
  rw [bind_pure]

/-- Taking a token is predictive, for the error tells the token that stands there instead. -/
theorem take (expected : TokenKind) (select : Token → Option α) (f : Front) :
  Predictive (Parse.take expected select) f
  := by
  cases hview : f.next? with
  | none => exact .told (.missingToken expected) hview fun g hg => by rw [Parse.take, hg, hview]
  | some t =>
    cases hsel : select t with
    | none =>
      refine .told (.unexpectedToken t expected) hview fun g hg => ?_
      simp only [Parse.take, hg, hview, hsel]
    | some a =>
      exact .taken (q := Pure.pure a) hview (fun g hg => take_of_some hg hsel)
        fun g _ => .pure a g

theorem eat (kind : TokenKind) (f : Front) :
  Predictive (Parse.eat kind) f
  := take kind _ f

theorem skip (d : Delimiter) (f : Front) :
  Predictive (Parse.skip d) f
  := (eat _ f).bind fun _ g _ => .pure () g

theorem skipWord (k : Keyword) (f : Front) :
  Predictive (Parse.skipWord k) f
  := (eat _ f).bind fun _ g _ => .pure () g

/-! ### What predictive readers do -/

/-- A value is decided by the tokens that are taken and the one in view behind them. -/
theorem of_eq_ok {p : Parse α} {f g : Front} {a : α} (hp : Predictive p f)
    (h : p f = .ok a g) :
  ∃ ts, f.Reach ts g
    ∧ ∀ f' g', f'.Reach ts g' → g'.next? = g.next? → p f' = .ok a g'
  := by
  induction hp with
  | @value p f b hp =>
    obtain ⟨rfl, rfl⟩ : b = a ∧ f = g := by simpa [hp f rfl] using h
    refine ⟨[], .refl f, fun f' g' hreach hview => ?_⟩
    cases hreach
    apply hp f' hview
  | told e he hp =>
    rw [hp _ rfl] at h
    cases h
  | refused view he hp =>
    rw [hp _ view, bind_eq_ok] at h
    obtain ⟨_, _, -, h⟩ := h
    cases h
  | @taken p q f t view hp later ih =>
    rw [hp f view, bind_eq_ok] at h
    obtain ⟨_, f₁, hadv, hq⟩ := h
    obtain ⟨ts, hreach, hagain⟩ := ih f₁ hadv hq
    refine ⟨t :: ts, .take view hadv hreach, fun f' g' hreach' hview => ?_⟩
    obtain ⟨f₁', view', hadv', hlater⟩ := hreach'.uncons
    rw [hp f' view', bind_of_ok hadv']
    apply hagain f₁' g' hlater hview

/-- An error is met behind the tokens that are taken, and it is decided by these and the one
in view. -/
theorem of_eq_error {p : Parse α} {f g : Front} {e : SyntaxError} (hp : Predictive p f)
    (h : p f = .error e g) :
  ∃ ts f₁, f.Reach ts f₁ ∧ f₁.Fault e g
    ∧ ∀ f' f₁' g', f'.Reach ts f₁' → f₁'.next? = f₁.next? → f₁'.Fault e g' → p f' = .error e g'
  := by
  induction hp with
  | @value p f a hp =>
    rw [hp f rfl] at h
    cases h
  | @told p f e' he hp =>
    obtain ⟨rfl, rfl⟩ : e' = e ∧ f = g := by simpa [hp f rfl] using h
    refine ⟨[], f, .refl f, .told he, fun f' f₁' g' hreach hview hfault => ?_⟩
    cases hreach
    cases hfault with
    | told _ => apply hp f' hview
    | refused _ hrefuses _ => exact absurd hrefuses (he.not_refuses _)
    | stuck _ _ => exact absurd he (by simp [SyntaxError.ToldOf])
  | @refused p f e' t view he hp =>
    rw [hp f view] at h
    refine ⟨[], f, .refl f, ?_, fun f' f₁' g' hreach hview hfault => ?_⟩
    · obtain hadv | ⟨_, _, hadv, hthrow⟩ := bind_eq_error.1 h
      · obtain ⟨s, rfl⟩ := advance_eq_error hadv
        exact .stuck view hadv
      · cases hthrow
        exact .refused view he hadv
    · cases hreach
      rw [view] at hview
      rw [hp f' hview]
      obtain hadv | ⟨_, _, hadv, hthrow⟩ := bind_eq_error.1 h
      · obtain ⟨s, rfl⟩ := advance_eq_error hadv
        apply bind_of_error (hfault.advance_of_stuck)
      · cases hthrow
        apply bind_of_ok (hfault.advance_of_refuses he)
  | @taken p q f t view hp later ih =>
    rw [hp f view] at h
    obtain hadv | ⟨_, f₁, hadv, hq⟩ := bind_eq_error.1 h
    · obtain ⟨s, rfl⟩ := advance_eq_error hadv
      refine ⟨[], f, .refl f, .stuck view hadv, fun f' f₁' g' hreach hview hfault => ?_⟩
      cases hreach
      rw [hp f' (hview.trans view)]
      apply bind_of_error hfault.advance_of_stuck
    · obtain ⟨ts, f₂, hreach, hfault, hagain⟩ := ih f₁ hadv hq
      refine ⟨t :: ts, f₂, .take view hadv hreach, hfault, ?_⟩
      intro f' f₂' g' hreach' hview hfault'
      obtain ⟨f₁', view', hadv', hlater⟩ := hreach'.uncons
      rw [hp f' view', bind_of_ok hadv']
      apply hagain f₁' f₂' g' hlater hview hfault'

/-- Reading never makes the front larger. -/
theorem size_le {p : Parse α} {f g : Front} {a : α} (hp : Predictive p f)
    (h : p f = .ok a g) :
  g.size ≤ f.size
  := by
  obtain ⟨ts, hreach, -⟩ := hp.of_eq_ok h
  have := hreach.size_le
  omega

/-! ### Loops -/

/-- A loop is predictive if its rounds are, on fronts that are not larger than the one
where it begins. -/
theorem foldWhile {select : Token → Option β} {step : α → β → Parse α}
    (hstep : ∀ a, Consumes select (step a)) {n : Nat}
    (hround : ∀ a b g, g.size ≤ n → g.next?.bind select = some b → Predictive (step a b) g)
    (a : α) {f : Front} (hf : f.size ≤ n) :
  Predictive (Parse.foldWhile select a step) f
  := by
  induction hn : f.size using Nat.strongRecOn generalizing a f with
  | _ m ih =>
    subst hn
    cases hview : f.next?.bind select with
    | none => exact .value a fun g hg => foldWhile_of_none (by rw [hg, hview]) a
    | some b =>
      have hgo : Predictive (step a b >>= fun a => Parse.foldWhile select a step) f := by
        apply (hround a b f hf hview).bind
        intro a' g hs
        have := hstep _ _ _ _ _ hview hs
        apply ih g.size this a' (by omega) rfl
      apply hgo.congr
      intro g hg
      rw [foldWhile_eq hstep, hg, hview]

/-- A sequence is read predictively if its items are, on fronts that are not larger than
the one where it begins. -/
theorem manyWhile {select : Token → Option β} {item : β → Parse α}
    (hitem : Consumes select item) {n : Nat}
    (hround : ∀ b g, g.size ≤ n → g.next?.bind select = some b → Predictive (item b) g)
    {f : Front} (hf : f.size ≤ n) :
  Predictive (Parse.manyWhile select item) f
  := by
  induction hn : f.size using Nat.strongRecOn generalizing f with
  | _ m ih =>
    subst hn
    cases hview : f.next?.bind select with
    | none => exact .value [] fun g hg => manyWhile_of_none (by rw [hg, hview])
    | some b =>
      have hgo : Predictive
          (item b >>= fun a => Parse.manyWhile select item >>= fun as => Pure.pure (a :: as)) f := by
        apply (hround b f hf hview).bind
        intro a g hi
        have := hitem _ _ _ _ hview hi
        apply (ih g.size this (by omega) rfl).bind
        exact fun as g' _ => .pure _ g'
      apply hgo.congr
      intro g hg
      rw [manyWhile_eq hitem, hg, hview]

theorem separated {item : Parse α} {one : α → Phrase} (hitem : Reads item one) {n : Nat}
    (hpredictive : ∀ g, g.size ≤ n → Predictive item g) {f : Front} (hf : f.size ≤ n) :
  Predictive (Parse.separated item) f
  := by
  apply (hpredictive f hf).bind
  intro a g ha
  have := hitem.size_lt ha
  refine bind (manyWhile (n := n) (consumes_item hitem) ?_ (by omega)) fun _ g _ => .pure _ g
  intro _ g' hg' _
  apply (skip .comma g').bind
  intro _ h hcomma
  have := size_lt_of_skip hcomma
  apply hpredictive h
  omega

theorem chain {level : Level} {operand : Parse Expr}
    (hoperand : Reads operand (.expression level.tighter)) {n : Nat}
    (hpredictive : ∀ g, g.size ≤ n → Predictive operand g) {f : Front} (hf : f.size ≤ n) :
  Predictive (Parse.chain level operand) f
  := by
  apply (hpredictive f hf).bind
  intro e g he
  have := hoperand.size_lt he
  refine foldWhile (n := n) (consumes_chain hoperand) ?_ e (by omega)
  intro l op g' hg' hview
  obtain ⟨t, ht, -⟩ := Option.bind_eq_some_iff.1 hview
  apply (advance ht).bind
  intro _ h hadv
  have := Front.size_advance ht hadv
  apply (hpredictive h (by omega)).bind
  exact fun _ h' _ => .pure _ h'

end Predictive

end Parse

end Letter
