import Letter.Proofs.Grammar.Predictive
import Letter.Proofs.Grammar.Strength
import Letter.Proofs.Token.Spelling

/-!
# Errors stand behind tokens that can be completed

Where reading a phrase ends with an error, the tokens that have been taken are the beginning
of some phrase of that kind: there are tokens which complete them.  No production takes a
token before it is known to fit.  The completion is put together along the productions that
have not come to their end: each of them adds what it still expects behind what the
production inside it expects.
-/

namespace Letter

/-! ### What can be completed -/

/-- The tokens can be completed to some of a language, by tokens that can be written and
read. -/
def Begins (L : List Token → Prop) (ts : List Token) : Prop :=
  ∃ us, (∀ u ∈ us, u.Valid ∧ u.Short) ∧ L (ts ++ us)

/-- The tokens are derived as a phrase of some kind. -/
def Forms {α : Type} (phrase : α → Phrase) (ts : List Token) : Prop :=
  ∃ a, Derives ts (phrase a)

/-- Behind each phrase of one kind, the tokens make it one of another kind. -/
def Continues {α β : Type} (one : α → Phrase) (many : β → Phrase) (us : List Token) : Prop :=
  ∀ ts, Forms one ts → Forms many (ts ++ us)

/-- Behind each phrase of a kind, the tokens make it a longer one. -/
abbrev Extends {α : Type} (phrase : α → Phrase) : List Token → Prop := Continues phrase phrase

namespace Begins

variable {L M : List Token → Prop} {ts : List Token}

theorem self (h : L ts) :
  Begins L ts
  := ⟨[], List.forall_mem_nil _, by rwa [List.append_nil]⟩

/-- One token is missing. -/
theorem one {t : Token} (ht : t.Valid ∧ t.Short) (h : L (ts ++ [t])) :
  Begins L ts
  := ⟨[t], List.forall_mem_singleton.2 ht, h⟩

/-- What can be completed to what can be completed can be completed. -/
theorem mono (h : Begins M ts) (hL : ∀ us, M us → Begins L us) :
  Begins L ts
  := by
  obtain ⟨us, hus, h⟩ := h
  obtain ⟨vs, hvs, h⟩ := hL _ h
  refine ⟨us ++ vs, List.forall_mem_append.2 ⟨hus, hvs⟩, ?_⟩
  rwa [← List.append_assoc]

/-- Some expression can be read. -/
theorem expression (layer : Layer) :
  Begins (Forms (.expression layer)) []
  := .one (t := .keyword .nullWord) ⟨trivial, trivial⟩
    ⟨.null, Derives.nullWord.loosen layer.strength_le_primary⟩

end Begins

theorem Extends.nil {α : Type} (phrase : α → Phrase) :
  Extends phrase []
  := by
  intro ts h
  rwa [List.append_nil]

theorem Extends.append {α : Type} {phrase : α → Phrase} {ts us : List Token}
    (h : Extends phrase ts) (h' : Extends phrase us) :
  Extends phrase (ts ++ us)
  := by
  intro vs hvs
  rw [← List.append_assoc]
  apply h' _ (h vs hvs)

/-- A name that can be written wherever one is missing. -/
theorem isName_x :
  IsName "x"
  := by
  have htext : "x".toList = ['x'] := rfl
  refine ⟨?_, ?_, ?_, fun k => by cases k <;> decide⟩ <;> rw [htext]
  · apply List.cons_ne_nil
  · exact List.forall_mem_singleton.2 (by decide)
  · rintro _ ⟨⟩
    decide

/-- Behind tokens that can be completed to some of a language, an error is met. -/
def Front.FailsIn (f : Front) (L : List Token → Prop) (e : SyntaxError) (h : Front) : Prop :=
  ∃ ts g, f.Reach ts g ∧ g.Fault e h ∧ Begins L ts

namespace Front.FailsIn

variable {f g h : Front} {L M : List Token → Prop} {e : SyntaxError}

theorem mono (hf : f.FailsIn M e h) (hL : ∀ ts, M ts → Begins L ts) :
  f.FailsIn L e h
  := by
  obtain ⟨ts, g, hreach, hfault, hts⟩ := hf
  exact ⟨ts, g, hreach, hfault, hts.mono hL⟩

/-- Tokens are taken before. -/
theorem after {ts : List Token} (hreach : f.Reach ts g)
    (hg : g.FailsIn (fun us => L (ts ++ us)) e h) :
  f.FailsIn L e h
  := by
  obtain ⟨us, g', hreach', hfault, vs, hvs, hL⟩ := hg
  refine ⟨ts ++ us, g', hreach.trans hreach', hfault, vs, hvs, ?_⟩
  rwa [List.append_assoc]

end Front.FailsIn

namespace Parse

variable {α β : Type}

/-- Where a reader ends with an error, what it has taken can be completed to some of a
language. -/
def KeepsTo (p : Parse α) (L : List Token → Prop) (f : Front) : Prop :=
  ∀ e h, p f = .error e h → f.FailsIn L e h

namespace KeepsTo

variable {p : Parse α} {k : α → Parse β} {L M : List Token → Prop} {f : Front}

theorem mono (hp : KeepsTo p M f) (hL : ∀ ts, M ts → Begins L ts) :
  KeepsTo p L f
  := fun e h herror => (hp e h herror).mono hL

theorem pure (a : α) :
  KeepsTo (Pure.pure a) L f
  := by rintro _ _ ⟨⟩

/-- An error that is told of what is in view. -/
theorem told {e : SyntaxError} (he : e.ToldOf f.next?) (hL : Begins L []) :
  KeepsTo (throw e : Parse α) L f
  := by
  rintro _ _ ⟨⟩
  exact ⟨[], f, .refl f, .told he, hL⟩

theorem congr {q : Parse α} (hq : KeepsTo q L f) (h : p f = q f) :
  KeepsTo p L f
  := fun e g herror => hq e g (h.symm.trans herror)

/-- What follows keeps to what remains of the language. -/
theorem bind (hp : KeepsTo p L f)
    (hk : ∀ a g, p f = .ok a g →
      ∃ ts, f.Reach ts g ∧ KeepsTo (k a) (fun us => L (ts ++ us)) g) :
  KeepsTo (p >>= k) L f
  := by
  intro e h herror
  obtain herror | ⟨a, g, ha, herror⟩ := bind_eq_error.1 herror
  · apply hp e h herror
  · obtain ⟨ts, hreach, hlater⟩ := hk a g ha
    apply (hlater e h herror).after hreach

/-- What follows a phrase can be told to be missing once the phrase is complete. -/
theorem bind_reads {phrase : α → Phrase} (hreads : Reads p phrase)
    (hp : KeepsTo p (Forms phrase) f) (hL : ∀ ts, Forms phrase ts → Begins L ts)
    (hk : ∀ a g ts, p f = .ok a g → Derives ts (phrase a) →
      Begins (fun us => L (ts ++ us)) [] → KeepsTo (k a) (fun us => L (ts ++ us)) g) :
  KeepsTo (p >>= k) L f
  := by
  apply (hp.mono hL).bind
  intro a g ha
  obtain ⟨ts, hreach, hts, -⟩ := hreads f a g ha
  exact ⟨ts, hreach, hk a g ts ha hts (hL ts ⟨a, hts⟩)⟩

/-- Nothing is read for what is made of a value. -/
theorem return_bind (hp : KeepsTo p L f) (k : α → β) :
  KeepsTo (p >>= fun a => Pure.pure (k a)) L f
  := by
  intro e h herror
  obtain herror | ⟨_, _, _, herror⟩ := bind_eq_error.1 herror
  · apply hp e h herror
  · cases herror

theorem sees {kinds : List TokenKind} {k : Bool → Parse β}
    (hk : KeepsTo (k (f.next?.any fun t => kinds.contains t.kind)) L f) :
  KeepsTo (Parse.sees kinds >>= k) L f
  := hk

theorem peek {select : Token → Option α} {k : Option α → Parse β}
    (hk : KeepsTo (k (f.next?.bind select)) L f) :
  KeepsTo (Parse.peek select >>= k) L f
  := hk

/-! ### Single tokens -/

/-- Advancing keeps to a language that can begin here, for nothing has been taken where it is stuck.
-/
theorem advance {t : Token} (view : f.next? = some t) (hL : Begins L []) :
  KeepsTo Parse.advance L f
  := by
  intro e h herror
  obtain ⟨s, rfl⟩ := advance_eq_error herror
  exact ⟨[], f, .refl f, .stuck view herror, hL⟩

/-- After a token that is taken, what follows keeps to the rest of the language. -/
theorem bind_advance {k : Unit → Parse β} {t : Token} (view : f.next? = some t)
    (hL : Begins L [])
    (hk : ∀ g, Parse.advance f = .ok () g → KeepsTo (k ()) (fun us => L (t :: us)) g) :
  KeepsTo (Parse.advance >>= k) L f
  := (advance view hL).bind fun _ g hadv => ⟨[t], .one view hadv, hk g hadv⟩

/-- Taking a token keeps to a language that can begin here, for nothing has been taken where it
fails. -/
theorem take {expected : TokenKind} {select : Token → Option α} (hL : Begins L []) :
  KeepsTo (Parse.take expected select) L f
  := by
  cases hview : f.next? with
  | none =>
    apply (told (e := .missingToken expected) hview hL).congr
    rw [Parse.take, hview]
    rfl
  | some t =>
    cases hsel : select t with
    | none =>
      apply (told (e := .unexpectedToken t expected) hview hL).congr
      simp only [Parse.take, hview, hsel]
      rfl
    | some a =>
      apply ((advance hview hL).bind (k := fun _ => Pure.pure a) _).congr
      · apply take_of_some hview hsel
      · exact fun _ g hadv => ⟨[t], .one hview hadv, .pure a⟩

/-- A token is taken, and what follows keeps to what remains. -/
theorem bind_take {expected : TokenKind} {select : Token → Option α} (hL : Begins L [])
    (hk : ∀ a t g, f.next? = some t → select t = some a → Parse.advance f = .ok () g →
      KeepsTo (k a) (fun us => L (t :: us)) g) :
  KeepsTo (Parse.take expected select >>= k) L f
  := by
  apply (take hL).bind
  intro a g htake
  obtain ⟨t, hview, hsel, hadv⟩ := take_eq_ok.1 htake
  exact ⟨[t], .one hview hadv, hk a t g hview hsel hadv⟩

theorem bind_eat {kind : TokenKind} {k : Token → Parse β} (hL : Begins L [])
    (hk : ∀ t g, t.kind = kind → Parse.advance f = .ok () g →
      KeepsTo (k t) (fun us => L (t :: us)) g) :
  KeepsTo (eat kind >>= k) L f
  := by
  apply (take hL).bind
  intro t g heat
  obtain ⟨hview, hkind, hadv⟩ := eat_eq_ok.1 heat
  exact ⟨[t], .one hview hadv, hk t g hkind hadv⟩

theorem bind_skip {d : Delimiter} {k : Unit → Parse β} (hL : Begins L [])
    (hk : ∀ g, skip d f = .ok () g → KeepsTo (k ()) (fun us => L (.delimiter d :: us)) g) :
  KeepsTo (skip d >>= k) L f
  := by
  have hskip : KeepsTo (skip d) L f := bind_eat hL fun _ _ _ _ => .pure ()
  apply hskip.bind
  intro _ g hskip
  obtain ⟨hview, hadv⟩ := skip_eq_ok.1 hskip
  exact ⟨[.delimiter d], .one hview hadv, hk g hskip⟩

theorem bind_skipWord {w : Keyword} {k : Unit → Parse β} (hL : Begins L [])
    (hk : ∀ g, skipWord w f = .ok () g → KeepsTo (k ()) (fun us => L (.keyword w :: us)) g) :
  KeepsTo (skipWord w >>= k) L f
  := by
  have hskip : KeepsTo (skipWord w) L f := bind_eat hL fun _ _ _ _ => .pure ()
  apply hskip.bind
  intro _ g hskip
  obtain ⟨hview, hadv⟩ := skipWord_eq_ok.1 hskip
  exact ⟨[.keyword w], .one hview hadv, hk g hskip⟩

theorem bind_name {k : String → Parse β} (hL : Begins L [])
    (hk : ∀ n g, name f = .ok n g → KeepsTo (k n) (fun us => L (.identifier n :: us)) g) :
  KeepsTo (name >>= k) L f
  := by
  apply (take hL).bind
  intro n g hname
  obtain ⟨hview, hadv⟩ := name_eq_ok.1 hname
  exact ⟨[.identifier n], .one hview hadv, hk n g hname⟩

/-! ### Loops -/

/-- A loop keeps to a language if its rounds do, and what a round has taken can stand before
whatever is in the language. -/
theorem foldWhile {select : Token → Option β} {step : α → β → Parse α} {n : Nat}
    (hround : ∀ a b g, g.size ≤ n → g.next?.bind select = some b → KeepsTo (step a b) L g)
    (hnext : ∀ a b g a' g', g.next?.bind select = some b → step a b g = .ok a' g' →
      ∃ ts, g.Reach ts g' ∧ ∀ us, L us → L (ts ++ us))
    (a : α) (hf : f.size ≤ n) :
  KeepsTo (Parse.foldWhile select a step) L f
  := by
  intro e h herror
  rw [Parse.foldWhile] at herror
  generalize f.behind = bound at herror
  induction bound generalizing a f with
  | nil =>
    cases hview : f.next?.bind select with
    | none =>
      rw [foldWithin_of_none hview] at herror
      cases herror
    | some b =>
      rw [foldWithin_nil_of_some hview] at herror
      apply hround a b f hf hview e h herror
  | cons c bound ih =>
    cases hview : f.next?.bind select with
    | none =>
      rw [foldWithin_of_none hview] at herror
      cases herror
    | some b =>
      rw [foldWithin_cons_of_some hview] at herror
      obtain herror | ⟨a', g, hs, herror⟩ := bind_eq_error.1 herror
      · apply hround a b f hf hview e h herror
      · obtain ⟨ts, hreach, hts⟩ := hnext a b f a' g hview hs
        have := hreach.size_le
        have hlater : g.FailsIn L e h := ih a' (by omega) herror
        apply (hlater.mono fun us hus => .self (hts us hus)).after hreach

/-- A loop that makes a phrase longer and longer keeps to phrases of that kind. -/
theorem foldWhile_extends {phrase : α → Phrase} {select : Token → Option β}
    {step : α → β → Parse α} {n : Nat}
    (hround : ∀ a b g, g.size ≤ n → g.next?.bind select = some b →
      KeepsTo (step a b) (Extends phrase) g)
    (hnext : ∀ a b g a' g', g.next?.bind select = some b → step a b g = .ok a' g' →
      ∃ ts, g.Reach ts g' ∧ Extends phrase ts)
    {ts : List Token} {a : α} (ha : Derives ts (phrase a)) (hf : f.size ≤ n) :
  KeepsTo (Parse.foldWhile select a step) (fun us => Forms phrase (ts ++ us)) f
  := by
  have hloop : KeepsTo (Parse.foldWhile select a step) (Extends phrase) f := by
    apply foldWhile hround _ a hf
    intro a b g a' g' hview hs
    obtain ⟨ts, hreach, hts⟩ := hnext a b g a' g' hview hs
    exact ⟨ts, hreach, fun us hus => hts.append hus⟩
  exact hloop.mono fun us hus => .self (hus ts ⟨a, ha⟩)

/-- A sequence keeps to a language if its items do, and what an item has taken can stand
before whatever is in the language. -/
theorem manyWhile {select : Token → Option β} {item : β → Parse α} {n : Nat}
    (hround : ∀ b g, g.size ≤ n → g.next?.bind select = some b → KeepsTo (item b) L g)
    (hnext : ∀ b g a g', g.next?.bind select = some b → item b g = .ok a g' →
      ∃ ts, g.Reach ts g' ∧ ∀ us, L us → L (ts ++ us))
    (hf : f.size ≤ n) :
  KeepsTo (Parse.manyWhile select item) L f
  := by
  intro e h herror
  rw [Parse.manyWhile] at herror
  generalize f.behind = bound at herror
  induction bound generalizing f with
  | nil =>
    cases hview : f.next?.bind select with
    | none =>
      rw [manyWithin_of_none hview] at herror
      cases herror
    | some b =>
      rw [manyWithin_nil_of_some hview] at herror
      obtain herror | ⟨_, _, _, herror⟩ := bind_eq_error.1 herror
      · apply hround b f hf hview e h herror
      · cases herror
  | cons c bound ih =>
    cases hview : f.next?.bind select with
    | none =>
      rw [manyWithin_of_none hview] at herror
      cases herror
    | some b =>
      rw [manyWithin_cons_of_some hview] at herror
      obtain herror | ⟨a, g, hs, herror⟩ := bind_eq_error.1 herror
      · apply hround b f hf hview e h herror
      · obtain ⟨ts, hreach, hts⟩ := hnext b f a g hview hs
        have := hreach.size_le
        obtain herror | ⟨_, _, _, herror⟩ := bind_eq_error.1 herror
        · have hlater : g.FailsIn L e h := ih (by omega) herror
          apply (hlater.mono fun us hus => .self (hts us hus)).after hreach
        · cases herror

/-- What the items of a sequence have taken can stand before whatever is in the language. -/
theorem reach_of_manyWhile {select : Token → Option β} {item : β → Parse α} {g : Front}
    {as : List α}
    (hnext : ∀ b g a g', g.next?.bind select = some b → item b g = .ok a g' →
      ∃ ts, g.Reach ts g' ∧ ∀ us, L us → L (ts ++ us))
    (h : Parse.manyWhile select item f = .ok as g) :
  ∃ ts, f.Reach ts g ∧ ∀ us, L us → L (ts ++ us)
  := by
  apply manyWithin_induct
    (I := fun f _ g => ∃ ts, f.Reach ts g ∧ ∀ us, L us → L (ts ++ us)) _ _ h
  · exact fun f => ⟨[], .refl f, fun _ hus => hus⟩
  · rintro f b a g _ h hview ha ⟨us, hreach', hus⟩
    obtain ⟨ts, hreach, hts⟩ := hnext b f a g hview ha
    refine ⟨ts ++ us, hreach.trans hreach', fun vs hvs => ?_⟩
    rw [List.append_assoc]
    apply hts _ (hus vs hvs)

/-- Items separated by commas keep to the phrases that they make up. -/
theorem separated {item : Parse α} {one : α → Phrase} {many : List α → Phrase}
    (hitem : Reads item one)
    (hlast : ∀ ts a, Derives ts (one a) → Derives ts (many [a]))
    (hnext : ∀ ts us a as, Derives ts (one a) → Derives us (many as) →
      Derives (ts ++ .delimiter .comma :: us) (many (a :: as)))
    {n : Nat} (hkeeps : ∀ g, g.size ≤ n → KeepsTo item (Forms one) g) (hf : f.size ≤ n) :
  KeepsTo (Parse.separated item) (Forms many) f
  := by
  have hone {us : List Token} (h : Forms one us) : Forms many us := by
    obtain ⟨a, hus⟩ := h
    exact ⟨_, hlast us a hus⟩
  have hend : Continues one many [] := by
    intro ts hts
    rw [List.append_nil]
    apply hone hts
  have hcomma {us : List Token} (h : Forms many us) :
      Continues one many (.delimiter .comma :: us) := by
    rintro ts ⟨a, hts⟩
    obtain ⟨as, hus⟩ := h
    exact ⟨_, hnext ts us a as hts hus⟩
  refine .bind_reads hitem (hkeeps f hf) (fun ts hts => .self (hone hts)) fun a g ts ha hts _ => ?_
  have := hitem.size_lt ha
  have hlater : KeepsTo
      (Parse.manyWhile (fun t => if t = .delimiter .comma then some () else none)
        fun _ => do Parse.skip .comma; item) (Continues one many) g := by
    refine .manyWhile (n := n) ?_ ?_ (by omega)
    · intro _ g hg _
      apply bind_skip (.self hend)
      intro g' hskip
      have := size_lt_of_skip hskip
      apply (hkeeps g' (by omega)).mono
      exact fun us hus => .self (hcomma (hone hus))
    · intro _ g b g' _ hround
      obtain ⟨_, g₁, hskip, hb⟩ := bind_eq_ok.1 hround
      obtain ⟨hview, hadv⟩ := skip_eq_ok.1 hskip
      obtain ⟨us, hreach, hus, -⟩ := hitem _ _ _ hb
      exact ⟨_, .take hview hadv hreach, fun vs hvs => hcomma (hvs us ⟨b, hus⟩)⟩
  apply (hlater.return_bind fun as => a :: as).mono
  exact fun us hus => .self (hus ts ⟨a, hts⟩)

/-- Operands joined by the operators of a level keep to the phrases of that level. -/
theorem chain {level : Level} {operand : Parse Expr}
    (hoperand : Reads operand (.expression level.tighter)) {n : Nat}
    (hkeeps : ∀ g, g.size ≤ n → KeepsTo operand (Forms (.expression level.tighter)) g)
    (hf : f.size ≤ n) :
  KeepsTo (Parse.chain level operand) (Forms (.expression (.binary level))) f
  := by
  refine .bind_reads hoperand (hkeeps f hf) ?_ fun e g ts he hts _ => ?_
  · rintro ts ⟨e, hts⟩
    exact .self ⟨e, .noBinary hts⟩
  · have := hoperand.size_lt he
    refine .foldWhile_extends (n := n) ?_ ?_ (.noBinary hts) (by omega)
    · intro l op g hg hview
      obtain ⟨t, ht, hop⟩ := Option.bind_eq_some_iff.1 hview
      obtain ⟨rfl, rfl⟩ := binaryOp?_eq_some.1 hop
      apply bind_advance ht (.self (.nil _))
      intro g' hadv
      have := Front.size_advance ht hadv
      refine .bind_reads hoperand (hkeeps g' (by omega)) ?_ fun _ _ _ _ _ _ => .pure _
      rintro us ⟨r, hus⟩
      apply Begins.self
      rintro ts ⟨l, hts⟩
      exact ⟨_, .binary hts op.mem_operators_level hus⟩
    · intro l op g e g' hview hround
      obtain ⟨t, ht, hop⟩ := Option.bind_eq_some_iff.1 hview
      obtain ⟨rfl, rfl⟩ := binaryOp?_eq_some.1 hop
      obtain ⟨_, g₁, hadv, hround⟩ := bind_eq_ok.1 hround
      obtain ⟨r, _, hright, hround⟩ := bind_eq_ok.1 hround
      cases hround
      obtain ⟨us, hreach, hus, -⟩ := hoperand _ _ _ hright
      refine ⟨_, .take ht hadv hreach, ?_⟩
      rintro ts ⟨l, hts⟩
      exact ⟨_, .binary hts op.mem_operators_level hus⟩

end KeepsTo

end Parse

end Letter
