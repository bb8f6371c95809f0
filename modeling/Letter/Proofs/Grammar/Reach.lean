import Letter.Grammar.Front
import Letter.Proofs.Token.Cut

/-!
# Taking tokens

A front reaches another one by taking tokens, one after another.  What the productions of
the grammar do with the text is said by the tokens that they take: a reader reads a
relation if whenever it gives a value, the tokens that it has taken are related to that
value.  Each token taken makes the front smaller, so that a reader that takes at least one
token can be repeated only so often.
-/

namespace Letter

theorem Token.kind_eq_delimiter {t : Token} {d : Delimiter} :
  t.kind = .delimiter d ↔ t = .delimiter d
  := by cases t <;> simp [kind]

theorem Token.kind_eq_keyword {t : Token} {k : Keyword} :
  t.kind = .keyword k ↔ t = .keyword k
  := by cases t <;> simp [kind]

/-! ### Readers -/

namespace Parse

variable {α β : Type}

/-- Two steps come to a value if the first one does, and the second on what the first comes to. -/
theorem bind_eq_ok {p : Parse α} {k : α → Parse β} {f h : Front} {b : β} :
  (p >>= k) f = .ok b h ↔ ∃ a g, p f = .ok a g ∧ k a g = .ok b h
  := by
  change EStateM.bind p k f = .ok b h ↔ _
  rw [EStateM.bind]
  cases p f with
  | ok a g =>
    constructor
    · exact fun h => ⟨a, g, rfl, h⟩
    · rintro ⟨_, _, ⟨⟩, h⟩
      exact h
  | error e g => simp

theorem pure_eq_ok {a b : α} {f g : Front} :
  (pure a : Parse α) f = .ok b g ↔ a = b ∧ f = g
  := by
  change EStateM.pure a f = .ok b g ↔ _
  simp [EStateM.pure]

theorem bind_of_ok {p : Parse α} {f g : Front} {a : α} (h : p f = .ok a g)
    (k : α → Parse β) :
  (p >>= k) f = k a g
  := by
  change EStateM.bind p k f = _
  simp only [EStateM.bind, h]

theorem bind_of_error {p : Parse α} {f g : Front} {e : SyntaxError} (h : p f = .error e g)
    (k : α → Parse β) :
  (p >>= k) f = .error e g
  := by
  change EStateM.bind p k f = _
  simp only [EStateM.bind, h]

theorem bind_congr_left {p q : Parse α} {f : Front} (h : p f = q f) (k : α → Parse β) :
  (p >>= k) f = (q >>= k) f
  := by
  change EStateM.bind p k f = EStateM.bind q k f
  simp only [EStateM.bind, h]

/-- What follows a reader matters only for the values that it gives. -/
theorem bind_congr_ok {p : Parse α} {k l : α → Parse β} {f : Front}
    (h : ∀ a g, p f = .ok a g → k a g = l a g) :
  (p >>= k) f = (p >>= l) f
  := by
  change EStateM.bind p k f = EStateM.bind p l f
  unfold EStateM.bind
  cases hp : p f with
  | ok a g => apply h a g hp
  | error e g => rfl

/-- A token is taken if something is found in the token in view, and the next one is
brought into view. -/
theorem take_eq_ok {expected : TokenKind} {select : Token → Option α} {f g : Front} {a : α} :
  take expected select f = .ok a g
    ↔ ∃ t, f.next? = some t ∧ select t = some a ∧ advance f = .ok () g
  := by
  rw [take]
  cases hview : f.next? with
  | none => simp
  | some t =>
    cases hsel : select t with
    | none => simp [hsel]
    | some b =>
      simp only [Option.some.injEq, exists_eq_left', hsel, bind_eq_ok, pure_eq_ok]
      constructor
      · rintro ⟨_, h, hadv, rfl, rfl⟩
        exact ⟨rfl, hadv⟩
      · rintro ⟨rfl, hadv⟩
        exact ⟨(), g, hadv, rfl, rfl⟩

/-- Looking at the next token leaves the front as it is. -/
theorem peek_eq_ok {select : Token → Option α} {f g : Front} {o : Option α} :
  peek select f = .ok o g ↔ f.next?.bind select = o ∧ f = g
  := by simp [peek]

/-- A token is eaten if it is of the kind that is expected. -/
theorem eat_eq_ok {kind : TokenKind} {f g : Front} {t : Token} :
  eat kind f = .ok t g ↔ f.next? = some t ∧ t.kind = kind ∧ advance f = .ok () g
  := by
  rw [eat, take_eq_ok]
  constructor
  · rintro ⟨u, hview, hkind, hadv⟩
    split at hkind
    · next hk =>
      obtain rfl := Option.some.inj hkind
      exact ⟨hview, hk, hadv⟩
    · cases hkind
  · rintro ⟨hview, hk, hadv⟩
    exact ⟨t, hview, if_pos hk, hadv⟩

theorem skip_eq_ok {d : Delimiter} {f g : Front} :
  skip d f = .ok () g ↔ f.next? = some (.delimiter d) ∧ advance f = .ok () g
  := by
  rw [skip, bind_eq_ok]
  constructor
  · rintro ⟨t, h, heat, hp⟩
    obtain ⟨-, rfl⟩ := pure_eq_ok.1 hp
    obtain ⟨hview, hkind, hadv⟩ := eat_eq_ok.1 heat
    obtain rfl := Token.kind_eq_delimiter.1 hkind
    exact ⟨hview, hadv⟩
  · rintro ⟨hview, hadv⟩
    exact ⟨_, g, eat_eq_ok.2 ⟨hview, rfl, hadv⟩, rfl⟩

theorem skipWord_eq_ok {k : Keyword} {f g : Front} :
  skipWord k f = .ok () g ↔ f.next? = some (.keyword k) ∧ advance f = .ok () g
  := by
  rw [skipWord, bind_eq_ok]
  constructor
  · rintro ⟨t, h, heat, hp⟩
    obtain ⟨-, rfl⟩ := pure_eq_ok.1 hp
    obtain ⟨hview, hkind, hadv⟩ := eat_eq_ok.1 heat
    obtain rfl := Token.kind_eq_keyword.1 hkind
    exact ⟨hview, hadv⟩
  · rintro ⟨hview, hadv⟩
    exact ⟨_, g, eat_eq_ok.2 ⟨hview, rfl, hadv⟩, rfl⟩

theorem sees_delimiter (d : Delimiter) (f : Front) :
  sees [.delimiter d] f = .ok (decide (f.next? = some (.delimiter d))) f
  := by
  rw [sees]
  cases f.next? with
  | none => rfl
  | some t => simp [Token.kind_eq_delimiter]

theorem sees_keyword (k : Keyword) (f : Front) :
  sees [.keyword k] f = .ok (decide (f.next? = some (.keyword k))) f
  := by
  rw [sees]
  cases f.next? with
  | none => rfl
  | some t => simp [Token.kind_eq_keyword]

end Parse

/-! ### Reaching -/

namespace Front

/-- A bound on the number of tokens in view and behind: none if the text has ended, and
one more than the characters behind the token in view otherwise. -/
def size (f : Front) : Nat :=
  match f.next? with
  | none => 0
  | some _ => f.behind.length + 1

theorem size_of_some {f : Front} {t : Token} (h : f.next? = some t) :
  f.size = f.behind.length + 1
  := by rw [size, h]

theorem size_pos {f : Front} {t : Token} (h : f.next? = some t) :
  0 < f.size
  := by
  rw [size_of_some h]
  omega

theorem next?_of_size_zero {f : Front} (h : f.size = 0) :
  f.next? = none
  := by
  cases hview : f.next? with
  | none => rfl
  | some t =>
    have := size_pos hview
    omega

/-- Bringing the next token into view makes the front smaller. -/
theorem size_advance {f g : Front} {t : Token} (hview : f.next? = some t)
    (h : Parse.advance f = .ok () g) :
  g.size < f.size
  := by
  rw [size_of_some hview]
  rw [Parse.advance] at h
  split at h
  · next u s hs =>
    cases h
    have := Scanner.next_token_length_lt hs
    simpa [size, behind] using this
  · cases h
    simp [size]
  · cases h

/-- A front reaches another one by taking tokens. -/
inductive Reach : Front → List Token → Front → Prop where
  | refl (f : Front) : Reach f [] f
  | take {f g h : Front} {t : Token} {ts : List Token} (view : f.next? = some t)
      (advance : Parse.advance f = .ok () g) (later : Reach g ts h) : Reach f (t :: ts) h

namespace Reach

theorem one {f g : Front} {t : Token} (hview : f.next? = some t)
    (h : Parse.advance f = .ok () g) :
  Reach f [t] g
  := take hview h (refl g)

/-- Tokens are taken one after another. -/
theorem trans {f g h : Front} {ts us : List Token} (hfg : Reach f ts g) (hgh : Reach g us h) :
  Reach f (ts ++ us) h
  := by
  induction hfg with
  | refl => exact hgh
  | take view advance later ih =>
    apply take view advance
    apply ih hgh

/-- Tokens are taken one part after the other. -/
theorem split {f h : Front} {ts us : List Token} (hfh : Reach f (ts ++ us) h) :
  ∃ g, Reach f ts g ∧ Reach g us h
  := by
  induction ts generalizing f with
  | nil => exact ⟨f, refl f, hfh⟩
  | cons t ts ih =>
    cases hfh with
    | take view advance later =>
      obtain ⟨g, hg, hgh⟩ := ih later
      exact ⟨g, take view advance hg, hgh⟩

/-- The first token to be taken is in view. -/
theorem uncons {f h : Front} {t : Token} {ts : List Token} (hfh : Reach f (t :: ts) h) :
  ∃ g, f.next? = some t ∧ Parse.advance f = .ok () g ∧ Reach g ts h
  := by
  cases hfh with
  | take view advance later => exact ⟨_, view, advance, later⟩

/-- The only token to be taken is in view. -/
theorem last {f g : Front} {t : Token} (h : Reach f [t] g) :
  f.next? = some t ∧ Parse.advance f = .ok () g
  := by
  obtain ⟨_, hview, hadv, hrefl⟩ := h.uncons
  cases hrefl
  exact ⟨hview, hadv⟩

/-- Each token that is taken makes the front smaller. -/
theorem size_le {f g : Front} {ts : List Token} (h : Reach f ts g) :
  g.size + ts.length ≤ f.size
  := by
  induction h with
  | refl => apply Nat.le_refl
  | take view advance later ih =>
    have := size_advance view advance
    rw [List.length_cons]
    omega

end Reach

/-- To get from a front to another one, at least one token is taken. -/
def Precedes (f g : Front) : Prop := ∃ t ts, Reach f (t :: ts) g

namespace Precedes

variable {f g h : Front} {ts : List Token}

theorem of_advance {t : Token} (hview : f.next? = some t) (h : Parse.advance f = .ok () g) :
  f.Precedes g
  := ⟨t, [], .one hview h⟩

theorem after (hgh : g.Precedes h) (hfg : Reach f ts g) :
  f.Precedes h
  := by
  obtain ⟨t, us, hgh⟩ := hgh
  cases ts with
  | nil => exact ⟨t, us, hfg.trans hgh⟩
  | cons u ts => exact ⟨u, ts ++ t :: us, hfg.trans hgh⟩

theorem before (hfg : f.Precedes g) (hgh : Reach g ts h) :
  f.Precedes h
  := by
  obtain ⟨t, us, hfg⟩ := hfg
  exact ⟨t, us ++ ts, hfg.trans hgh⟩

theorem trans (hfg : f.Precedes g) (hgh : g.Precedes h) :
  f.Precedes h
  := by
  obtain ⟨t, us, hfg⟩ := hfg
  exact hgh.after hfg

theorem size_lt (hfg : f.Precedes g) :
  g.size < f.size
  := by
  obtain ⟨t, ts, hfg⟩ := hfg
  have := hfg.size_le
  rw [List.length_cons] at this
  omega

end Precedes

/-- The front shows the tokens in view and behind, up to the end of the text. -/
def Shows (f : Front) (ts : List Token) : Prop := ∃ g, Reach f ts g ∧ g.next? = none

/-- A front shows no tokens exactly at the end of the input. -/
theorem shows_nil {f : Front} :
  f.Shows [] ↔ f.next? = none
  := by
  constructor
  · rintro ⟨g, hg, hend⟩
    cases hg with
    | refl => exact hend
  · exact fun hend => ⟨f, Reach.refl f, hend⟩

/-- A front shows the token that it looks at, and then what it shows after advancing. -/
theorem shows_cons {f : Front} {t : Token} {ts : List Token} :
  f.Shows (t :: ts) ↔ f.next? = some t ∧ ∃ g, Parse.advance f = .ok () g ∧ g.Shows ts
  := by
  constructor
  · rintro ⟨h, hh, hend⟩
    obtain ⟨g, hview, hadv, hg⟩ := hh.uncons
    exact ⟨hview, g, hadv, h, hg, hend⟩
  · rintro ⟨hview, g, hadv, h, hg, hend⟩
    exact ⟨h, Reach.take hview hadv hg, hend⟩

/-- With a token in view, the front shows the tokens behind it into which the text there is
cut. -/
theorem shows_iff_cut {f : Front} {t : Token} {ts : List Token} (hview : f.next? = some t) :
  f.Shows (t :: ts) ↔ Cut f.behind ts
  := by
  induction ts generalizing f t with
  | nil =>
    rw [shows_cons, behind]
    cases hnext : f.scanner.next with
    | mk r s =>
      cases r with
      | token u =>
        simp [Parse.advance, hnext, shows_nil, Scanner.cut_iff_of_next_token hnext]
      | finished =>
        simp [Parse.advance, hnext, shows_nil, Scanner.cut_iff_of_next_finished hnext, hview]
      | stuck e =>
        simp [Parse.advance, hnext, Scanner.not_cut_of_next_stuck hnext]
  | cons u us ih =>
    rw [shows_cons, behind]
    cases hnext : f.scanner.next with
    | mk r s =>
      cases r with
      | token v =>
        have hadv : Parse.advance f = .ok () ⟨some v, s⟩ := by simp [Parse.advance, hnext]
        have hlater := ih (f := ⟨some v, s⟩) (t := v) rfl
        rw [Scanner.cut_iff_of_next_token hnext]
        constructor
        · rintro ⟨-, g, hg, hshows⟩
          rw [hadv] at hg
          cases hg
          obtain rfl := Option.some.inj (shows_cons.1 hshows).1
          exact ⟨us, rfl, hlater.1 hshows⟩
        · rintro ⟨_, ⟨⟩, hcut⟩
          exact ⟨hview, _, hadv, hlater.2 hcut⟩
      | finished =>
        simp [Parse.advance, hnext, shows_cons, Scanner.cut_iff_of_next_finished hnext]
      | stuck e =>
        simp [Parse.advance, hnext, Scanner.not_cut_of_next_stuck hnext]

end Front

/-- A text is loaded exactly if its first token can be read, and then shows the tokens into
which it is cut. -/
theorem Parse.exists_load_iff {source : List Char} {ts : List Token} (f : Front) :
  (∃ g, Parse.load source f = .ok () g ∧ g.Shows ts) ↔ Cut source ts
  := by
  have hrest : Cut source ts ↔ Cut (Scanner.ofList source).rest ts := Iff.rfl
  rw [hrest]
  rw [Parse.load, Parse.advance]
  cases hnext : (Scanner.ofList source).next with
  | mk r s =>
    cases r with
    | token t =>
      rw [Scanner.cut_iff_of_next_token hnext]
      constructor
      · rintro ⟨g, hg, hshows⟩
        cases hg
        cases ts with
        | nil => cases Front.shows_nil.1 hshows
        | cons u us =>
          obtain rfl := Option.some.inj (Front.shows_cons.1 hshows).1
          exact ⟨us, rfl, (Front.shows_iff_cut rfl).1 hshows⟩
      · rintro ⟨us, rfl, hcut⟩
        exact ⟨_, rfl, (Front.shows_iff_cut rfl).2 hcut⟩
    | finished =>
      rw [Scanner.cut_iff_of_next_finished hnext]
      constructor
      · rintro ⟨g, hg, hshows⟩
        cases hg
        cases ts with
        | nil => rfl
        | cons u us => cases (Front.shows_cons.1 hshows).1
      · rintro rfl
        exact ⟨_, rfl, Front.shows_nil.2 rfl⟩
    | stuck e => simp [Scanner.not_cut_of_next_stuck hnext]

end Letter
