import Letter.Proofs.Grammar.Reach

/-!
# Loops of the grammar

A loop whose rounds each take a token is never cut short: by `foldWhile_eq` and
`manyWhile_eq` it does a round and goes on as long as something is found in the token in
view, and the bound on the number of rounds has no part in it.
-/

namespace Letter.Parse

variable {α β : Type} {select : Token → Option β}

/-! ### One round -/

section

variable {step : α → β → Parse α} {f : Front} {a : α}

theorem foldWithin_of_none (h : f.next?.bind select = none) (bound : List Char) :
  foldWithin select step bound a f = .ok a f
  := by
  have hpeek : peek select f = .ok none f := by rw [peek, h]
  cases bound with
  | nil =>
    rw [foldWithin, bind_of_ok hpeek]
    rfl
  | cons c bound =>
    rw [foldWithin, bind_of_ok hpeek]
    rfl

theorem foldWithin_nil_of_some {b : β} (h : f.next?.bind select = some b) :
  foldWithin select step [] a f = step a b f
  := by
  have hpeek : peek select f = .ok (some b) f := by rw [peek, h]
  rw [foldWithin, bind_of_ok hpeek]
  change EStateM.bind (step a b) pure f = _
  rw [EStateM.bind]
  cases step a b f with
  | ok a g => rfl
  | error e g => rfl

theorem foldWithin_cons_of_some {b : β} (h : f.next?.bind select = some b) (c : Char)
    (bound : List Char) :
  foldWithin select step (c :: bound) a f
    = (step a b >>= fun a => foldWithin select step bound a) f
  := by
  have hpeek : peek select f = .ok (some b) f := by rw [peek, h]
  rw [foldWithin, bind_of_ok hpeek]

/-- What holds before a loop, and is kept by each of its rounds, holds after it. -/
theorem foldWithin_induct {I : α → Front → Prop}
    (hstep : ∀ a b f a' g, I a f → f.next?.bind select = some b → step a b f = .ok a' g →
      I a' g)
    {bound : List Char} {a' : α} {g : Front} (ha : I a f)
    (h : foldWithin select step bound a f = .ok a' g) :
  I a' g
  := by
  induction bound generalizing a f with
  | nil =>
    cases hview : f.next?.bind select with
    | none =>
      rw [foldWithin_of_none hview] at h
      cases h
      exact ha
    | some b =>
      rw [foldWithin_nil_of_some hview] at h
      apply hstep _ _ _ _ _ ha hview h
  | cons c bound ih =>
    cases hview : f.next?.bind select with
    | none =>
      rw [foldWithin_of_none hview] at h
      cases h
      exact ha
    | some b =>
      rw [foldWithin_cons_of_some hview] at h
      obtain ⟨a₁, f₁, hs, h⟩ := bind_eq_ok.1 h
      apply ih (hstep _ _ _ _ _ ha hview hs) h

end

/-! ### All rounds -/

theorem foldWhile_of_none {step : α → β → Parse α} {f : Front}
    (h : f.next?.bind select = none) (a : α) :
  foldWhile select a step f = .ok a f
  := foldWithin_of_none h _

/-- Whether each round of a loop makes the front smaller. -/
def Consumes (select : Token → Option β) (round : β → Parse α) : Prop :=
  ∀ b f a g, f.next?.bind select = some b → round b f = .ok a g → g.size < f.size

/-- Whether each round of a loop takes at least one token. -/
def Eats (select : Token → Option β) (round : β → Parse α) : Prop :=
  ∀ b f a g, f.next?.bind select = some b → round b f = .ok a g → f.Precedes g

theorem Eats.consumes {round : β → Parse α} (h : Eats select round) :
  Consumes select round
  := fun b f a g hview hround => (h b f a g hview hround).size_lt

theorem size_pos_of_bind {f : Front} {b : β} (h : f.next?.bind select = some b) :
  0 < f.size
  := by
  obtain ⟨t, hview, -⟩ := Option.bind_eq_some_iff.1 h
  apply Front.size_pos hview

theorem bind_eq_none_of_size {f : Front} (h : f.size = 0) :
  f.next?.bind select = none
  := by
  cases hview : f.next?.bind select with
  | none => rfl
  | some b =>
    have := size_pos_of_bind hview
    omega

/-- What is in front is at most the token that is looked at and what is behind it. -/
theorem size_le_behind (f : Front) :
  f.size ≤ f.behind.length + 1
  := by
  rw [Front.size]
  split
  · omega
  · apply Nat.le_refl

section

variable {step : α → β → Parse α} (hstep : ∀ a, Consumes select (step a))

include hstep

/-- A bound that suffices for the tokens that are left, suffices for those left after a
round. -/
theorem foldWithin_of_some {bound : List Char} {a : α} {f : Front} {b : β}
    (hview : f.next?.bind select = some b) (h : f.size ≤ bound.length + 1) :
  foldWithin select step bound a f
    = (step a b >>= fun a => foldWithin select step bound.tail a) f
  := by
  cases bound with
  | nil =>
    rw [foldWithin_nil_of_some hview]
    cases hs : step a b f with
    | ok a' g =>
      have hlt := hstep _ _ _ _ _ hview hs
      have hend : g.size = 0 := by
        rw [List.length_nil] at h
        omega
      rw [bind_of_ok hs]
      apply (foldWithin_of_none (bind_eq_none_of_size hend) _).symm
    | error e g =>
      change _ = EStateM.bind (step a b) _ f
      simp only [EStateM.bind, hs]
  | cons c bound => apply foldWithin_cons_of_some hview c bound

/-- Bounds that suffice for the tokens that are left make no difference. -/
theorem foldWithin_eq_of_le {bound bound' : List Char} {a : α} {f : Front}
    (h : f.size ≤ bound.length + 1) (h' : f.size ≤ bound'.length + 1) :
  foldWithin select step bound a f = foldWithin select step bound' a f
  := by
  induction hn : f.size using Nat.strongRecOn generalizing bound bound' a f with
  | _ n ih =>
    subst hn
    cases hview : f.next?.bind select with
    | none => rw [foldWithin_of_none hview, foldWithin_of_none hview]
    | some b =>
      rw [foldWithin_of_some hstep hview h, foldWithin_of_some hstep hview h']
      apply bind_congr_ok
      intro a' g hs
      have hlt := hstep _ _ _ _ _ hview hs
      have := List.length_tail (l := bound)
      have := List.length_tail (l := bound')
      apply ih g.size hlt (by omega) (by omega) rfl

/-- A loop ends where nothing is found in the token in view, and does a round and goes on
otherwise. -/
theorem foldWhile_eq (a : α) (f : Front) :
  foldWhile select a step f =
    match f.next?.bind select with
    | none => .ok a f
    | some b => (step a b >>= fun a => foldWhile select a step) f
  := by
  rw [foldWhile]
  split
  · next hview => exact foldWithin_of_none hview _
  · next b hview =>
    rw [foldWithin_of_some hstep hview (size_le_behind f)]
    apply bind_congr_ok
    intro a' g hs
    have hlt := hstep _ _ _ _ _ hview hs
    have hle := size_le_behind f
    have := List.length_tail (l := f.behind)
    apply foldWithin_eq_of_le hstep (by omega)
    apply size_le_behind g

theorem foldWhile_of_some {a a' : α} {b : β} {f g : Front}
    (hview : f.next?.bind select = some b) (hs : step a b f = .ok a' g) :
  foldWhile select a step f = foldWhile select a' step g
  := by
  rw [foldWhile_eq hstep, hview]
  apply bind_of_ok hs

end

/-! ### Sequences -/

theorem manyWithin_of_none {item : β → Parse α} {f : Front} (h : f.next?.bind select = none)
    (bound : List Char) :
  manyWithin select item bound f = .ok [] f
  := by
  have hpeek : peek select f = .ok none f := by rw [peek, h]
  cases bound with
  | nil =>
    rw [manyWithin, bind_of_ok hpeek]
    rfl
  | cons c bound =>
    rw [manyWithin, bind_of_ok hpeek]
    rfl

theorem manyWhile_of_none {item : β → Parse α} {f : Front} (h : f.next?.bind select = none) :
  manyWhile select item f = .ok [] f
  := manyWithin_of_none h _

theorem manyWithin_nil_of_some {item : β → Parse α} {f : Front} {b : β}
    (h : f.next?.bind select = some b) :
  manyWithin select item [] f = (item b >>= fun a => pure [a]) f
  := by
  have hpeek : peek select f = .ok (some b) f := by rw [peek, h]
  rw [manyWithin, bind_of_ok hpeek]

theorem manyWithin_cons_of_some {item : β → Parse α} {f : Front} {b : β}
    (h : f.next?.bind select = some b) (c : Char) (bound : List Char) :
  manyWithin select item (c :: bound) f
    = (item b >>= fun a => manyWithin select item bound >>= fun as => pure (a :: as)) f
  := by
  have hpeek : peek select f = .ok (some b) f := by rw [peek, h]
  rw [manyWithin, bind_of_ok hpeek]

/-- What holds of no items, and is kept when an item is put before others, holds of a
sequence. -/
theorem manyWithin_induct {I : Front → List α → Front → Prop} {item : β → Parse α}
    (hnil : ∀ f, I f [] f)
    (hcons : ∀ f b a g as h, f.next?.bind select = some b → item b f = .ok a g → I g as h →
      I f (a :: as) h)
    {bound : List Char} {as : List α} {f h : Front}
    (hmany : manyWithin select item bound f = .ok as h) :
  I f as h
  := by
  induction bound generalizing as f with
  | nil =>
    cases hview : f.next?.bind select with
    | none =>
      rw [manyWithin_of_none hview] at hmany
      cases hmany
      apply hnil
    | some b =>
      rw [manyWithin_nil_of_some hview] at hmany
      obtain ⟨a, g, hitem, hmany⟩ := bind_eq_ok.1 hmany
      cases hmany
      apply hcons _ _ _ _ _ _ hview hitem
      apply hnil
  | cons c bound ih =>
    cases hview : f.next?.bind select with
    | none =>
      rw [manyWithin_of_none hview] at hmany
      cases hmany
      apply hnil
    | some b =>
      rw [manyWithin_cons_of_some hview] at hmany
      obtain ⟨a, g, hitem, hmany⟩ := bind_eq_ok.1 hmany
      obtain ⟨as, g', hlater, hmany⟩ := bind_eq_ok.1 hmany
      cases hmany
      apply hcons _ _ _ _ _ _ hview hitem
      apply ih hlater

section

variable {item : β → Parse α} (hitem : Consumes select item)

include hitem

/-- A bound that is no smaller than what is in front allows a round and those after it. -/
theorem manyWithin_of_some {bound : List Char} {f : Front} {b : β}
    (hview : f.next?.bind select = some b) (h : f.size ≤ bound.length + 1) :
  manyWithin select item bound f
    = (item b >>= fun a => manyWithin select item bound.tail >>= fun as => pure (a :: as)) f
  := by
  cases bound with
  | nil =>
    rw [manyWithin_nil_of_some hview]
    apply bind_congr_ok
    intro a g hi
    have hlt := hitem _ _ _ _ hview hi
    have hend : g.size = 0 := by
      rw [List.length_nil] at h
      omega
    rw [List.tail_nil, bind_of_ok (manyWithin_of_none (bind_eq_none_of_size hend) _)]
  | cons c bound => apply manyWithin_cons_of_some hview c bound

/-- Bounds that are no smaller than what is in front come to the same. -/
theorem manyWithin_eq_of_le {bound bound' : List Char} {f : Front}
    (h : f.size ≤ bound.length + 1) (h' : f.size ≤ bound'.length + 1) :
  manyWithin select item bound f = manyWithin select item bound' f
  := by
  induction hn : f.size using Nat.strongRecOn generalizing bound bound' f with
  | _ n ih =>
    subst hn
    cases hview : f.next?.bind select with
    | none => rw [manyWithin_of_none hview, manyWithin_of_none hview]
    | some b =>
      rw [manyWithin_of_some hitem hview h, manyWithin_of_some hitem hview h']
      apply bind_congr_ok
      intro a g hi
      have hlt := hitem _ _ _ _ hview hi
      have := List.length_tail (l := bound)
      have := List.length_tail (l := bound')
      have hrest : manyWithin select item bound.tail g
          = manyWithin select item bound'.tail g := ih g.size hlt (by omega) (by omega) rfl
      apply bind_congr_left hrest

/-- A sequence ends where nothing is found in the token in view, and has one more item
otherwise. -/
theorem manyWhile_eq (f : Front) :
  manyWhile select item f =
    match f.next?.bind select with
    | none => .ok [] f
    | some b => (item b >>= fun a => manyWhile select item >>= fun as => pure (a :: as)) f
  := by
  rw [manyWhile]
  split
  · next hview => exact manyWithin_of_none hview _
  · next b hview =>
    rw [manyWithin_of_some hitem hview (size_le_behind f)]
    apply bind_congr_ok
    intro a g hi
    have hlt := hitem _ _ _ _ hview hi
    have hle := size_le_behind f
    have := List.length_tail (l := f.behind)
    have hrest : manyWithin select item f.behind.tail g
        = manyWithin select item g.behind g :=
      manyWithin_eq_of_le hitem (by omega) (size_le_behind g)
    apply bind_congr_left hrest

theorem manyWhile_of_some {b : β} {a : α} {as : List α} {f g h : Front}
    (hview : f.next?.bind select = some b) (ha : item b f = .ok a g)
    (has : manyWhile select item g = .ok as h) :
  manyWhile select item f = .ok (a :: as) h
  := by
  rw [manyWhile_eq hitem, hview]
  change (item b >>= fun a => manyWhile select item >>= fun as => pure (a :: as)) f = _
  rw [bind_of_ok ha, bind_of_ok has]
  rfl

/-- A sequence goes on as long as something is found in the token in view. -/
theorem bind_eq_none_of_manyWhile {f g : Front} {as : List α}
    (h : manyWhile select item f = .ok as g) :
  g.next?.bind select = none
  := by
  induction as generalizing f with
  | nil =>
    rw [manyWhile_eq hitem] at h
    split at h
    · next hview =>
      cases h
      exact hview
    · obtain ⟨_, _, _, h⟩ := bind_eq_ok.1 h
      obtain ⟨_, _, _, h⟩ := bind_eq_ok.1 h
      cases h
  | cons a as ih =>
    rw [manyWhile_eq hitem] at h
    split at h
    · cases h
    · obtain ⟨_, _, _, h⟩ := bind_eq_ok.1 h
      obtain ⟨_, _, hlater, h⟩ := bind_eq_ok.1 h
      cases h
      apply ih hlater

end

/-! ### The fronts that matter -/

/-- Rounds that do the same on all fronts that are reached make the same loop. -/
theorem foldWhile_congr {step step' : α → β → Parse α} (hstep : ∀ a, Eats select (step a))
    {f : Front} (hsame : ∀ a b ts g, f.Reach ts g → g.next?.bind select = some b →
      step a b g = step' a b g) (a : α) :
  foldWhile select a step f = foldWhile select a step' f
  := by
  unfold foldWhile
  generalize f.behind = bound
  induction bound generalizing a f with
  | nil =>
    cases hview : f.next?.bind select with
    | none => rw [foldWithin_of_none hview, foldWithin_of_none hview]
    | some b =>
      rw [foldWithin_nil_of_some hview, foldWithin_nil_of_some hview]
      apply hsame a b [] f (.refl f) hview
  | cons c bound ih =>
    cases hview : f.next?.bind select with
    | none => rw [foldWithin_of_none hview, foldWithin_of_none hview]
    | some b =>
      rw [foldWithin_cons_of_some hview, foldWithin_cons_of_some hview,
        ← bind_congr_left (hsame a b [] f (.refl f) hview)]
      apply bind_congr_ok
      intro a' g hs
      obtain ⟨t, ts, hfg⟩ := hstep _ _ _ _ _ hview hs
      exact ih (fun a b us h hgh => hsame a b _ h (hfg.trans hgh)) a'

/-- Items that are read alike on all fronts that are reached make the same sequence. -/
theorem manyWhile_congr {item item' : β → Parse α} (hitem : Eats select item) {f : Front}
    (hsame : ∀ b ts g, f.Reach ts g → g.next?.bind select = some b → item b g = item' b g) :
  manyWhile select item f = manyWhile select item' f
  := by
  unfold manyWhile
  generalize f.behind = bound
  induction bound generalizing f with
  | nil =>
    cases hview : f.next?.bind select with
    | none => rw [manyWithin_of_none hview, manyWithin_of_none hview]
    | some b =>
      rw [manyWithin_nil_of_some hview, manyWithin_nil_of_some hview]
      apply bind_congr_left (hsame b [] f (.refl f) hview)
  | cons c bound ih =>
    cases hview : f.next?.bind select with
    | none => rw [manyWithin_of_none hview, manyWithin_of_none hview]
    | some b =>
      rw [manyWithin_cons_of_some hview, manyWithin_cons_of_some hview,
        ← bind_congr_left (hsame b [] f (.refl f) hview)]
      apply bind_congr_ok
      intro a g hi
      obtain ⟨t, ts, hfg⟩ := hitem _ _ _ _ hview hi
      exact bind_congr_left (ih fun b us h hgh => hsame b _ h (hfg.trans hgh)) _

/-- A loop whose rounds take tokens takes some, one after another. -/
theorem reach_of_foldWhile {step : α → β → Parse α} (hstep : ∀ a, Eats select (step a))
    {f g : Front} {a a' : α} (h : foldWhile select a step f = .ok a' g) :
  ∃ ts, f.Reach ts g
  := by
  apply foldWithin_induct (I := fun _ g => ∃ ts, f.Reach ts g) _ ⟨[], .refl f⟩ h
  rintro a b g a' h' ⟨ts, hfg⟩ hview hs
  obtain ⟨u, us, hgh⟩ := hstep _ _ _ _ _ hview hs
  exact ⟨_, hfg.trans hgh⟩

theorem reach_of_manyWhile {item : β → Parse α} (hitem : Eats select item) {f g : Front}
    {as : List α} (h : manyWhile select item f = .ok as g) :
  ∃ ts, f.Reach ts g
  := by
  apply manyWithin_induct (I := fun f _ g => ∃ ts, f.Reach ts g) _ _ h
  · exact fun f => ⟨[], .refl f⟩
  · rintro f b a g _ h' hview hi ⟨us, hgh⟩
    obtain ⟨t, ts, hfg⟩ := hitem _ _ _ _ hview hi
    exact ⟨_, hfg.trans hgh⟩

end Letter.Parse
