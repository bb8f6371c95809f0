import Mathlib
import Letter.Proofs.Token.Stuck

/-!
# Readers that share a cursor

Tokens are read from one place, directly or through any number of iterators, in any order.  Each
token of the text is handed out once, to whoever asks next, so that the answers, one after another,
hand out the tokens from the first one on.  Where the end has been met it is met by everyone.

There is one way to be told of an end that is none.  An iterator that has met a character at which
no rule applies only stops from then on, while the other readers are told of the character again.

Main statement: `Cursor.answers_shared`.
-/

namespace Letter

namespace Scanner

variable {s s' : Scanner} {e : Stuck}

/-- Where reading gets stuck, reading again gets stuck at once. -/
theorem next_of_next_stuck (h : s.next = (.stuck e, s')) :
  s'.next = (.stuck e, s')
  := by
  obtain ⟨⟨r, hrest⟩, hoffset, hfirst⟩ := rest_of_next_stuck h
  obtain ⟨rest, offset⟩ := s'
  subst hrest hoffset
  exact next_of_stuck hfirst

/-- Where reading gets stuck, no token is left. -/
theorem remainder_of_next_stuck (h : s.next = (.stuck e, s')) :
  s.remainder = ⟨[], some e, s'⟩
  := by
  rw [remainder.eq_def]
  split
  · next hnext => cases h.symm.trans hnext
  · next hnext =>
    cases h.symm.trans hnext
    rfl
  · next hnext => cases h.symm.trans hnext

/-- What is left to be read is what is read next, and what is left behind it. -/
theorem remainder_next (s : Scanner) :
  s.remainder.tokens = s.next.1.tokens ++ s.next.2.remainder.tokens
    ∧ s.remainder.stuck? = s.next.2.remainder.stuck?
  := by
  cases hnext : s.next with
  | mk x s' =>
    cases x with
    | finished =>
      have hend := (cut_iff_remainder s' []).1 (rest_of_next_finished hnext ▸ .nil)
      rw [hend.1, hend.2]
      exact (cut_iff_remainder s []).1 ((cut_iff_of_next_finished hnext).2 rfl) |>.symm
    | stuck e =>
      rw [remainder_of_next_stuck hnext, remainder_of_next_stuck (next_of_next_stuck hnext)]
      exact ⟨rfl, rfl⟩
    | token t =>
      rw [remainder.eq_def s]
      split
      · next h => cases hnext.symm.trans h
      · next h => cases hnext.symm.trans h
      · next h =>
        cases hnext.symm.trans h
        exact ⟨rfl, rfl⟩

/-- At the end of the text no token is left. -/
theorem remainder_of_rest_nil (h : s.rest = []) :
  s.remainder.tokens = []
  := ((cut_iff_remainder s []).1 (h ▸ .nil)).2

end Scanner

namespace Cursor

/-! ### Requests and what they hand out -/

/-- The tokens that an answer hands out. -/
def Answer.handed : Answer → List Token
  | .reading (.token t) => [t]
  | .tokens ts => ts
  | _ => []

/-- The tokens that answers hand out, in order of time. -/
def handedOut (as : List Answer) : List Token := as.flatMap Answer.handed

/-- What a request is answered with at the end of the text. -/
def Request.answerAtEnd : Request → Answer
  | .next => .reading .finished
  | .atEnd => .truth true
  | .beforeEnd => .truth false
  | .yield _ => .exhausted
  | .remaining => .tokens []
  | .load _ | .seek _ | .iterate => .done

/-- Whether a request neither leaves the text nor moves the place by other means than reading.  The
iterators are counted from `first` on, and there are `count` of all. -/
def Request.IsShared (first count : Nat) : Request → Prop
  | .next | .atEnd | .beforeEnd | .iterate => True
  | .yield i => first ≤ i ∧ i < count
  | .load _ | .remaining | .seek _ => False

/-- The number of iterators that a request creates. -/
def Request.created : Request → Nat
  | .iterate => 1
  | _ => 0

/-- Requests that share a text, made when there are `count` iterators.  Those that yield have been
created from the first of the requests on, when there were `first`. -/
inductive Sharing (first : Nat) : Nat → List Request → Prop where
  | nil {count : Nat} : Sharing first count []
  | cons {count : Nat} {r : Request} {later : List Request} (h : r.IsShared first count)
      (others : Sharing first (count + r.created) later) : Sharing first count (r :: later)

/-- Some requests with their answers. -/
def exchanges (c : Cursor) (rs : List Request) : List (Request × Answer) :=
  rs.zip (c.answers rs).1

/-- Whether an iterator has been told of a character at which no rule applies. -/
def HasRaised (i : Nat) (told : List (Request × Answer)) : Prop :=
  ∃ e, (.yield i, .reading (.stuck e)) ∈ told

variable {c : Cursor} {s : Scanner} {r : Request} {source : List Char} {first : Nat}
  {told : List (Request × Answer)}

theorem length_answers (c : Cursor) (rs : List Request) :
  (c.answers rs).1.length = rs.length
  := by
  induction rs generalizing c with
  | nil => rfl
  | cons r rs ih => simp only [answers, List.length_cons, ih]

theorem map_snd_exchanges (c : Cursor) (rs : List Request) :
  (c.exchanges rs).map Prod.snd = (c.answers rs).1
  := List.map_snd_zip (Nat.le_of_eq (c.length_answers rs))

/-- Requests share a cursor if their parts do, the later ones with the iterators made by the first.
-/
theorem Sharing.append_iff {count : Nat} {rs rs' : List Request} :
  Sharing first count (rs ++ rs')
    ↔ Sharing first count rs ∧ Sharing first (count + (rs.map Request.created).sum) rs'
  := by
  induction rs generalizing count with
  | nil => exact ⟨fun h => ⟨.nil, h⟩, fun h => h.2⟩
  | cons r rs ih =>
    rw [List.map_cons, List.sum_cons, ← Nat.add_assoc]
    constructor
    · rintro (_ | ⟨h, others⟩)
      obtain ⟨hrs, hrs'⟩ := ih.1 others
      exact ⟨.cons h hrs, hrs'⟩
    · rintro ⟨_ | ⟨h, others⟩, hrs'⟩
      exact .cons h (ih.2 ⟨others, hrs'⟩)

/-! ### What is kept by every request -/

/-- A cursor at a place in a text, and what has been told since the text was taken up. -/
structure Shares (source : List Char) (first : Nat) (told : List (Request × Answer)) (c : Cursor)
    (s : Scanner) : Prop where
  source_eq : c.source = source
  place_eq : c.place = .within s
  /-- The place has all characters of the text before or behind it. -/
  extent : s.offset + s.rest.length = source.length
  /-- What has been handed out and what is left are the tokens of the text. -/
  tokens_eq : handedOut (told.map Prod.snd) ++ s.remainder.tokens
    = (Scanner.ofList source).remainder.tokens
  stuck_eq : s.remainder.stuck? = (Scanner.ofList source).remainder.stuck?
  /-- An iterator yields nothing more only for a reason that it has met. -/
  idle : ∀ i, first ≤ i → c.iterators[i]? = some false →
    s.rest = [] ∨ s.remainder.tokens = [] ∧ HasRaised i told
  /-- An iterator that was asked in vain yields nothing more. -/
  stopped : ∀ i a, (.yield i, a) ∈ told → a.handed = [] → c.iterators[i]? = some false

/-- A place, and one that handing out some tokens leads to. -/
structure Moves (s : Scanner) (ts : List Token) (s' : Scanner) : Prop where
  extent : s'.offset + s'.rest.length = s.offset + s.rest.length
  tokens_eq : s.remainder.tokens = ts ++ s'.remainder.tokens
  stuck_eq : s.remainder.stuck? = s'.remainder.stuck?
  ended : s.rest = [] → s'.rest = []

theorem Moves.refl (s : Scanner) :
  Moves s [] s
  := ⟨rfl, rfl, rfl, id⟩

theorem Moves.next (s : Scanner) :
  Moves s s.next.1.tokens s.next.2
  := by
  obtain ⟨htokens, hstuck⟩ := s.remainder_next
  refine ⟨s.next_offset, htokens, hstuck, fun hrest => ?_⟩
  have hle := s.next_length_le
  rw [hrest] at hle
  exact List.length_eq_zero_iff.1 (Nat.le_zero.1 hle)

/-- One more exchange, given what it does to the place and to the iterators. -/
theorem Shares.tell {a : Answer} {s' : Scanner} {iterators : List Bool}
    (h : Shares source first told c s) (hmoves : Moves s a.handed s')
    (hidle : ∀ i, iterators[i]? = some false → c.iterators[i]? = some false ∨ s'.rest = []
      ∨ s'.remainder.tokens = [] ∧ r = .yield i ∧ ∃ e, a = .reading (.stuck e))
    (hkept : ∀ i : Nat, c.iterators[i]? = some false → iterators[i]? = some false)
    (hstopped : ∀ i, r = .yield i → a.handed = [] → iterators[i]? = some false) :
  Shares source first (told ++ [(r, a)]) { c with place := .within s', iterators } s'
  := by
  refine ⟨h.source_eq, rfl, hmoves.extent.trans h.extent, ?_, hmoves.stuck_eq ▸ h.stuck_eq, ?_, ?_⟩
  · rw [← h.tokens_eq, hmoves.tokens_eq, handedOut, handedOut, List.map_append,
      List.flatMap_append, List.append_assoc]
    simp
  · intro i hi hfalse
    obtain hbefore | hended | ⟨htokens, rfl, e, rfl⟩ := hidle i hfalse
    · obtain hrest | ⟨htokens, e, he⟩ := h.idle i hi hbefore
      · exact .inl (hmoves.ended hrest)
      · refine .inr ⟨?_, e, List.mem_append_left _ he⟩
        rw [hmoves.tokens_eq, List.append_eq_nil_iff] at htokens
        exact htokens.2
    · exact .inl hended
    · exact .inr ⟨htokens, e, by simp⟩
  · intro i a' hmem hnone
    obtain hmem | hmem := List.mem_append.1 hmem
    · exact hkept i (h.stopped i a' hmem hnone)
    · obtain ⟨rfl, rfl⟩ := Prod.mk.inj (List.mem_singleton.1 hmem)
      exact hstopped i rfl hnone

/-- The tokens that reading hands out to whoever asks. -/
theorem handed_reading (x : Scanner.Reading × Scanner) :
  (Answer.reading (Place.ofScanner x).1).handed = x.1.tokens
  := by
  obtain ⟨reading, s⟩ := x
  cases reading <;> rfl

/-- The next token is asked for. -/
theorem Shares.next (h : Shares source first told c s) :
  Shares source first (told ++ [(.next, (c.answer .next).1)]) (c.answer .next).2 s.next.2
  := by
  rw [answer_next_of_scanner h.place_eq rfl]
  refine h.tell ?_ (fun _ => .inl) (fun _ => id) nofun
  rw [handed_reading]
  exact .next s

/-- An iterator is asked that may still yield a token. -/
theorem Shares.yield (h : Shares source first told c s) {i : Nat}
    (hlive : c.iterators[i]? = some true) :
  Shares source first (told ++ [(.yield i, (c.answer (.yield i)).1)]) (c.answer (.yield i)).2
    s.next.2
  := by
  obtain ⟨source', place, iterators⟩ := c
  obtain rfl : place = .within s := h.place_eq
  have hset (j : Nat) : (iterators.set i false)[j]? = if i = j then some false else iterators[j]? := by
    have hlt : i < iterators.length := (List.getElem?_eq_some_iff.1 hlive).1
    rw [List.getElem?_set, if_pos hlt]
  have hkept (j : Nat) (hj : iterators[j]? = some false) :
      (iterators.set i false)[j]? = some false := by
    rw [hset, hj]
    split <;> rfl
  have hmoves := Moves.next s
  rw [Cursor.answer, if_pos hlive, Place.next]
  cases hnext : s.next with
  | mk x s' =>
    rw [hnext] at hmoves
    cases x with
    | token t =>
      refine h.tell hmoves (fun _ => .inl) (fun _ => id) fun j _ hnone => ?_
      exact absurd hnone (List.cons_ne_nil t [])
    | finished =>
      refine h.tell hmoves (fun j hj => ?_) hkept fun j hj _ => ?_
      · exact .inr (.inl (Scanner.rest_of_next_finished hnext))
      · cases hj
        rw [hset, if_pos rfl]
    | stuck e =>
      refine h.tell hmoves (fun j hj => ?_) hkept fun j hj _ => ?_
      · rw [hset] at hj
        split at hj
        · next heq =>
          have hstuck := Scanner.remainder_of_next_stuck (Scanner.next_of_next_stuck hnext)
          exact .inr (.inr ⟨by rw [hstuck], heq ▸ rfl, e, rfl⟩)
        · exact .inl hj
      · cases hj
        rw [hset, if_pos rfl]

theorem idle_of_not_live {iterators : List Bool} {i : Nat} (hi : i < iterators.length)
    (hlive : iterators[i]? ≠ some true) :
  iterators[i]? = some false
  := by
  rw [List.getElem?_eq_getElem hi] at hlive ⊢
  simpa using hlive

/-- Every request keeps the place in the text, and hands out the tokens that it passes. -/
theorem Shares.answer (h : Shares source first told c s)
    (hr : r.IsShared first c.iterators.length) :
  ∃ s', Shares source first (told ++ [(r, (c.answer r).1)]) (c.answer r).2 s'
  := by
  obtain ⟨source', place, iterators⟩ := c
  obtain rfl : place = .within s := h.place_eq
  cases r with
  | load _ | remaining | seek _ => exact hr.elim
  | atEnd => exact ⟨s, h.tell (.refl s) (fun _ => .inl) (fun _ => id) nofun⟩
  | beforeEnd => exact ⟨s, h.tell (.refl s) (fun _ => .inl) (fun _ => id) nofun⟩
  | next => exact ⟨_, h.next⟩
  | iterate =>
    refine ⟨s, h.tell (.refl s) (fun i hi => .inl ?_) (fun i hi => ?_) nofun⟩
    · rw [List.getElem?_append] at hi
      split at hi
      · exact hi
      · cases List.mem_singleton.1 (List.mem_of_getElem? hi)
    · exact List.getElem?_append_left (List.getElem?_eq_some_iff.1 hi).1 ▸ hi
  | yield i =>
    by_cases hlive : iterators[i]? = some true
    · exact ⟨_, h.yield hlive⟩
    · have hidle := idle_of_not_live hr.2 hlive
      rw [Cursor.answer, if_neg hlive]
      refine ⟨s, h.tell (.refl s) (fun _ => .inl) (fun _ => id) fun j hj _ => ?_⟩
      cases hj
      exact hidle

/-- The number of iterators after a request. -/
theorem length_iterators_answer (hr : r.IsShared first c.iterators.length) :
  (c.answer r).2.iterators.length = c.iterators.length + r.created
  := by
  cases r with
  | load _ | remaining | seek _ => exact hr.elim
  | next | atEnd | beforeEnd => rfl
  | iterate => exact List.length_append
  | yield i =>
    rw [answer]
    split
    · split <;> simp [Request.created]
    · rfl

/-- Whatever is requested, the tokens of the text are handed out in order. -/
theorem Shares.answers {rs : List Request} (h : Shares source first told c s)
    (hrs : Sharing first c.iterators.length rs) :
  ∃ s', Shares source first (told ++ c.exchanges rs) (c.answers rs).2 s'
  := by
  induction rs generalizing c s told with
  | nil => exact ⟨s, (List.append_nil told).symm ▸ h⟩
  | cons r rs ih =>
    cases hrs with
    | cons hr others =>
      obtain ⟨s', hanswer⟩ := h.answer hr
      rw [← length_iterators_answer hr] at others
      obtain ⟨s'', hanswers⟩ := ih hanswer others
      rw [List.append_assoc] at hanswers
      exact ⟨s'', hanswers⟩

/-- Each request for an iterator makes one. -/
theorem length_iterators_answers {rs : List Request}
    (hrs : Sharing first c.iterators.length rs) :
  (c.answers rs).2.iterators.length = c.iterators.length + (rs.map Request.created).sum
  := by
  induction rs generalizing c with
  | nil => rfl
  | cons r rs ih =>
    cases hrs with
    | cons hr others =>
      rw [← length_iterators_answer hr] at others
      have hlength := ih others
      rw [length_iterators_answer hr] at hlength
      rw [List.map_cons, List.sum_cons, ← Nat.add_assoc]
      exact hlength

/-- Where a text has been taken up, nothing has been told. -/
theorem shares_load (c : Cursor) (source : List Char) :
  Shares source c.iterators.length [] (c.answer (.load source)).2 (Scanner.ofList source)
  := by
  refine ⟨rfl, rfl, Nat.zero_add _, rfl, rfl, fun i hi hfalse => ?_, nofun⟩
  exact absurd (List.getElem?_eq_some_iff.1 hfalse).1 (Nat.not_lt.2 hi)

/-! ### The end -/

/-- A cursor at the end of its text. -/
def AtEnd (c : Cursor) : Prop := c.place = .within ⟨[], c.source.length⟩

theorem Shares.atEnd (h : Shares source first told c s) (hrest : s.rest = []) :
  AtEnd c
  := by
  obtain ⟨rest, offset⟩ := s
  obtain rfl : rest = [] := hrest
  have hextent : offset = source.length := h.extent
  rw [AtEnd, h.place_eq, h.source_eq, hextent]

/-- At the end of the text every request is told of it, and the end stays. -/
theorem AtEnd.answer (h : AtEnd c) (hr : r.IsShared first c.iterators.length) :
  (c.answer r).1 = r.answerAtEnd ∧ AtEnd (c.answer r).2
  := by
  obtain ⟨source, place, iterators⟩ := c
  obtain rfl : place = .within ⟨[], source.length⟩ := h
  have hnext : (Place.within ⟨[], source.length⟩).next source
      = (.finished, .within ⟨[], source.length⟩) := by rw [Place.next, Scanner.next_nil]; rfl
  cases r with
  | load _ | remaining | seek _ => exact hr.elim
  | iterate => exact ⟨rfl, rfl⟩
  | next =>
    rw [Cursor.answer, hnext]
    exact ⟨rfl, rfl⟩
  | atEnd => simp [Cursor.answer, Request.answerAtEnd, Place.offset, AtEnd]
  | beforeEnd => simp [Cursor.answer, Request.answerAtEnd, Place.offset, AtEnd]
  | yield i =>
    rw [Cursor.answer]
    split
    · rw [hnext]
      exact ⟨rfl, rfl⟩
    · exact ⟨rfl, rfl⟩

/-- Behind the end of the text every request is told of it. -/
theorem AtEnd.answers {rs : List Request} (h : AtEnd c)
    (hrs : Sharing first c.iterators.length rs) :
  (c.answers rs).1 = rs.map Request.answerAtEnd
  := by
  induction rs generalizing c with
  | nil => rfl
  | cons r rs ih =>
    cases hrs with
    | cons hr others =>
      obtain ⟨hanswer, hend⟩ := h.answer hr
      rw [← length_iterators_answer hr] at others
      rw [List.map_cons, ← hanswer, ← ih hend others]
      rfl

/-- Reading has come to the end where the answer tells of it. -/
theorem ended_of_ofScanner {x : Scanner.Reading × Scanner}
    (h : (Place.ofScanner x).1 = .finished) :
  x.1 = .finished
  := by
  obtain ⟨reading, s⟩ := x
  cases reading with
  | finished => rfl
  | token _ | stuck _ => cases h

/-- Where reading has come to the end, all tokens have been handed out. -/
theorem Shares.ended (h : Shares source first told c s.next.2) (hnext : s.next.1 = .finished) :
  s.remainder.tokens = [] ∧ AtEnd c
  := by
  have hrest : s.next.2.rest = [] := Scanner.rest_of_next_finished (Prod.ext hnext rfl)
  refine ⟨?_, h.atEnd hrest⟩
  rw [s.remainder_next.1, hnext, Scanner.remainder_of_rest_nil hrest]
  rfl

/-- Who is told of the end is told of it behind all tokens.  The end has been reached then, except
where an iterator has met a character at which no rule applies. -/
theorem Shares.tokens_of_answerAtEnd (h : Shares source first told c s)
    (hr : r.IsShared first c.iterators.length) (hiterate : r ≠ .iterate)
    (hanswer : (c.answer r).1 = r.answerAtEnd) :
  s.remainder.tokens = [] ∧ ((∀ i, r = .yield i → ¬ HasRaised i told) → AtEnd (c.answer r).2)
  := by
  have hplace := h.place_eq
  have hoffset (hle : (c.source.length : Int) ≤ s.offset) : s.remainder.tokens = [] ∧ AtEnd c := by
    have hrest : s.rest = [] := by
      have hextent := h.extent
      rw [← h.source_eq] at hextent
      apply List.eq_nil_of_length_eq_zero
      omega
    exact ⟨Scanner.remainder_of_rest_nil hrest, h.atEnd hrest⟩
  cases r with
  | load _ | remaining | seek _ => exact hr.elim
  | iterate => exact absurd rfl hiterate
  | next =>
    rw [answer_next_of_scanner hplace rfl] at hanswer
    obtain ⟨htokens, hend⟩ := h.next.ended (ended_of_ofScanner (Answer.reading.inj hanswer))
    exact ⟨htokens, fun _ => hend⟩
  | atEnd =>
    have hend : (s.offset : Int) = c.source.length := by
      simpa [Cursor.answer, Request.answerAtEnd, hplace, Place.offset] using hanswer
    exact (hoffset (Int.le_of_eq hend.symm)).imp_right fun hend _ => hend
  | beforeEnd =>
    have hend : ¬ (s.offset : Int) < c.source.length := by
      simpa [Cursor.answer, Request.answerAtEnd, hplace, Place.offset] using hanswer
    exact (hoffset (Int.not_lt.1 hend)).imp_right fun hend _ => hend
  | yield i =>
    by_cases hlive : c.iterators[i]? = some true
    · have hnext : s.next.1 = .finished := by
        rw [Cursor.answer, if_pos hlive, hplace, Place.next] at hanswer
        cases hx : s.next with
        | mk x s' =>
          rw [hx] at hanswer
          cases x with
          | finished => rfl
          | token _ | stuck _ => cases hanswer
      obtain ⟨htokens, hend⟩ := (h.yield hlive).ended hnext
      exact ⟨htokens, fun _ => hend⟩
    · have hidle := idle_of_not_live hr.2 hlive
      have hafter : (c.answer (.yield i)).2 = c := by rw [Cursor.answer, if_neg hlive]
      obtain hrest | ⟨htokens, hraised⟩ := h.idle i hr.1 hidle
      · refine ⟨Scanner.remainder_of_rest_nil hrest, fun _ => ?_⟩
        rw [hafter]
        exact h.atEnd hrest
      · exact ⟨htokens, fun hnot => absurd hraised (hnot i rfl)⟩

/-- Who is told of a character at which no rule applies is told of it behind all tokens. -/
theorem Shares.tokens_of_stuck (h : Shares source first told c s)
    (hr : r.IsShared first c.iterators.length) {e : Stuck}
    (hanswer : (c.answer r).1 = .reading (.stuck e)) :
  s.remainder.tokens = [] ∧ s.remainder.stuck? = some e
  := by
  suffices hnext : s.next.1 = .stuck e by
    rw [Scanner.remainder_of_next_stuck (Prod.ext hnext rfl)]
    exact ⟨rfl, rfl⟩
  have hplace := h.place_eq
  cases hx : s.next with
  | mk x s' =>
    cases r with
    | load _ | remaining | seek _ => exact hr.elim
    | iterate | atEnd | beforeEnd => cases hanswer
    | next =>
      rw [answer_next_of_scanner hplace hx] at hanswer
      cases x <;> cases hanswer
      rfl
    | yield i =>
      rw [Cursor.answer] at hanswer
      split at hanswer
      · rw [hplace, Place.next, hx] at hanswer
        cases x <;> cases hanswer
        rfl
      · cases hanswer

/-- Whatever is requested of a cursor since it has taken up a text, in any order and through any
iterators that have been created since, the answers hand out the tokens of the text in order,
from the first one on.  Questions about the place change nothing.  Who is told of the end is told
of it behind all tokens, and from then on every request is; except that an iterator which has met
a character at which no rule applies is told of an end that the others have not met.  An iterator
that was asked in vain hands out nothing more. -/
theorem answers_shared (c : Cursor) (source : String) {rs : List Request}
    (h : Sharing c.iterators.length c.iterators.length rs) :
  let all := (Scanner.ofList source.toList).remainder
  let start := (c.answer (.load source.toList)).2
  handedOut (start.answers rs).1 <+: all.tokens
    ∧ ∀ before r later, rs = before ++ r :: later →
      let told := start.exchanges before
      let mid := (start.answers before).2
      let a := (mid.answer r).1
      let after := (mid.answer r).2
      (r = .atEnd ∨ r = .beforeEnd → after = mid)
        ∧ (r ≠ .iterate → a = r.answerAtEnd → handedOut (start.answers before).1 = all.tokens
          ∧ ((∀ i, r = .yield i → ¬ HasRaised i told) →
            (after.answers later).1 = later.map Request.answerAtEnd))
        ∧ (∀ e, a = .reading (.stuck e) →
          handedOut (start.answers before).1 = all.tokens ∧ all.stuck? = some e)
        ∧ ∀ i a', r = .yield i → (.yield i, a') ∈ told → a'.handed = [] →
          a = .exhausted ∧ after = mid
  := by
  intro all start
  have hstart := c.shares_load source.toList
  refine ⟨?_, ?_⟩
  · obtain ⟨s, hs⟩ := hstart.answers h
    have htokens := hs.tokens_eq
    rw [List.nil_append, map_snd_exchanges] at htokens
    exact ⟨_, htokens⟩
  · rintro before r later rfl told mid a after
    obtain ⟨hbefore, hrest⟩ := Sharing.append_iff.1 h
    have hcount : mid.iterators.length = c.iterators.length + (before.map Request.created).sum :=
      length_iterators_answers (c := start) hbefore
    rw [← hcount] at hrest
    obtain ⟨s, hs⟩ := hstart.answers hbefore
    rw [List.nil_append] at hs
    obtain _ | ⟨hr, hlater⟩ := hrest
    have htokens (hnone : s.remainder.tokens = []) :
        handedOut (start.answers before).1 = all.tokens := by
      have heq := hs.tokens_eq
      rwa [hnone, List.append_nil, map_snd_exchanges] at heq
    refine ⟨?_, ?_, ?_, ?_⟩
    · rintro (rfl | rfl) <;> rfl
    · intro hiterate hanswer
      obtain ⟨hnone, hend⟩ := hs.tokens_of_answerAtEnd hr hiterate hanswer
      have hlater' : Sharing c.iterators.length after.iterators.length later := by
        rw [length_iterators_answer hr]
        exact hlater
      exact ⟨htokens hnone, fun hraised => (hend hraised).answers hlater'⟩
    · intro e hanswer
      obtain ⟨hnone, hstuck⟩ := hs.tokens_of_stuck hr hanswer
      exact ⟨htokens hnone, hs.stuck_eq.symm.trans hstuck⟩
    · rintro i a' rfl hmem hnone
      have hlive : mid.iterators[i]? ≠ some true := by
        rw [hs.stopped i a' hmem hnone]
        nofun
      have hanswer : mid.answer (.yield i) = (.exhausted, mid) := by
        rw [Cursor.answer, if_neg hlive]
      exact ⟨congrArg Prod.fst hanswer, congrArg Prod.snd hanswer⟩

/-- Requests of two iterators and of a third reader, up to the end of a text of two tokens. -/
def sampleTurns : List Request := [.iterate, .iterate, .yield 0, .next]

/-- Two iterators in turn hand out two tokens, and are exhausted after that, the cursor at its end.
-/
theorem answers_shared_sampleTurns :
  Sharing 0 0 (sampleTurns ++ .yield 1 :: [.yield 0, .atEnd, .next])
    ∧ ∃ told mid, (empty.answer (.load "a b".toList)).2.answers sampleTurns = (told, mid)
      ∧ (mid.answer (.yield 1)).1 = .exhausted
      ∧ handedOut told = (Scanner.ofList "a b".toList).remainder.tokens
      ∧ ((mid.answer (.yield 1)).2.answers [.yield 0, .atEnd, .next]).1
        = [.exhausted, .truth true, .reading .finished]
  := by
  have hshared : Sharing 0 0 (sampleTurns ++ .yield 1 :: [.yield 0, .atEnd, .next]) :=
    .cons trivial (.cons trivial (.cons ⟨Nat.zero_le 0, by decide⟩ (.cons trivial
      (.cons ⟨Nat.zero_le 1, by decide⟩ (.cons ⟨Nat.zero_le 0, by decide⟩
        (.cons trivial (.cons trivial .nil)))))))
  have hend : (((empty.answer (.load "a b".toList)).2.answers sampleTurns).2.answer (.yield 1)).1
      = .exhausted := by
    with_unfolding_all rfl
  have htold : (empty.answer (.load "a b".toList)).2.exchanges sampleTurns
      = [(.iterate, .done), (.iterate, .done), (.yield 0, .reading (.token (.identifier "a"))),
        (.next, .reading (.token (.identifier "b")))] := by
    with_unfolding_all rfl
  obtain ⟨-, hsplit⟩ := answers_shared .empty "a b" hshared
  obtain ⟨-, hends, -⟩ := hsplit sampleTurns (.yield 1) [.yield 0, .atEnd, .next] rfl
  obtain ⟨hhanded, hlater⟩ := hends nofun hend
  refine ⟨hshared, _, _, rfl, hend, hhanded, hlater ?_⟩
  rintro i ⟨⟩ ⟨e, he⟩
  rw [htold] at he
  simp at he

/-- Not everyone is told of the end from the first time on that someone is. -/
theorem not_forall_end_stays :
  ¬ ∀ (c : Cursor) (source : String) (rs : List Request),
      Sharing c.iterators.length c.iterators.length rs →
      ∀ before r later, rs = before ++ r :: later →
        let mid := ((c.answer (.load source.toList)).2.answers before).2
        r ≠ .iterate → (mid.answer r).1 = r.answerAtEnd →
        ((mid.answer r).2.answers later).1 = later.map Request.answerAtEnd
  := by
  intro h
  have hshared : Sharing 0 0 [.iterate, .yield 0, .yield 0, .next] :=
    .cons trivial (.cons ⟨Nat.zero_le 0, by decide⟩ (.cons ⟨Nat.zero_le 0, by decide⟩
      (.cons trivial .nil)))
  have hend : ((((empty.answer (.load "&".toList)).2.answers [.iterate, .yield 0]).2.answer
      (.yield 0)).2.answers [.next]).1 = [.reading (.stuck ⟨'&', 0⟩)] := by
    with_unfolding_all rfl
  have hlater := h .empty "&" _ hshared [.iterate, .yield 0] (.yield 0) [.next] rfl nofun
    (by with_unfolding_all rfl)
  cases hend.symm.trans hlater

end Cursor

end Letter
