import Letter.Text.Place
import Letter.Token.Scanner

/-!
# A place in a text that several readers share

A cursor holds a text and one place in it.  Tokens are read directly or through iterators,
any number of which may be open; whoever reads, moves the one place.  An iterator that has
met the end of the text, or a place at which nothing can be read, yields nothing more.

The place may be set before the beginning of the text.  What stands at the beginning is
then read, again and again, until the lengths of what has been read make up for the
distance: `Place.next_distance_lt` says that each token takes some of it away.
-/

namespace Letter

/-- Why nothing can be read before the beginning of a text. -/
inductive Astray where
  /-- No rule applies at the beginning.  The character that is told is the one as far
  before the end of the text. -/
  | stuck (char : Char) (distance : Nat)
  /-- The place is refused. -/
  | refused (e : PlaceError)
  deriving DecidableEq, Repr

/-- The text of an error. -/
def Astray.message : Astray → String
  | stuck char distance => unexpectedAt char (-distance)
  | refused e => e.message

/-- A place of reading. -/
inductive Place where
  /-- A place in the text, or past its end. -/
  | within (s : Scanner)
  /-- A place at a distance before the beginning of the text. -/
  | before (distance : Nat)
  deriving DecidableEq, Repr

namespace Place

/-- The place with a number of characters before it. -/
def seek (source : List Char) (offset : Int) : Place :=
  if offset < 0 then before offset.natAbs else within (Scanner.seek source offset.toNat)

/-- The number of characters before a place, negative before the beginning. -/
def offset : Place → Int
  | within s => s.offset
  | before distance => -distance

/-- The place that is a number of characters after one before the beginning. -/
def advance (source : List Char) (distance length : Nat) : Place :=
  if length < distance then before (distance - length)
  else within (Scanner.seek source (length - distance))

/-- What reading the next token comes to. -/
inductive Reading where
  | token (t : Token)
  | finished
  | stuck (e : Stuck)
  | astray (e : Astray)
  deriving DecidableEq, Repr

/-- What reading in the text comes to. -/
def ofScanner : Scanner.Reading × Scanner → Reading × Place
  | (.token t, s) => (.token t, within s)
  | (.finished, s) => (.finished, within s)
  | (.stuck e, s) => (.stuck e, within s)

/-- Why no rule applies at the beginning of the text. -/
def astrayAt (source : List Char) (distance : Nat) : Astray :=
  match source.reverse[distance - 1]? with
  | some c => .stuck c distance
  | none => .refused .outside

/-- Reads the next token from a distance before the beginning. -/
def nextBefore (source : List Char) (distance : Nat) : Reading × Place :=
  if !fitsWord (-distance) then (.astray (.refused .tooFar), before distance)
  else
    match _h : Rule.first? source with
    | none => (.astray (astrayAt source distance), before distance)
    | some (.token t, _) => (.token t, advance source distance t.text.length)
    | some (.skipped text, _) =>
      if text.length < distance then nextBefore source (distance - text.length)
      else ofScanner (Scanner.seek source (text.length - distance)).next
  termination_by distance
  decreasing_by
    obtain ⟨_, _, hr⟩ := Rule.exists_of_first? _h
    have := List.length_pos_iff.2 (Rule.text_ne_nil hr)
    simp only [Lexeme.text] at this
    omega

/-- Reads the next token. -/
def next (source : List Char) : Place → Reading × Place
  | within s => ofScanner s.next
  | before distance => nextBefore source distance

theorem ofScanner_ne_before {r : Scanner.Reading × Scanner} {reading : Reading}
    {distance : Nat} :
  ofScanner r ≠ (reading, before distance)
  := by
  obtain ⟨r, s⟩ := r
  cases r <;> simp [ofScanner]

/-- A token that leaves the place before the beginning takes some of the distance away. -/
theorem next_distance_lt {source : List Char} {distance d : Nat} {t : Token}
    (h : nextBefore source distance = (.token t, before d)) :
  d < distance
  := by
  fun_induction nextBefore source distance with
  | case1 => simp at h
  | case2 => simp at h
  | case3 distance hfit t' rest hf =>
    obtain ⟨-, hp⟩ := Prod.mk.inj h
    obtain ⟨_, _, hr⟩ := Rule.exists_of_first? hf
    have hpos := List.length_pos_iff.2 (Rule.text_ne_nil hr)
    simp only [Lexeme.text, String.length_toList] at hpos
    unfold advance at hp
    split at hp
    · have := Place.before.inj hp
      omega
    · simp at hp
  | case4 distance hfit text rest hf hlt ih =>
    have := ih h
    omega
  | case5 => exact absurd h ofScanner_ne_before

/-- All that is still to be read: the tokens, what ends them, and the place where reading
ends. -/
structure Remainder where
  /-- The tokens, in order. -/
  tokens : List Token
  /-- What ends them. -/
  ending : Reading
  /-- The place where reading ends. -/
  final : Place

/-- What remains in the text. -/
def remainderWithin (s : Scanner) : Remainder :=
  let all := s.remainder
  ⟨all.tokens, (all.stuck?.map Reading.stuck).getD .finished, within all.final⟩

/-- What remains from a distance before the beginning. -/
def remainderBefore (source : List Char) (distance : Nat) : Remainder :=
  match _h : nextBefore source distance with
  | (.token t, before d) =>
    let later := remainderBefore source d
    { later with tokens := t :: later.tokens }
  | (.token t, within s) =>
    let later := remainderWithin s
    { later with tokens := t :: later.tokens }
  | (ending, place) => ⟨[], ending, place⟩
  termination_by distance
  decreasing_by exact next_distance_lt _h

/-- What remains from a place. -/
def remainder (source : List Char) : Place → Remainder
  | within s => remainderWithin s
  | before distance => remainderBefore source distance

end Place

/-- A text, a place in it, and the iterators that read from there. -/
structure Cursor where
  /-- The text. -/
  source : List Char
  /-- The place shared by all readers. -/
  place : Place
  /-- For each iterator, in order of creation, whether it may still yield. -/
  iterators : List Bool
  deriving DecidableEq, Repr

namespace Cursor

/-- The beginning of the empty text, with no iterator. -/
def empty : Cursor := ⟨[], .within (Scanner.ofList []), []⟩

/-- What can be asked of a cursor. -/
inductive Request where
  /-- Begin to read another text. -/
  | load (source : List Char)
  /-- Read the next token. -/
  | next
  /-- Whether the place is the end of the text. -/
  | atEnd
  /-- Whether the place is before the end of the text. -/
  | beforeEnd
  /-- Read all tokens that remain. -/
  | remaining
  /-- Go to the place with a number of characters before it. -/
  | seek (offset : Int)
  /-- Create an iterator. -/
  | iterate
  /-- Let an iterator, counted from zero, yield a token. -/
  | yield (iterator : Nat)
  deriving DecidableEq, Repr

/-- What a cursor answers. -/
inductive Answer where
  /-- Nothing is asked. -/
  | done
  /-- What reading a token comes to. -/
  | reading (r : Place.Reading)
  /-- The iterator yields nothing more. -/
  | exhausted
  /-- Yes or no. -/
  | truth (b : Bool)
  /-- The tokens that remained. -/
  | tokens (ts : List Token)
  deriving DecidableEq, Repr

/-- The answer to a request, and the cursor afterwards. -/
def answer (c : Cursor) : Request → Answer × Cursor
  | .load source => (.done, { c with source, place := .within (Scanner.ofList source) })
  | .next =>
    let (r, place) := c.place.next c.source
    (.reading r, { c with place })
  | .atEnd => (.truth (c.place.offset = c.source.length), c)
  | .beforeEnd => (.truth (c.place.offset < c.source.length), c)
  | .remaining =>
    let all := c.place.remainder c.source
    let c := { c with place := all.final }
    match all.ending with
    | .token _ | .finished => (.tokens all.tokens, c)
    | r => (.reading r, c)
  | .seek offset => (.done, { c with place := Place.seek c.source offset })
  | .iterate => (.done, { c with iterators := c.iterators ++ [true] })
  | .yield iterator =>
    if c.iterators[iterator]? = some true then
      match c.place.next c.source with
      | (.token t, place) => (.reading (.token t), { c with place })
      | (.finished, place) =>
        (.exhausted, { c with place, iterators := c.iterators.set iterator false })
      | (r, place) =>
        (.reading r, { c with place, iterators := c.iterators.set iterator false })
    else (.exhausted, c)

/-- The answers to requests made one after another, and the cursor afterwards. -/
def answers (c : Cursor) : List Request → List Answer × Cursor
  | [] => ([], c)
  | r :: later =>
    let (a, c) := c.answer r
    let (as, c) := c.answers later
    (a :: as, c)

end Cursor

end Letter
