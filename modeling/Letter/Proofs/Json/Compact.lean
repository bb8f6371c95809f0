import Letter.Json.Basic
import Letter.Proofs.Json.Scalar

/-!
# JSON texts without blanks

Whatever the indentation, a JSON text has the same characters outside of the blanks between its
parts, as those within quotes stay: these characters are the compact text of the value.  And they
determine the value if its numbers are whole and halves of pairs stand apart in its texts, since
each item ends where none of its kind can go on.

Main statements: `Json.Exact.unspaced_render` and `Json.Exact.eq_of_render_eq`.
-/

namespace Letter

namespace Json

/-! ### Texts without blanks -/

/-- Whether a character is a blank between the parts of a value. -/
def isSpace (c : Char) : Bool := c = ' ' || c = '\n' || c = '\r' || c = '\t'

/-- A text without the blanks outside of quotes, given whether it begins between quotes. -/
def unspaced : Bool → List Char → List Char
  | _, [] => []
  | false, c :: s => if isSpace c then unspaced false s else c :: unspaced (c = '"') s
  | true, '\\' :: c :: s => '\\' :: c :: unspaced true s
  | true, c :: s => c :: unspaced (c ≠ '"') s

/-- Whether nothing but blanks stands between the parts of a value. -/
def Spacing.IsBlank : Spacing → Prop
  | oneLine => True
  | lines step => ∀ c ∈ step.toList, isSpace c = true

section

variable (coding : Coding)

mutual

/-- The text of a value without blanks between its parts. -/
def compact : Json → List Char
  | scalar v => (v.json coding).toList
  | list items => '[' :: ([','].intercalate (compactItems items) ++ [']'])
  | object members => '\x7b' :: ([','].intercalate (compactMembers members) ++ ['\x7d'])

/-- The texts of the items of a list. -/
def compactItems : List Json → List (List Char)
  | [] => []
  | v :: later => compact v :: compactItems later

/-- The texts of the members of an object. -/
def compactMembers : List (String × Json) → List (List Char)
  | [] => []
  | (name, v) :: later =>
    ((Scalar.jsonText coding name).toList ++ ':' :: compact v) :: compactMembers later

end

/-- The text of a member without blanks between its parts. -/
def compactMember (m : String × Json) : List Char :=
  (Scalar.jsonText coding m.1).toList ++ ':' :: compact coding m.2

theorem compactItems_eq_map (vs : List Json) :
  compactItems coding vs = vs.map (compact coding)
  := by
  induction vs with
  | nil => rfl
  | cons v vs ih => rw [compactItems, List.map_cons, ih]

theorem compactMembers_eq_map (ms : List (String × Json)) :
  compactMembers coding ms = ms.map (compactMember coding)
  := by
  induction ms with
  | nil => rfl
  | cons m ms ih => rw [compactMembers, List.map_cons, ih]; rfl

end

/-- The values all of whose numbers are whole. -/
inductive Exact : Json → Prop where
  | scalar {v : Scalar} (h : v.isExact = true) : Exact (scalar v)
  | list {items : List Json} (h : ∀ v ∈ items, Exact v) : Exact (list items)
  | object {members : List (String × Json)} (h : ∀ m ∈ members, Exact m.2) :
      Exact (object members)

/-- The values in all of whose texts halves of pairs stand apart. -/
inductive Apart (coding : Coding) : Json → Prop where
  | scalar {v : Scalar} (h : v.Apart coding) : Apart coding (scalar v)
  | list {items : List Json} (h : ∀ v ∈ items, Apart coding v) : Apart coding (list items)
  | object {members : List (String × Json)} (names : ∀ m ∈ members, coding.Apart m.1)
      (h : ∀ m ∈ members, Apart coding m.2) : Apart coding (object members)

variable {coding : Coding}

/-! ### What remains without blanks -/

/-- A text outside of quotes stays as it is if it holds neither blanks nor quotes. -/
theorem unspaced_plain {s : List Char} (h : ∀ c ∈ s, isSpace c = false ∧ c ≠ '"')
    (rest : List Char) :
  unspaced false (s ++ rest) = s ++ unspaced false rest
  := by
  induction s with
  | nil => rfl
  | cons c s ih =>
    rw [List.forall_mem_cons] at h
    rw [List.cons_append, unspaced, if_neg (by simp [h.1.1]), decide_eq_false h.1.2, ih h.2]
    rfl

/-- A text between quotes stays as it is if it holds neither quotes nor backslashes. -/
theorem unspaced_inside {s : List Char} (h : ∀ c ∈ s, c ≠ '\\' ∧ c ≠ '"') (rest : List Char) :
  unspaced true (s ++ rest) = s ++ unspaced true rest
  := by
  induction s with
  | nil => rfl
  | cons c s ih =>
    rw [List.forall_mem_cons] at h
    rw [List.cons_append, unspaced, decide_eq_true h.1.2, ih h.2]
    · rfl
    · exact fun _ _ hc => absurd hc h.1.1

theorem hexDigit_ne :
  ∀ n < 16, hexDigit n ≠ '\\' ∧ hexDigit n ≠ '"'
  := by decide

theorem unspaced_jsonUnit (n : Nat) (rest : List Char) :
  unspaced true (Scalar.jsonUnit n ++ rest) = Scalar.jsonUnit n ++ unspaced true rest
  := by
  have hdigits : ∀ c ∈ hexDigits 4 n, c ≠ '\\' ∧ c ≠ '"' := by
    simp only [hexDigits, List.nil_append, List.cons_append, List.forall_mem_cons]
    refine ⟨?_, ?_, ?_, ?_, List.forall_mem_nil _⟩ <;>
    · apply hexDigit_ne
      exact Nat.mod_lt _ (by decide)
  rw [Scalar.jsonUnit, List.cons_append, List.cons_append, unspaced, unspaced_inside hdigits]
  rfl

theorem unspaced_jsonChar (c : Char) (rest : List Char) :
  unspaced true (Scalar.jsonChar coding c ++ rest) = Scalar.jsonChar coding c ++ unspaced true rest
  := by
  rw [Scalar.jsonChar]
  split_ifs with hquote hfeed hreturn htab hback hform hplain
  all_goals try rfl
  · simp only [Bool.or_eq_true, decide_eq_true_eq, not_or] at hquote
    apply unspaced_inside
    simpa using hquote.symm
  · rw [Scalar.jsonPoint]
    split
    · apply unspaced_jsonUnit
    · rw [List.append_assoc, List.append_assoc, unspaced_jsonUnit, unspaced_jsonUnit]

/-- Blanks between quotes stay. -/
theorem unspaced_jsonText (s : String) (rest : List Char) :
  unspaced false ((Scalar.jsonText coding s).toList ++ rest)
    = (Scalar.jsonText coding s).toList ++ unspaced false rest
  := by
  have hbody (s : List Char) : unspaced true (s.flatMap (Scalar.jsonChar coding) ++ '"' :: rest)
      = s.flatMap (Scalar.jsonChar coding) ++ '"' :: unspaced false rest := by
    induction s with
    | nil => rfl
    | cons c s ih =>
      rw [List.flatMap_cons, List.append_assoc, unspaced_jsonChar, ih, List.append_assoc]
  simpa [Scalar.jsonText, unspaced, isSpace] using hbody s.toList

/-- Neither digits nor signs are blanks or quotes. -/
theorem isSpace_of_number {c : Char} (h : isDigit c = true ∨ c = '-') :
  isSpace c = false ∧ c ≠ '"'
  := by
  refine ⟨?_, by rintro rfl; revert h; decide⟩
  rw [← Bool.not_eq_true]
  intro hspace
  simp only [isSpace, Bool.or_eq_true, decide_eq_true_eq] at hspace
  obtain ((rfl | rfl) | rfl) | rfl := hspace <;> revert h <;> decide

/-- A scalar is kept as it is, the blanks in a text included. -/
theorem unspaced_json {v : Scalar} (h : v.isExact = true) (rest : List Char) :
  unspaced false ((v.json coding).toList ++ rest) = (v.json coding).toList ++ unspaced false rest
  := by
  cases v with
  | text s => exact unspaced_jsonText s rest
  | null =>
    rw [Scalar.json]
    rfl
  | boolean b =>
    cases b <;>
    · rw [Scalar.json]
      rfl
  | double x => cases h
  | integer n =>
    apply unspaced_plain
    rw [Scalar.json]
    cases n with
    | ofNat n =>
      rw [toList_toString_ofNat]
      exact fun c hc => isSpace_of_number (.inl (isDigit_of_mem_toDigits hc))
    | negSucc n =>
      rw [toList_toString_negSucc, List.forall_mem_cons]
      exact ⟨isSpace_of_number (.inr rfl),
        fun c hc => isSpace_of_number (.inl (isDigit_of_mem_toDigits hc))⟩

/-! ### Between the parts of a value -/

theorem unspaced_blanks {s : List Char} (h : ∀ c ∈ s, isSpace c = true) (rest : List Char) :
  unspaced false (s ++ rest) = unspaced false rest
  := by
  induction s with
  | nil => rfl
  | cons c s ih =>
    rw [List.forall_mem_cons] at h
    rw [List.cons_append, unspaced, if_pos h.1, ih h.2]

section

variable {spacing : Spacing} (hblank : spacing.IsBlank)
include hblank

theorem unspaced_lineBreak (depth : Nat) (rest : List Char) :
  unspaced false ((spacing.lineBreak depth).toList ++ rest) = unspaced false rest
  := by
  apply unspaced_blanks
  cases spacing with
  | oneLine => nofun
  | lines step =>
    rw [Spacing.lineBreak, String.toList_ofList, List.forall_mem_cons]
    refine ⟨rfl, fun c hc => ?_⟩
    obtain ⟨s, hs, hc⟩ := List.mem_flatten.1 hc
    rw [List.eq_of_mem_replicate hs] at hc
    exact hblank c hc

/-- Of what stands between items a comma is left. -/
theorem unspaced_separator (depth : Nat) (rest : List Char) :
  unspaced false ((spacing.separator depth).toList ++ rest) = ',' :: unspaced false rest
  := by
  cases spacing with
  | oneLine => simp [Spacing.separator, unspaced, isSpace]
  | lines step =>
    rw [Spacing.separator, String.toList_append, List.append_assoc]
    exact congrArg (',' :: ·) (unspaced_lineBreak hblank depth rest)

variable {α : Type} {f : α → String} {g : α → List Char} {as : List α}
  (h : ∀ a ∈ as, ∀ rest, unspaced false ((f a).toList ++ rest) = g a ++ unspaced false rest)
  (depth : Nat) (rest : List Char)
include h

/-- What remains of items is what remains of each, with commas between. -/
theorem unspaced_intercalate (hne : as ≠ []) :
  unspaced false (((spacing.separator depth).intercalate (as.map f)).toList ++ rest)
    = [','].intercalate (as.map g) ++ unspaced false rest
  := by
  induction as with
  | nil => exact absurd rfl hne
  | cons a later ih =>
    rw [List.forall_mem_cons] at h
    cases later with
    | nil => simp [h.1]
    | cons b later =>
      have hlater := ih h.2 (List.cons_ne_nil b later)
      simp only [List.map_cons, String.intercalate_cons_cons, List.intercalate_cons_cons,
        String.toList_append, List.append_assoc] at hlater ⊢
      rw [h.1, unspaced_separator hblank, hlater, List.singleton_append]

/-- Of items in brackets the brackets are left, and commas between what is left of the items. -/
theorem unspaced_enclose {opening closing : String} {o c : Char}
    (hopening : ∀ rest, unspaced false (opening.toList ++ rest) = o :: unspaced false rest)
    (hclosing : ∀ rest, unspaced false (closing.toList ++ rest) = c :: unspaced false rest) :
  unspaced false ((spacing.enclose depth opening closing (as.map f)).toList ++ rest)
    = o :: ([','].intercalate (as.map g) ++ [c]) ++ unspaced false rest
  := by
  cases as with
  | nil => simp [Spacing.enclose, hopening, hclosing]
  | cons a later =>
    rw [List.map_cons, Spacing.enclose, ← List.map_cons]
    · simp only [String.toList_append, List.append_assoc]
      rw [hopening, unspaced_lineBreak hblank,
        unspaced_intercalate hblank h _ _ (List.cons_ne_nil a later), unspaced_lineBreak hblank,
        hclosing]
      simp
    · exact List.cons_ne_nil _ _

end

theorem renderItems_eq_map (spacing : Spacing) (depth : Nat) (vs : List Json) :
  renderItems coding spacing depth vs = vs.map (renderAt coding spacing depth)
  := by
  induction vs with
  | nil => rfl
  | cons v vs ih => rw [renderItems, List.map_cons, ih]

theorem renderMembers_eq_map (spacing : Spacing) (depth : Nat) (ms : List (String × Json)) :
  renderMembers coding spacing depth ms
    = ms.map fun m => Scalar.jsonText coding m.1 ++ ": " ++ renderAt coding spacing depth m.2
  := by
  induction ms with
  | nil => rfl
  | cons m ms ih => rw [renderMembers, List.map_cons, ih]

/-- Texts of one value with different indentations differ in blanks outside of quotes alone. -/
theorem Exact.unspaced_renderAt {v : Json} (h : v.Exact) {spacing : Spacing}
    (hblank : spacing.IsBlank) (depth : Nat) (rest : List Char) :
  unspaced false ((renderAt coding spacing depth v).toList ++ rest)
    = compact coding v ++ unspaced false rest
  := by
  induction h generalizing depth rest with
  | scalar h =>
    rw [renderAt, compact]
    exact unspaced_json h rest
  | list _ ih =>
    rw [renderAt, compact, renderItems_eq_map, compactItems_eq_map]
    exact unspaced_enclose hblank (fun v hv => ih v hv (depth + 1)) _ _ (fun _ => rfl)
      fun _ => rfl
  | object _ ih =>
    rw [renderAt, compact, renderMembers_eq_map, compactMembers_eq_map]
    refine unspaced_enclose hblank (fun m hm rest => ?_) _ _ (fun _ => rfl) fun _ => rfl
    simp only [String.toList_append, List.append_assoc]
    rw [unspaced_jsonText, compactMember, List.append_assoc]
    exact congrArg _ (congrArg (':' :: ·) (ih m hm (depth + 1) rest))

/-! ### Values told apart -/

/-- The quoted form of a text in which halves stand apart determines the text and where the form
ends. -/
theorem jsonText_append_inj {s t : String} (hs : coding.Apart s) (ht : coding.Apart t)
    {r r' : List Char}
    (h : (Scalar.jsonText coding s).toList ++ r = (Scalar.jsonText coding t).toList ++ r') :
  s = t ∧ r = r'
  := by
  have hread {s : String} (hs : coding.Apart s) (r : List Char) :
      readText? coding ((Scalar.jsonText coding s).toList ++ r).tail = some (s, r) := by
    simpa [Scalar.jsonText] using readText?_jsonText coding hs r
  have heq := hread hs r
  rw [h, hread ht r'] at heq
  cases heq
  exact ⟨rfl, rfl⟩

/-- What stands after the first of some items. -/
theorem intercalate_cons_append (p : List Char) (ps : List (List Char)) (rest : List Char) :
  [','].intercalate (p :: ps) ++ rest = p ++ (ps.flatMap (',' :: ·) ++ rest)
  := by
  induction ps generalizing p with
  | nil => simp
  | cons q ps ih =>
    rw [List.intercalate_cons_cons, List.append_assoc, List.append_assoc, ih, List.flatMap_cons]
    simp

section

variable {α : Type} {P : α → Prop} {f : α → List Char} {bracket : Char}
  (hbracket : bracket = ']' ∨ bracket = '\x7d')
  {as bs : List α} (has : ∀ a ∈ as, P a) (hbs : ∀ b ∈ bs, P b)
  (h : ∀ a ∈ as, ∀ {b r s}, P b → f a ++ r = f b ++ s → Stops r → Stops s → a = b ∧ r = s)
  {r s : List Char}

include hbracket in
/-- A value stops before further items, or before the bracket behind them. -/
theorem stops_flatMap (ps : List (List Char)) (r : List Char) :
  Stops (ps.flatMap (',' :: ·) ++ bracket :: r)
  := by
  cases ps with
  | nil =>
    rintro _ ⟨⟩
    exact .inr hbracket
  | cons p ps =>
    rintro _ ⟨⟩
    exact .inl rfl

include hbracket hbs h

/-- Items that follow commas are told apart if each is. -/
theorem flatMap_append_inj
    (heq : (as.map f).flatMap (',' :: ·) ++ bracket :: r
      = (bs.map f).flatMap (',' :: ·) ++ bracket :: s) :
  as = bs ∧ r = s
  := by
  have hne : bracket ≠ ',' := by obtain rfl | rfl := hbracket <;> decide
  induction as generalizing bs with
  | nil =>
    cases bs with
    | nil => exact ⟨rfl, List.tail_eq_of_cons_eq heq⟩
    | cons b bs => exact absurd (List.head_eq_of_cons_eq heq) hne
  | cons a as ih =>
    cases bs with
    | nil => exact absurd (List.head_eq_of_cons_eq heq).symm hne
    | cons b bs =>
      rw [List.forall_mem_cons] at hbs h
      simp only [List.map_cons, List.flatMap_cons, List.append_assoc, List.cons_append] at heq
      obtain ⟨rfl, hrest⟩ := h.1 hbs.1 (List.tail_eq_of_cons_eq heq)
        (stops_flatMap hbracket _ r) (stops_flatMap hbracket _ s)
      obtain ⟨rfl, hend⟩ := ih hbs.2 h.2 hrest
      exact ⟨rfl, hend⟩

include has

/-- Items with commas between them and a bracket at the end are told apart if each is, and none
begins with the bracket. -/
theorem intercalate_append_inj (hhead : ∀ {a}, P a → ∀ r s, f a ++ r ≠ bracket :: s)
    (heq : [','].intercalate (as.map f) ++ bracket :: r
      = [','].intercalate (bs.map f) ++ bracket :: s) :
  as = bs ∧ r = s
  := by
  cases as with
  | nil =>
    cases bs with
    | nil => exact ⟨rfl, List.tail_eq_of_cons_eq heq⟩
    | cons b bs =>
      rw [List.map_cons, intercalate_cons_append] at heq
      exact absurd heq.symm (hhead (hbs b List.mem_cons_self) _ _)
  | cons a as =>
    rw [List.map_cons, intercalate_cons_append] at heq
    cases bs with
    | nil => exact absurd heq (hhead (has a List.mem_cons_self) _ _)
    | cons b bs =>
      rw [List.map_cons, intercalate_cons_append] at heq
      rw [List.forall_mem_cons] at hbs h
      obtain ⟨rfl, hrest⟩ := h.1 hbs.1 heq (stops_flatMap hbracket _ r)
        (stops_flatMap hbracket _ s)
      obtain ⟨rfl, hend⟩ := flatMap_append_inj hbracket hbs.2 h.2 hrest
      exact ⟨rfl, hend⟩

end

/-- A scalar without a binary point begins with a character that is no bracket. -/
theorem exists_json_eq_cons {v : Scalar} (h : v.isExact = true) :
  ∃ c chars, (v.json coding).toList = c :: chars ∧ c ∉ ['[', ']', '\x7b', '\x7d']
  := by
  cases v with
  | null => exact ⟨'n', ['u', 'l', 'l'], by rw [Scalar.json]; rfl, by decide⟩
  | boolean b =>
    cases b with
    | true => exact ⟨'t', ['r', 'u', 'e'], by rw [Scalar.json]; rfl, by decide⟩
    | false => exact ⟨'f', ['a', 'l', 's', 'e'], by rw [Scalar.json]; rfl, by decide⟩
  | integer n =>
    obtain ⟨c, digits, hdigits, hc⟩ := exists_toString_eq_cons n
    refine ⟨c, digits, hdigits, fun hbracket => ?_⟩
    simp only [List.mem_cons, List.not_mem_nil, or_false] at hbracket
    obtain rfl | rfl | rfl | rfl := hbracket <;> revert hc <;> decide
  | text s => exact ⟨'"', _, String.toList_ofList, by decide⟩
  | double x => cases h

/-- A scalar does not start with a bracket. -/
theorem json_ne {v : Scalar} (h : v.isExact = true) {c : Char}
    (hc : c ∈ ['[', ']', '\x7b', '\x7d']) (r s : List Char) :
  (v.json coding).toList ++ r ≠ c :: s
  := by
  obtain ⟨c', chars, hchars, hne⟩ := @exists_json_eq_cons coding v h
  rw [hchars]
  rintro ⟨⟩
  exact hne hc

/-- No value begins with a closing bracket. -/
theorem Exact.compact_ne {v : Json} (h : v.Exact) {bracket : Char}
    (hbracket : bracket = ']' ∨ bracket = '\x7d') (r s : List Char) :
  compact coding v ++ r ≠ bracket :: s
  := by
  cases h with
  | scalar h =>
    rw [compact]
    apply json_ne h
    obtain rfl | rfl := hbracket <;> simp
  | list =>
    rintro ⟨⟩
    simp at hbracket
  | object =>
    rintro ⟨⟩
    simp at hbracket

/-- The text of a value without blanks between its parts determines the value and where the text
ends. -/
theorem Exact.compact_append_inj {v w : Json} (hv : v.Exact) (hw : w.Exact)
    (hapart : v.Apart coding) (hapart' : w.Apart coding) {r s : List Char}
    (h : compact coding v ++ r = compact coding w ++ s) (hr : Stops r) (hs : Stops s) :
  v = w ∧ r = s
  := by
  induction hv generalizing w r s with
  | @scalar v hv =>
    rw [compact] at h
    cases hapart with
    | scalar hapart =>
      cases hw with
      | scalar hw =>
        cases hapart' with
        | scalar hapart' =>
          have hread := readScalar?_json coding hv hapart hr
          rw [h, compact, readScalar?_json coding hw hapart' hs] at hread
          cases hread
          exact ⟨rfl, rfl⟩
      | list | object => exact absurd h (json_ne hv (by simp) _ _)
  | @list items hitems ih =>
    cases hapart with
    | list hapart =>
      cases hw with
      | scalar hw => exact absurd h.symm (json_ne hw (by simp) _ _)
      | list hitems' =>
        cases hapart' with
        | list hapart' =>
          simp only [compact, compactItems_eq_map, List.cons_append, List.append_assoc,
            List.cons.injEq, true_and] at h
          obtain ⟨rfl, hend⟩ := intercalate_append_inj (P := fun v => v.Exact ∧ v.Apart coding)
            (.inl rfl) (fun v hv => ⟨hitems v hv, hapart v hv⟩)
            (fun w hw => ⟨hitems' w hw, hapart' w hw⟩)
            (fun v hv _ _ _ hw h => ih v hv hw.1 (hapart v hv) hw.2 h)
            (fun hv => hv.1.compact_ne (.inl rfl)) h
          exact ⟨rfl, hend⟩
      | object => simp [compact] at h
  | @object members hmembers ih =>
    cases hapart with
    | object hnames hapart =>
      cases hw with
      | scalar hw => exact absurd h.symm (json_ne hw (by simp) _ _)
      | list => simp [compact] at h
      | object hmembers' =>
        cases hapart' with
        | object hnames' hapart' =>
          simp only [compact, compactMembers_eq_map, List.cons_append, List.append_assoc,
            List.cons.injEq, true_and] at h
          have hmember (m : String × Json) (hm : m ∈ members) {n : String × Json}
              {r s : List Char} (hn : n.2.Exact ∧ coding.Apart n.1 ∧ n.2.Apart coding)
              (h : compactMember coding m ++ r = compactMember coding n ++ s) (hr : Stops r)
              (hs : Stops s) : m = n ∧ r = s := by
            rw [compactMember, compactMember, List.append_assoc, List.append_assoc] at h
            obtain ⟨hname, hrest⟩ := jsonText_append_inj (hnames m hm) hn.2.1 h
            obtain ⟨hvalue, hend⟩ :=
              ih m hm hn.1 (hapart m hm) hn.2.2 (List.tail_eq_of_cons_eq hrest) hr hs
            exact ⟨Prod.ext hname hvalue, hend⟩
          have hhead (m : String × Json) (r s : List Char) :
              compactMember coding m ++ r ≠ '\x7d' :: s := by
            simp [compactMember, Scalar.jsonText]
          obtain ⟨rfl, hend⟩ := intercalate_append_inj
            (P := fun m => m.2.Exact ∧ coding.Apart m.1 ∧ m.2.Apart coding) (.inr rfl)
            (fun m hm => ⟨hmembers m hm, hnames m hm, hapart m hm⟩)
            (fun m hm => ⟨hmembers' m hm, hnames' m hm, hapart' m hm⟩)
            hmember (fun {m} _ => hhead m) h
          exact ⟨rfl, hend⟩

/-- Without blanks, the text of a value is the same for all indentations by blanks. -/
theorem Exact.unspaced_render {v : Json} (h : v.Exact) {spacing : Spacing}
    (hblank : spacing.IsBlank) :
  unspaced false (v.render spacing coding).toList = compact coding v
  := by simpa [render, unspaced] using h.unspaced_renderAt hblank 0 []

/-- Values whose texts with one indentation are equal are equal, if halves of pairs stand apart in
them. -/
theorem Exact.eq_of_render_eq {v w : Json} (hv : v.Exact) (hw : w.Exact)
    (hapart : v.Apart coding) (hapart' : w.Apart coding) {spacing : Spacing}
    (hblank : spacing.IsBlank) (h : v.render spacing coding = w.render spacing coding) :
  v = w
  := by
  refine (hv.compact_append_inj hw hapart hapart' (r := []) (s := []) ?_ nofun nofun).1
  rw [List.append_nil, List.append_nil, ← hv.unspaced_render hblank, h,
    hw.unspaced_render hblank]

end Json

end Letter
