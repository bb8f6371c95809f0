import Letter.Proofs.Tree.NormalForm

/-!
# Which fault is reported

Reading an object comes to a sequence of checks.  The tag of the object is checked first, then
come all checks of the fields of its kind that are present, in the order of the kind, and at last
it is checked that no field is missing.  What is reported is the error of the first check that
fails, so that reading fails exactly if one of the objects that it meets has a fault.

Members that are no fields lead to no check, whatever stands in them.

Main statement: `Tree.ofObject_error_iff_check`.
-/

namespace Letter

/-! ### Tags -/

/-- A text is no tag exactly if it is that of no kind. -/
theorem Kind.ofTag?_eq_none_iff {s : String} :
  ofTag? s = none ↔ ∀ k : Kind, k.tag ≠ s
  := by
  constructor
  · rintro h k rfl
    rw [ofTag?_tag] at h
    cases h
  · intro h
    rw [ofTag?, List.find?_eq_none]
    exact fun k _ hk => h k (beq_iff_eq.1 hk)

/-- A text is the tag of the kind that it names. -/
theorem Kind.tag_of_ofTag? {s : String} {k : Kind} (h : ofTag? s = some k) :
  k.tag = s
  := by
  have hk := List.find?_some h
  exact beq_iff_eq.1 hk

namespace Json

/-! ### Faults -/

/-- The objects that reading a value meets: the value itself, and what is met in the items of a
list and in the fields that an object of a known kind has. -/
inductive Meets : Json → List (String × Json) → Prop where
  | here (members : List (String × Json)) : Meets (object members) members
  | item {items : List Json} {v : Json} {found : List (String × Json)} (hitem : v ∈ items)
      (h : Meets v found) : Meets (list items) found
  | field {members : List (String × Json)} {k : Kind} {d : Kind.Field} {v : Json}
      {found : List (String × Json)} (hkind : kindOf? members = some k) (hfield : d ∈ k.fields)
      (hpresent : members.lookup d.name = some v) (h : Meets v found) :
      Meets (object members) found

/-- An object has a fault of its own: it has no tag, a tag that is no text or a tag that is that of
no kind, or a field of its kind that has to be given is missing. -/
inductive Faulty (members : List (String × Json)) : Prop where
  | untagged (h : members.lookup "type" = none)
  | notText {v : Json} (h : members.lookup "type" = some v) (htext : ∀ s, v ≠ scalar (.text s))
  | unknown {s : String} (h : members.lookup "type" = some (scalar (.text s)))
      (htag : ∀ k : Kind, k.tag ≠ s)
  | missing {k : Kind} {d : Kind.Field} (h : members.lookup "type" = some (scalar (.text k.tag)))
      (hfield : d ∈ k.fields) (hrequired : d.default? = none)
      (habsent : members.lookup d.name = none)

/-! ### Checks -/

/-- A check of an object. -/
inductive Check where
  /-- The tag is that of a kind. -/
  | tag (members : List (String × Json))
  /-- Every field of a kind that has to be given is present. -/
  | fields (kind : Kind) (members : List (String × Json))

namespace Check

/-- The names of the fields of a kind that have to be given and are not among the members. -/
def lacking (kind : Kind) (members : List (String × Json)) : List String :=
  (kind.fields.filter fun d => d.default?.isNone && (members.lookup d.name).isNone).map
    Kind.Field.name

/-- The error of a check, if it fails.  A missing tag is shown as one that is nothing. -/
def error? : Check → Option DecodeError
  | tag members =>
    match kindOf? members with
    | some _ => none
    | none => some (.unknownTag ((members.lookup "type").getD (.scalar .null)).literal)
  | fields kind members =>
    match lacking kind members with
    | [] => none
    | names => some (.missingFields kind names)

end Check

mutual

/-- The checks of a value, in the order in which reading comes to them as long as none fails. -/
def checks : Json → List Check
  | scalar _ => []
  | list items => itemChecks items
  | object members =>
    .tag members ::
      match kindOf? members with
      | none => []
      | some k =>
        let inside := memberChecks members
        (k.fields.flatMap fun d => (inside.lookup d.name).getD []) ++ [.fields k members]

/-- The checks of values, one after another. -/
def itemChecks : List Json → List Check
  | [] => []
  | v :: later => checks v ++ itemChecks later

/-- The checks of each member. -/
def memberChecks : List (String × Json) → List (String × List Check)
  | [] => []
  | (name, v) :: later => (name, checks v) :: memberChecks later

end

theorem itemChecks_eq_flatMap (items : List Json) :
  itemChecks items = items.flatMap checks
  := by
  induction items with
  | nil => rfl
  | cons v items ih => rw [itemChecks, List.flatMap_cons, ih]

theorem lookup_memberChecks (members : List (String × Json)) (name : String) :
  (memberChecks members).lookup name = (members.lookup name).map checks
  := by
  induction members with
  | nil => rfl
  | cons m members ih =>
    obtain ⟨n, v⟩ := m
    rw [memberChecks, List.lookup_cons, List.lookup_cons, ih]
    cases name == n <;> rfl

/-- The checks of those members that are among some fields, in the order of the fields. -/
def fieldChecks (members : List (String × Json)) (fields : List Kind.Field) : List Check :=
  fields.flatMap fun d => ((members.lookup d.name).map checks).getD []

/-- An object is checked for its tag, then for what is in its fields, and then for those that it
lacks. -/
theorem checks_object (members : List (String × Json)) :
  checks (object members) = .tag members ::
    match kindOf? members with
    | none => []
    | some k => fieldChecks members k.fields ++ [.fields k members]
  := by
  rw [checks]
  cases kindOf? members with
  | none => rfl
  | some k => simp only [lookup_memberChecks, fieldChecks]

/-! ### Checks and the objects that are met -/

theorem mem_fieldChecks {members : List (String × Json)} {fields : List Kind.Field} {c : Check} :
  c ∈ fieldChecks members fields
    ↔ ∃ d ∈ fields, ∃ v, members.lookup d.name = some v ∧ c ∈ checks v
  := by
  rw [fieldChecks, List.mem_flatMap]
  refine exists_congr fun d => and_congr_right fun _ => ?_
  cases members.lookup d.name <;> simp

/-- The member of a given name is a member. -/
theorem mem_of_lookup {members : List (String × Json)} {name : String} {v : Json}
    (h : members.lookup name = some v) :
  (name, v) ∈ members
  := by
  obtain ⟨before, after, rfl, -⟩ := List.lookup_eq_some_iff.1 h
  simp

/-- Every object that is met is checked, and no other one. -/
theorem mem_checks_iff {v : Json} {c : Check} :
  c ∈ checks v
    ↔ ∃ found, Meets v found
      ∧ (c = .tag found ∨ ∃ k, kindOf? found = some k ∧ c = .fields k found)
  := by
  induction v using Json.induction with
  | scalar s => exact iff_of_false nofun nofun
  | list items ih =>
    rw [checks, itemChecks_eq_flatMap, List.mem_flatMap]
    constructor
    · rintro ⟨v, hv, hc⟩
      obtain ⟨found, hmeets, hcheck⟩ := (ih v hv).1 hc
      exact ⟨found, .item hv hmeets, hcheck⟩
    · rintro ⟨found, ⟨⟩ | ⟨hv, hmeets⟩, hcheck⟩
      exact ⟨_, hv, (ih _ hv).2 ⟨found, hmeets, hcheck⟩⟩
  | object members ih =>
    rw [checks_object, List.mem_cons]
    constructor
    · rintro (rfl | hc)
      · exact ⟨members, .here members, .inl rfl⟩
      · cases hkind : kindOf? members with
        | none => simp [hkind] at hc
        | some k =>
          rw [hkind] at hc
          obtain hc | hc := List.mem_append.1 hc
          · obtain ⟨d, hd, v, hv, hc⟩ := mem_fieldChecks.1 hc
            obtain ⟨found, hmeets, hcheck⟩ := (ih _ (mem_of_lookup hv)).1 hc
            exact ⟨found, .field hkind hd hv hmeets, hcheck⟩
          · exact ⟨members, .here members, .inr ⟨k, hkind, List.mem_singleton.1 hc⟩⟩
    · rintro ⟨found, hmeets, hcheck⟩
      cases hmeets with
      | here =>
        obtain rfl | ⟨k, hkind, rfl⟩ := hcheck
        · exact .inl rfl
        · simp [hkind]
      | @field _ k d v _ hkind hd hv hmeets =>
        have hc := (ih _ (mem_of_lookup hv)).2 ⟨found, hmeets, hcheck⟩
        rw [hkind]
        exact .inr (List.mem_append_left _ (mem_fieldChecks.2 ⟨d, hd, v, hv, hc⟩))

/-- The kind of an object is that of its tag. -/
theorem kindOf?_eq_some_iff {members : List (String × Json)} {k : Kind} :
  kindOf? members = some k ↔ members.lookup "type" = some (scalar (.text k.tag))
  := by
  rw [kindOf?]
  split
  · next s h =>
    rw [h, Option.some_inj, scalar.injEq, Scalar.text.injEq]
    constructor
    · exact fun hk => (Kind.tag_of_ofTag? hk).symm
    · rintro rfl
      exact Kind.ofTag?_tag k
  · next h => exact iff_of_false (by simp) (h k.tag)

/-- An object has a fault exactly if one of its own checks fails. -/
theorem faulty_iff {members : List (String × Json)} :
  Faulty members
    ↔ (Check.tag members).error?.isSome
      ∨ ∃ k, kindOf? members = some k ∧ (Check.fields k members).error?.isSome
  := by
  have htag : (Check.tag members).error?.isSome ↔ kindOf? members = none := by
    rw [Check.error?]
    cases kindOf? members <;> simp
  have hfields (k : Kind) : (Check.fields k members).error?.isSome
      ↔ ∃ d ∈ k.fields, d.default? = none ∧ members.lookup d.name = none := by
    have hlacking : Check.lacking k members = []
        ↔ ¬ ∃ d ∈ k.fields, d.default? = none ∧ members.lookup d.name = none := by
      simp [Check.lacking, List.filter_eq_nil_iff]
    rw [Check.error?]
    split
    · next h => exact iff_of_false nofun (hlacking.1 h)
    · next h => exact iff_of_true rfl (not_not.1 (mt hlacking.2 h))
  rw [htag]
  constructor
  · intro h
    cases h with
    | untagged h => simp [kindOf?, h]
    | @notText v h htext =>
      left
      rw [kindOf?, h]
      split
      · next s hs => exact absurd (Option.some.inj hs) (htext s)
      · rfl
    | unknown h hs =>
      left
      rw [kindOf?, h]
      exact Kind.ofTag?_eq_none_iff.2 hs
    | @missing k d h hd hrequired habsent =>
      exact .inr ⟨k, kindOf?_eq_some_iff.2 h, (hfields k).2 ⟨d, hd, hrequired, habsent⟩⟩
  · rintro (h | ⟨k, hkind, herror⟩)
    · rw [kindOf?] at h
      split at h
      · next s hs => exact .unknown hs (Kind.ofTag?_eq_none_iff.1 h)
      · next htext =>
        cases hlookup : members.lookup "type" with
        | none => exact .untagged hlookup
        | some v => exact .notText hlookup fun s hs => htext s (hlookup.trans (hs ▸ rfl))
    · obtain ⟨d, hd, hrequired, habsent⟩ := (hfields k).1 herror
      exact .missing (kindOf?_eq_some_iff.1 hkind) hd hrequired habsent

/-- Some check of a value fails exactly if an object that is met has a fault. -/
theorem findSome?_isSome_iff_faulty (v : Json) :
  ((checks v).findSome? Check.error?).isSome ↔ ∃ found, Meets v found ∧ Faulty found
  := by
  rw [List.findSome?_isSome_iff]
  constructor
  · rintro ⟨c, hc, herror⟩
    obtain ⟨found, hmeets, rfl | ⟨k, hkind, rfl⟩⟩ := mem_checks_iff.1 hc
    · exact ⟨found, hmeets, faulty_iff.2 (.inl herror)⟩
    · exact ⟨found, hmeets, faulty_iff.2 (.inr ⟨k, hkind, herror⟩)⟩
  · rintro ⟨found, hmeets, hfaulty⟩
    obtain herror | ⟨k, hkind, herror⟩ := faulty_iff.1 hfaulty
    · exact ⟨_, mem_checks_iff.2 ⟨found, hmeets, .inl rfl⟩, herror⟩
    · exact ⟨_, mem_checks_iff.2 ⟨found, hmeets, .inr ⟨k, hkind, rfl⟩⟩, herror⟩

/-! ### Members that are no fields -/

/-- Whether reading an object looks at the members of a name: the tag, and the fields of its kind. -/
def isRead (kind? : Option Kind) (name : String) : Bool :=
  name == "type" || kind?.any fun k => k.fields.any fun d => d.name == name

mutual

/-- A value without the members that reading does not look at, in the objects that it meets.  The
tag of an object is kept as it is. -/
def pruned : Json → Json
  | scalar v => scalar v
  | list items => list (prunedItems items)
  | object members => object (prunedMembers (kindOf? members) members)

/-- The values of a list without the members that reading does not look at. -/
def prunedItems : List Json → List Json
  | [] => []
  | v :: later => pruned v :: prunedItems later

/-- The members that reading looks at in an object of a kind, themselves without those that it does
not look at. -/
def prunedMembers (kind? : Option Kind) : List (String × Json) → List (String × Json)
  | [] => []
  | (name, v) :: later =>
    if isRead kind? name then
      (name, if name = "type" then v else pruned v) :: prunedMembers kind? later
    else prunedMembers kind? later

end

theorem prunedItems_eq_map (items : List Json) :
  prunedItems items = items.map pruned
  := by
  induction items with
  | nil => rfl
  | cons v items ih => rw [prunedItems, List.map_cons, ih]

/-- The members that reading looks at are kept. -/
theorem lookup_prunedMembers {kind? : Option Kind} {name : String} (h : isRead kind? name)
    (members : List (String × Json)) :
  (prunedMembers kind? members).lookup name
    = (members.lookup name).map fun v => if name = "type" then v else pruned v
  := by
  induction members with
  | nil => rfl
  | cons m members ih =>
    obtain ⟨n, v⟩ := m
    rw [prunedMembers, List.lookup_cons]
    by_cases hname : name = n
    · subst hname
      rw [if_pos h, List.lookup_cons_self, beq_self_eq_true]
      rfl
    · rw [beq_eq_false_iff_ne.2 hname]
      split
      · rw [List.lookup_cons, beq_eq_false_iff_ne.2 hname]
        exact ih
      · exact ih

theorem lookup_type_prunedMembers (kind? : Option Kind) (members : List (String × Json)) :
  (prunedMembers kind? members).lookup "type" = members.lookup "type"
  := by
  rw [lookup_prunedMembers (by simp [isRead])]
  simp

/-- The fields of a kind stay, themselves without what reading does not look at. -/
theorem lookup_field_prunedMembers {k : Kind} {d : Kind.Field} (hd : d ∈ k.fields)
    (members : List (String × Json)) :
  (prunedMembers (some k) members).lookup d.name = (members.lookup d.name).map pruned
  := by
  have hread : isRead (some k) d.name := by
    rw [isRead, Bool.or_eq_true, Option.any_some, List.any_eq_true]
    exact .inr ⟨d, hd, beq_self_eq_true d.name⟩
  rw [lookup_prunedMembers hread]
  simp only [if_neg (Kind.name_ne_type hd)]

end Json

namespace Tree

open Json

/-! ### What is reported -/

/-- The error of a result, if it is one. -/
def error? {α : Type} : Except DecodeError α → Option DecodeError
  | .ok _ => none
  | .error e => some e

theorem error?_eq_some_iff {α : Type} {r : Except DecodeError α} {e : DecodeError} :
  error? r = some e ↔ r = .error e
  := by cases r <;> simp [error?]

theorem tagKind_eq (members : List (String × Json)) :
  tagKind members =
    match kindOf? members with
    | some k => .ok k
    | none => .error (.unknownTag ((members.lookup "type").getD (.scalar .null)).literal)
  := by
  rw [tagKind, kindOf?]
  split
  · next h =>
    rw [h]
    rfl
  · next s h =>
    rw [h]
    dsimp only
    cases Kind.ofTag? s <;> rfl
  · next v htext h =>
    rw [h]
    split
    · next s hs =>
      split at hs
      · next t ht => exact absurd (Option.some.inj ht) (htext t)
      · cases hs
    · rfl

/-- The first error among the fields of an object is that of the first check of these fields that
fails. -/
theorem faultyField?_eq {members : List (String × Json)} (fields : List Kind.Field)
    (h : ∀ m ∈ members, error? (ofJson m.2) = (checks m.2).findSome? Check.error?) :
  faultyField? (ofJsonMembers members) fields
    = (fieldChecks members fields).findSome? Check.error?
  := by
  induction fields with
  | nil => rfl
  | cons d fields ih =>
    rw [faultyField?, lookup_ofJsonMembers, fieldChecks, List.flatMap_cons, List.findSome?_append,
      ← fieldChecks, ← ih]
    cases hlookup : members.lookup d.name with
    | none => rfl
    | some v =>
      rw [Option.map_some, Option.map_some, Option.getD_some, ← h _ (mem_of_lookup hlookup)]
      cases ofJson v <;> rfl

/-- The fields that are missing can be told before the others are read. -/
theorem missingFields_ofJsonMembers (members : List (String × Json)) (k : Kind) :
  missingFields (ofJsonMembers members) k.fields = Check.lacking k members
  := by simp only [missingFields, Check.lacking, lookup_ofJsonMembers, Option.isNone_map]

/-- The error of an object of a kind is the first one among its fields, or else that of the fields
that are missing. -/
theorem error?_ofMembers (members : List (String × Json)) (k : Kind) :
  error? (ofMembers k (ofJsonMembers members))
    = (faultyField? (ofJsonMembers members) k.fields).or (Check.fields k members).error?
  := by
  rw [ofMembers, missingFields_ofJsonMembers, Check.error?]
  cases faultyField? (ofJsonMembers members) k.fields with
  | some e => rfl
  | none => cases Check.lacking k members <;> rfl

/-- The error of a value is that of its first check that fails. -/
theorem error?_ofJson (v : Json) :
  error? (ofJson v) = (checks v).findSome? Check.error?
  := by
  induction v using Json.induction with
  | scalar s => rfl
  | list items ih =>
    have hlist : error? (ofJson (.list items)) = error? (ofJsons items) := by
      rw [ofJson]
      cases ofJsons items <;> rfl
    rw [hlist, checks, itemChecks_eq_flatMap]
    clear hlist
    -- An item is read only if all items before it are, which is when all their checks have passed.
    induction items with
    | nil => rfl
    | cons v items ih' =>
      rw [List.forall_mem_cons] at ih
      rw [List.flatMap_cons, List.findSome?_append, ← ih.1, ← ih' ih.2, ofJsons]
      cases ofJson v with
      | error e => rfl
      | ok t => cases ofJsons items <;> rfl
  | object members ih =>
    rw [ofJson, tagKind_eq, checks_object, List.findSome?_cons, Check.error?]
    cases kindOf? members with
    | none => rfl
    | some k =>
      dsimp only
      rw [List.findSome?_append, ← faultyField?_eq k.fields ih, List.findSome?_singleton]
      exact error?_ofMembers members k

/-! ### What is not looked at -/

/-- Objects of a kind are read alike if their fields are. -/
theorem ofMembers_congr {k : Kind} {ms ns : Members}
    (h : ∀ d ∈ k.fields, ms.lookup d.name = ns.lookup d.name) :
  ofMembers k ms = ofMembers k ns
  := by
  have hfaulty : ∀ fields : List Kind.Field, (∀ d ∈ fields, ms.lookup d.name = ns.lookup d.name) →
      faultyField? ms fields = faultyField? ns fields := by
    intro fields hfields
    induction fields with
    | nil => rfl
    | cons d fields ih =>
      rw [List.forall_mem_cons] at hfields
      rw [faultyField?, faultyField?, hfields.1, ih hfields.2]
  have hmissing : missingFields ms k.fields = missingFields ns k.fields := by
    rw [missingFields, missingFields, List.filter_congr fun d hd => by rw [h d hd]]
  have hnode : k.node (fieldValue ms k.fields) = k.node (fieldValue ns k.fields) :=
    Kind.node_congr fun d hd => by rw [fieldValue, fieldValue, h d hd]
  rw [ofMembers, ofMembers, hfaulty k.fields h, hmissing, hnode]

/-- A value is read as it is without the members that reading does not look at. -/
theorem ofJson_pruned (v : Json) :
  ofJson v.pruned = ofJson v
  := by
  induction v using Json.induction with
  | scalar s => rfl
  | list items ih =>
    have hitems : ofJsons (items.map pruned) = ofJsons items := by
      induction items with
      | nil => rfl
      | cons v items ih' =>
        rw [List.forall_mem_cons] at ih
        rw [List.map_cons, ofJsons, ofJsons, ih.1, ih' ih.2]
    rw [pruned, prunedItems_eq_map, ofJson, ofJson, hitems]
  | object members ih =>
    have hkind : kindOf? (prunedMembers (kindOf? members) members) = kindOf? members := by
      rw [kindOf?, kindOf?, lookup_type_prunedMembers]
    rw [pruned, ofJson, ofJson, tagKind_eq, tagKind_eq, hkind, lookup_type_prunedMembers]
    cases kindOf? members with
    | none => rfl
    | some k =>
      apply ofMembers_congr
      intro d hd
      rw [lookup_ofJsonMembers, lookup_ofJsonMembers, lookup_field_prunedMembers hd]
      cases hlookup : members.lookup d.name with
      | none => rfl
      | some v => exact congrArg some (ih _ (mem_of_lookup hlookup))

/-! ### Objects -/

/-- What reading an object reports is the error of the first of its checks that fails.  It reports
an error exactly if an object that it meets has a fault.  Another value that differs in nothing but
members that reading does not look at comes to the same node or to the same error. -/
theorem ofObject_error_iff_check (members : List (String × Json)) :
  (∀ e, ofObject (.object members) = .error e
      ↔ ∃ before c after, checks (.object members) = before ++ c :: after
        ∧ c.error? = some e ∧ ∀ b ∈ before, b.error? = none)
    ∧ ((∃ e, ofObject (.object members) = .error e)
      ↔ ∃ found, Meets (.object members) found ∧ Faulty found)
    ∧ ∀ w : Json, w.pruned = (Json.object members).pruned →
      ofObject w = ofObject (.object members)
  := by
  refine ⟨fun e => ?_, ?_, fun w hw => ?_⟩
  · rw [← List.findSome?_eq_some_iff, ← error?_ofJson, error?_eq_some_iff]
    rfl
  · rw [← findSome?_isSome_iff_faulty, ← error?_ofJson, Option.isSome_iff_exists]
    exact exists_congr fun e => error?_eq_some_iff.symm
  · cases w with
    | scalar v => cases hw
    | list items => cases hw
    | object ns =>
      change ofJson (.object ns) = ofJson (.object members)
      rw [← ofJson_pruned (.object ns), hw, ofJson_pruned]

/-- A declaration of a name that is missing, with a value that is no node. -/
def faultyObject : Json :=
  .object [("init", .object [("type", .scalar (.text "Number"))]),
    ("note", .object [("type", .scalar (.integer 3))]),
    ("type", .scalar (.text "VariableDeclaration")),
    ("id", .object [("type", .scalar (.text "Identifier"))])]

/-- The same declaration with other members that are no fields. -/
def markedObject : Json :=
  .object [("init", .object [("name", .list [.object []]), ("type", .scalar (.text "Number"))]),
    ("type", .scalar (.text "VariableDeclaration")),
    ("id", .object [("type", .scalar (.text "Identifier")), ("value", .object [])])]

/-- An object with two faults, of which the first is told, with and without members to spare. -/
theorem ofObject_faultyObject :
  ofObject faultyObject = .error (.missingFields .identifier ["name"])
    ∧ (∃ found, Meets faultyObject found ∧ Faulty found)
    ∧ markedObject.pruned = faultyObject.pruned ∧ ofObject markedObject = ofObject faultyObject
  := by
  obtain ⟨herror, hfaulty, hpruned⟩ := ofObject_error_iff_check
    [("init", .object [("type", .scalar (.text "Number"))]),
      ("note", .object [("type", .scalar (.integer 3))]),
      ("type", .scalar (.text "VariableDeclaration")),
      ("id", .object [("type", .scalar (.text "Identifier"))])]
  have hfirst : ofObject faultyObject = .error (.missingFields .identifier ["name"]) := by
    refine (herror _).2 ⟨[.tag _, .tag _], .fields .identifier _, [.tag _, .fields _ _], rfl, rfl, ?_⟩
    rw [List.forall_mem_cons, List.forall_mem_singleton]
    exact ⟨rfl, rfl⟩
  have hmarked : markedObject.pruned = faultyObject.pruned := by
    with_unfolding_all rfl
  exact ⟨hfirst, hfaulty.1 ⟨_, hfirst⟩, hmarked, hpruned _ hmarked⟩

end Tree

end Letter
