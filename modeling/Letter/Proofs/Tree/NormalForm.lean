import Letter.Proofs.Tree.Interchange
import Mathlib.Logic.Relation

/-!
# The normal form of an object

An object that is read as a node may have its members in any order, members that are no fields
among them, and it may leave out fields that have a default.  The object that the node is written
as has none of these freedoms.  It is the normal form of the one that was read, so that
normalizing a second time changes nothing.

Conversely, reading does not see in which order the members of an object stand, nor which members
it has that are no fields, at any depth.

Main statement: `Tree.toJson_ofObject`.
-/

namespace Letter

/-! ### Values and their members -/

namespace Json

/-- What holds of all scalars, of a list if it holds of its items, and of an object if it holds of
the values of its members, holds of all values. -/
@[elab_as_elim]
theorem induction {P : Json → Prop} (scalar : ∀ v, P (scalar v))
    (list : ∀ items, (∀ v ∈ items, P v) → P (list items))
    (object : ∀ members, (∀ m ∈ members, P m.2) → P (object members)) (v : Json) :
  P v
  := by
  cases v with
  | scalar v => exact scalar v
  | list items => exact list items fun v _ => induction scalar list object v
  | object members => exact object members fun m _ => induction scalar list object m.2
termination_by sizeOf v
decreasing_by
  · next h =>
    have hlt := List.sizeOf_lt_of_mem h
    rw [Json.list.sizeOf_spec]
    omega
  · next h =>
    have hlt := List.sizeOf_lt_of_mem h
    have hm : sizeOf m.2 < sizeOf m := by cases m; simp +arith
    rw [Json.object.sizeOf_spec]
    omega

end Json

/-! ### Normal forms -/

/-- What stands for a field that is left out: an empty list, or nothing. -/
def Kind.Field.absent (d : Kind.Field) : Json :=
  match d.default? with
  | some (.list _) => .list []
  | _ => .scalar .null

namespace Json

/-- The kind that an object is tagged with, if it is tagged with one. -/
def kindOf? (members : List (String × Json)) : Option Kind :=
  match members.lookup "type" with
  | some (.scalar (.text s)) => Kind.ofTag? s
  | _ => none

mutual

/-- A value in which every object of a kind, at any depth, has its tag and then the fields of its
kind, in order: those that are present in their own normal form, and the others as what stands
for them.  Other members are left out. -/
def normal : Json → Json
  | scalar v => scalar v
  | list items => list (normals items)
  | object members =>
    match kindOf? members with
    | none => object members
    | some k =>
      let members := normalMembers members
      object (("type", .scalar (.text k.tag))
        :: k.fields.map fun d => (d.name, (members.lookup d.name).getD d.absent))

/-- The normal forms of values. -/
def normals : List Json → List Json
  | [] => []
  | v :: later => normal v :: normals later

/-- Members with their values in normal form. -/
def normalMembers : List (String × Json) → List (String × Json)
  | [] => []
  | (name, v) :: later => (name, normal v) :: normalMembers later

end

theorem normals_eq_map (vs : List Json) :
  normals vs = vs.map normal
  := by
  induction vs with
  | nil => rfl
  | cons v vs ih => rw [normals, List.map_cons, ih]

/-- What is found under a name in the normal form is the normal form of what was there. -/
theorem lookup_normalMembers (members : List (String × Json)) (name : String) :
  (normalMembers members).lookup name = (members.lookup name).map normal
  := by
  induction members with
  | nil => rfl
  | cons m members ih =>
    obtain ⟨n, v⟩ := m
    rw [normalMembers, List.lookup_cons, List.lookup_cons, ih]
    cases name == n <;> rfl

/-- One value becomes another one by a change that reading does not see: in an object at any
depth, the members change places, or there is one more member that is no field. -/
inductive Rearranged : Json → Json → Prop where
  | reorder {ms ns : List (String × Json)} (h : ms.Perm ns) (distinct : (ms.map Prod.fst).Nodup) :
      Rearranged (object ms) (object ns)
  | extra {ms : List (String × Json)} {name : String} (v : Json) (htype : name ≠ "type")
      (h : ∀ k, kindOf? ms = some k → ∀ d ∈ k.fields, d.name ≠ name) :
      Rearranged (object ms) (object ((name, v) :: ms))
  | member {v w : Json} (before : List (String × Json)) (name : String)
      (after : List (String × Json)) (h : Rearranged v w) :
      Rearranged (object (before ++ (name, v) :: after)) (object (before ++ (name, w) :: after))
  | item {v w : Json} (before after : List Json) (h : Rearranged v w) :
      Rearranged (list (before ++ v :: after)) (list (before ++ w :: after))

/-- Two values differ in nothing but the order of members and members that are no fields. -/
def Alike : Json → Json → Prop := Relation.EqvGen Rearranged

end Json

namespace Tree

open Json

/-! ### What is read is written in normal form -/

/-- Every field that may be left out has the default that stands for it. -/
theorem toJson_default {k : Kind} {d : Kind.Field} (hd : d ∈ k.fields) {t : Tree}
    (h : d.default? = some t) :
  t.toJson = d.absent
  := by
  cases k <;> simp only [Kind.fields, List.mem_cons, List.not_mem_nil, or_false] at hd
  all_goals rcases hd with rfl | rfl | rfl <;> cases h <;> rfl

theorem tagKind_eq_ok_iff {members : List (String × Json)} {k : Kind} :
  tagKind members = .ok k ↔ kindOf? members = some k
  := by
  rw [tagKind, kindOf?]
  split
  · next h => simp [h]
  · next s h =>
    rw [h]
    dsimp only
    cases Kind.ofTag? s <;> simp
  · next v htext h =>
    rw [h]
    split
    · next s heq => exact absurd (Option.some.inj heq) (htext s)
    · simp

/-- A field is read exactly if its member is, or it is left out and has a default. -/
theorem readsField_iff {members : List (String × Json)} {d : Kind.Field} {t : Tree} :
  ReadsField (ofJsonMembers members) d t
    ↔ (∃ v, members.lookup d.name = some v ∧ ofJson v = .ok t)
      ∨ members.lookup d.name = none ∧ d.default? = some t
  := by
  rw [ReadsField, lookup_ofJsonMembers]
  cases members.lookup d.name <;> simp

theorem ofJson_list_eq_ok_iff {items : List Json} {t : Tree} :
  ofJson (.list items) = .ok t
    ↔ ∃ ts, list ts = t ∧ List.Forall₂ (fun v t => ofJson v = .ok t) items ts
  := by
  simp only [← ofJsons_eq_ok_iff, ofJson]
  cases ofJsons items with
  | error e => simp [bind, Except.bind]
  | ok ts => simp [bind, Except.bind, pure, Except.pure]

/-- The tree of a value is written as the normal form of the value. -/
theorem toJson_of_ofJson {v : Json} {t : Tree} (h : ofJson v = .ok t) :
  t.toJson = v.normal
  := by
  induction v using Json.induction generalizing t with
  | scalar s =>
    cases h
    rfl
  | list items ih =>
    obtain ⟨ts, rfl, hitems⟩ := ofJson_list_eq_ok_iff.1 h
    have hnormal : items.map normal = ts.map toJson := by
      rw [← List.forall₂_eq_eq_eq, List.forall₂_map_left_iff, List.forall₂_map_right_iff]
      refine ((List.forall₂_and_left items ts).2 ⟨ih, hitems⟩).imp ?_
      exact fun v t h => (h.1 h.2).symm
    rw [toJson, toJsons_eq_map, normal, normals_eq_map, hnormal]
  | object members ih =>
    obtain ⟨k, f, htag, rfl, hread⟩ := ofJson_object_eq_ok_iff.1 h
    have hfields : ∀ d ∈ k.fields,
        (f d.name).toJson = ((normalMembers members).lookup d.name).getD d.absent := by
      intro d hd
      rw [lookup_normalMembers]
      obtain ⟨v, hlookup, hv⟩ | ⟨hlookup, hdefault⟩ := readsField_iff.1 (hread d hd)
      · obtain ⟨before, after, rfl, -⟩ := List.lookup_eq_some_iff.1 hlookup
        rw [hlookup, Option.map_some, Option.getD_some]
        exact ih (d.name, v) (by simp) hv
      · rw [hlookup, Option.map_none, Option.getD_none]
        exact toJson_default hd hdefault
    rw [toJson_node, normal, tagKind_eq_ok_iff.1 htag]
    dsimp only
    rw [List.map_congr_left fun d hd => by rw [hfields d hd]]

end Tree

/-! ### What reading does not see -/

namespace Json

open Letter.Tree

/-- Two objects are read alike if they have the same tag and their fields are read alike. -/
theorem ofJson_object_congr {ms ns : List (String × Json)} (htag : kindOf? ms = kindOf? ns)
    (hfields : ∀ k, kindOf? ms = some k → ∀ d ∈ k.fields, ∀ t,
      ReadsField (ofJsonMembers ms) d t ↔ ReadsField (ofJsonMembers ns) d t) (t : Tree) :
  ofJson (.object ms) = .ok t ↔ ofJson (.object ns) = .ok t
  := by
  rw [ofJson_object_eq_ok_iff, ofJson_object_eq_ok_iff]
  simp only [tagKind_eq_ok_iff, ← htag]
  refine exists₂_congr fun k f => and_congr_right fun hk => and_congr_right fun _ => ?_
  exact forall₂_congr fun d hd => hfields k hk d hd _

/-- Members with different names are found wherever they stand. -/
theorem lookup_eq_of_perm {ms ns : List (String × Json)} (h : ms.Perm ns)
    (distinct : (ms.map Prod.fst).Nodup) (name : String) :
  ms.lookup name = ns.lookup name
  := by
  induction h with
  | nil => rfl
  | cons m _ ih =>
    rw [List.map_cons, List.nodup_cons] at distinct
    rw [List.lookup_cons, List.lookup_cons, ih distinct.2]
  | swap m n later =>
    simp only [List.map_cons, List.nodup_cons, List.mem_cons, not_or] at distinct
    rw [List.lookup_cons, List.lookup_cons, List.lookup_cons, List.lookup_cons]
    by_cases hm : name = m.1
    · have hn : (name == n.1) = false := beq_eq_false_iff_ne.2 (hm ▸ Ne.symm distinct.1.1)
      rw [hn]
    · rw [beq_eq_false_iff_ne.2 hm]
  | trans h _ ih ih' =>
    rw [ih distinct, ih' ((h.map _).nodup_iff.1 distinct)]

/-- With another value for one member, at most this member is another one. -/
theorem lookup_member (before after : List (String × Json)) (name' : String) (v w : Json)
    (name : String) :
  (before ++ (name', v) :: after).lookup name = (before ++ (name', w) :: after).lookup name
    ∨ (before ++ (name', v) :: after).lookup name = some v
      ∧ (before ++ (name', w) :: after).lookup name = some w
  := by
  simp only [List.lookup_append, List.lookup_cons]
  cases before.lookup name with
  | some u => exact .inl rfl
  | none => cases name == name' <;> simp

theorem Rearranged.ne_scalar {v w : Json} (h : Rearranged v w) (s : Scalar) :
  v ≠ .scalar s ∧ w ≠ .scalar s
  := by cases h <;> simp

/-- A change that reading does not see leaves the tree that is read as it is. -/
theorem Rearranged.ofJson_iff {v w : Json} (h : Rearranged v w) (t : Tree) :
  ofJson v = .ok t ↔ ofJson w = .ok t
  := by
  induction h generalizing t with
  | reorder h distinct =>
    have hlookup := lookup_eq_of_perm h distinct
    refine ofJson_object_congr ?_ (fun k _ d _ t => ?_) t
    · rw [kindOf?, kindOf?, hlookup]
    · rw [readsField_iff, readsField_iff, hlookup]
  | @extra ms name v htype h =>
    refine ofJson_object_congr ?_ (fun k hk d hd t => ?_) t
    · rw [kindOf?, kindOf?, List.lookup_cons, beq_eq_false_iff_ne.2 htype.symm]
    · rw [readsField_iff, readsField_iff, List.lookup_cons, beq_eq_false_iff_ne.2 (h k hk d hd)]
  | @member v w before name after h ih =>
    refine ofJson_object_congr ?_ (fun k hk d hd t => ?_) t
    · rw [kindOf?, kindOf?]
      obtain hsame | ⟨hv, hw⟩ := lookup_member before after name v w "type"
      · rw [hsame]
      · rw [hv, hw]
        split
        · next heq => exact absurd (Option.some.inj heq) (h.ne_scalar _).1
        · split
          · next heq => exact absurd (Option.some.inj heq) (h.ne_scalar _).2
          · rfl
    · rw [readsField_iff, readsField_iff]
      obtain hsame | ⟨hv, hw⟩ := lookup_member before after name v w d.name
      · rw [hsame]
      · simp [hv, hw, ih]
  | @item v w before after h ih =>
    have hitems (ts : List Tree) :
        List.Forall₂ (fun v t => ofJson v = .ok t) (before ++ v :: after) ts
          ↔ List.Forall₂ (fun v t => ofJson v = .ok t) (before ++ w :: after) ts := by
      induction before generalizing ts with
      | nil => simp only [List.nil_append, List.forall₂_cons_left_iff, ih]
      | cons u before ih => simp only [List.cons_append, List.forall₂_cons_left_iff, ih]
    simp only [ofJson_list_eq_ok_iff, hitems]

/-- Values that differ in nothing but the order of members and members that are no fields are
read as the same tree. -/
theorem Alike.ofJson_iff {v w : Json} (h : v.Alike w) (t : Tree) :
  ofJson v = .ok t ↔ ofJson w = .ok t
  := by
  induction h with
  | rel _ _ h => exact h.ofJson_iff t
  | refl => rfl
  | symm _ _ _ ih => exact ih.symm
  | trans _ _ _ _ _ ih ih' => exact ih.trans ih'

end Json

/-! ### Objects that are read as nodes -/

namespace Tree

/-- What is read from an object is a node, and nodes are read from objects alone. -/
theorem ofObject_eq_ok_iff {v : Json} {t : Tree} :
  ofObject v = .ok t ↔ ofJson v = .ok t ∧ t.kind?.isSome
  := by
  cases v with
  | scalar v =>
    refine iff_of_false nofun ?_
    rintro ⟨⟨⟩, hkind⟩
    cases hkind
  | list items =>
    refine iff_of_false nofun ?_
    rintro ⟨hread, hkind⟩
    obtain ⟨ts, rfl, -⟩ := ofJson_list_eq_ok_iff.1 hread
    cases hkind
  | object members =>
    refine (and_iff_left_of_imp fun hread => ?_).symm
    obtain ⟨k, f, -, rfl, -⟩ := ofJson_object_eq_ok_iff.1 hread
    rw [Kind.kind?_node]
    rfl

/-- The node that an object is read as is written as the normal form of the object.  That is read
as the same node and is its own normal form.  An object that differs in nothing but the order of
members and members that are no fields is read as the same node. -/
theorem toJson_ofObject {v : Json} {t : Tree} (h : ofObject v = .ok t) :
  t.toJson = v.normal ∧ ofObject v.normal = .ok t ∧ v.normal.normal = v.normal
    ∧ ∀ w, v.Alike w → ofObject w = .ok t
  := by
  obtain ⟨hread, hkind⟩ := ofObject_eq_ok_iff.1 h
  have hnormal := toJson_of_ofJson hread
  have hread' : ofJson v.normal = .ok t := by
    rw [← hnormal]
    exact ofJson_toJson t
  refine ⟨hnormal, ofObject_eq_ok_iff.2 ⟨hread', hkind⟩, ?_, fun w hw => ?_⟩
  · rw [← toJson_of_ofJson hread', hnormal]
  · exact ofObject_eq_ok_iff.2 ⟨(hw.ofJson_iff t).1 hread, hkind⟩

/-- The object of a declaration without a value, with a member that is no field. -/
def looseObject : Json :=
  .object [("note", .object []),
    ("id", .object [("name", .scalar (.text "x")), ("type", .scalar (.text "Identifier"))]),
    ("type", .scalar (.text "VariableDeclaration"))]

/-- The same object with its members in another order. -/
def turnedObject : Json :=
  .object [("type", .scalar (.text "VariableDeclaration")), ("note", .object []),
    ("id", .object [("name", .scalar (.text "x")), ("type", .scalar (.text "Identifier"))])]

/-- An object with members to spare and a default left out, and the same in another order. -/
theorem toJson_ofObject_looseObject :
  ∃ t, ofObject looseObject = .ok t ∧ t.toJson = looseObject.normal
    ∧ ofObject looseObject.normal = .ok t ∧ looseObject.normal.normal = looseObject.normal
    ∧ looseObject.Alike turnedObject ∧ ofObject turnedObject = .ok t
  := by
  have hread : ofObject looseObject
      = .ok (.declaration (.identifier (.text "x")) (.scalar .null)) := by
    with_unfolding_all rfl
  have hturned : looseObject.Alike turnedObject :=
    .rel _ _ (.reorder (List.perm_append_singleton _ [_, _]) (by decide))
  obtain ⟨hnormal, hread', hnormal', halike⟩ := toJson_ofObject hread
  exact ⟨_, hread, hnormal, hread', hnormal', hturned, halike _ hturned⟩

end Tree

end Letter
