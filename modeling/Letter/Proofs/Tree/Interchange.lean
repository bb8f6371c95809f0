import Letter.Proofs.Tree.Same
import Letter.Tree.Interchange
import Mathlib.Data.List.Basic
import Mathlib.Data.List.Forall2

/-!
# Trees read back from JSON

A node is known by its kind and by the values of its fields.  Its object has a member for each
of these, and reading an object looks at no other members: `Tree.ofJson_object_eq_ok_iff` says
when it succeeds.  So the object of a node is read as that node, whatever its fields hold.

Main statement: `Tree.ofObject_toJson`.
-/

namespace Letter

/-! ### Nodes by their kinds -/

namespace Kind

theorem ofTag?_tag (k : Kind) :
  ofTag? k.tag = some k
  := by cases k <;> rfl

/-- No field has the name under which the tag stands. -/
theorem name_ne_type {k : Kind} {d : Field} (h : d ∈ k.fields) :
  d.name ≠ "type"
  := by
  revert d
  cases k <;> decide

/-- The fields of a kind have different names. -/
theorem find?_name {k : Kind} {d : Field} (h : d ∈ k.fields) :
  (k.fields.find? fun f => f.name == d.name) = some d
  := by
  cases k <;> simp only [fields, List.mem_cons, List.not_mem_nil, or_false] at h
  all_goals rcases h with rfl | rfl | rfl <;> rfl

theorem kind?_node (k : Kind) (f : String → Tree) :
  (k.node f).kind? = some k
  := by cases k <;> rfl

/-- A node depends on the values of its own fields alone. -/
theorem node_congr {k : Kind} {f g : String → Tree} (h : ∀ d ∈ k.fields, f d.name = g d.name) :
  k.node f = k.node g
  := by cases k <;> simp_all [node, fields]

end Kind

namespace Tree

/-- The children of a node are the values of its fields. -/
theorem exists_node {t : Tree} {k : Kind} (h : t.kind? = some k) :
  ∃ f, k.node f = t ∧ t.children = k.fields.map fun d => f d.name
  := by
  refine ⟨fun name => (((k.fields.map Kind.Field.name).zip t.children).lookup name).getD .null, ?_⟩
  cases t <;> cases h <;> exact ⟨rfl, rfl⟩

theorem sizeOf_lt_of_mem_children {t u : Tree} (h : u ∈ t.children) :
  sizeOf u < sizeOf t
  := by
  cases t <;> simp only [children, List.mem_cons, List.not_mem_nil, or_false] at h
  case list ts =>
    have hlt := List.sizeOf_lt_of_mem h
    rw [list.sizeOf_spec]
    omega
  all_goals rcases h with rfl | rfl | rfl <;> simp +arith

/-- What holds of all scalars, of a list if it holds of its items, and of a node if it holds of
the values of its fields, holds of all trees. -/
@[elab_as_elim]
theorem induction {P : Tree → Prop} (scalar : ∀ v, P (scalar v))
    (list : ∀ ts, (∀ t ∈ ts, P t) → P (list ts))
    (node : ∀ (k : Kind) (f : String → Tree), (∀ d ∈ k.fields, P (f d.name)) → P (k.node f))
    (t : Tree) :
  P t
  := by
  have hchildren : ∀ u ∈ t.children, P u := fun u hu => induction scalar list node u
  cases hkind : t.kind? with
  | none =>
    cases t with
    | scalar v => exact scalar v
    | list ts => exact list ts hchildren
    | _ => cases hkind
  | some k =>
    obtain ⟨f, rfl, heq⟩ := exists_node hkind
    rw [heq, List.forall_mem_map] at hchildren
    exact node k f hchildren
termination_by sizeOf t
decreasing_by exact sizeOf_lt_of_mem_children hu

/-! ### Writing -/

theorem toJsons_eq_map (ts : List Tree) :
  toJsons ts = ts.map toJson
  := by
  induction ts with
  | nil => rfl
  | cons t ts ih => rw [toJsons, List.map_cons, ih]

/-- The object of a node has its tag, and then a member for each of its fields. -/
theorem toJson_node (k : Kind) (f : String → Tree) :
  (k.node f).toJson = .object (("type", .scalar (.text k.tag))
    :: k.fields.map fun d => (d.name, (f d.name).toJson))
  := by cases k <;> rfl

/-! ### Reading -/

theorem lookup_ofJsonMembers (members : List (String × Json)) (name : String) :
  (ofJsonMembers members).lookup name = (members.lookup name).map ofJson
  := by
  induction members with
  | nil => rfl
  | cons m members ih =>
    obtain ⟨n, v⟩ := m
    rw [ofJsonMembers, List.lookup_cons, List.lookup_cons, ih]
    cases name == n <;> rfl

theorem ofJsons_eq_ok_iff {vs : List Json} {ts : List Tree} :
  ofJsons vs = .ok ts ↔ List.Forall₂ (fun v t => ofJson v = .ok t) vs ts
  := by
  induction vs generalizing ts with
  | nil => simp [ofJsons, eq_comm]
  | cons v vs ih =>
    rw [List.forall₂_cons_left_iff, ofJsons]
    simp only [← ih]
    cases ofJson v with
    | error e => exact iff_of_false nofun nofun
    | ok t =>
      cases ofJsons vs with
      | error e => exact iff_of_false nofun nofun
      | ok us => simp [bind, Except.bind, pure, Except.pure, eq_comm]

section

variable {members : Members} {fields : List Kind.Field}

/-- No field is faulty if none of the values that are there is. -/
theorem faultyField?_eq_none_iff :
  faultyField? members fields = none
    ↔ ∀ d ∈ fields, ∀ e, members.lookup d.name ≠ some (.error e)
  := by
  induction fields with
  | nil => simp [faultyField?]
  | cons d fields ih =>
    rw [List.forall_mem_cons, faultyField?]
    split
    · next h => simp [h]
    · next h => exact ih.trans (and_iff_right fun e => h e).symm

/-- No field is missing if each one that is has a default. -/
theorem missingFields_eq_nil_iff :
  missingFields members fields = []
    ↔ ∀ d ∈ fields, members.lookup d.name = none → d.default?.isSome
  := by
  rw [missingFields, List.map_eq_nil_iff, List.filter_eq_nil_iff]
  apply forall₂_congr fun d _ => ?_
  cases d.default? <;> simp

end

/-- A field is read as a tree: its member is, or it is left out and the tree is its default. -/
def ReadsField (members : Members) (d : Kind.Field) (t : Tree) : Prop :=
  match members.lookup d.name with
  | some result => result = .ok t
  | none => d.default? = some t

/-- A field that is read has the value that is there, or its default. -/
theorem ReadsField.fieldValue_eq {members : Members} {k : Kind} {d : Kind.Field} {t : Tree}
    (h : ReadsField members d t) (hd : d ∈ k.fields) :
  fieldValue members k.fields d.name = t
  := by
  rw [ReadsField] at h
  rw [fieldValue]
  cases hlookup : members.lookup d.name with
  | some result =>
    rw [hlookup] at h
    rw [show result = _ from h]
  | none =>
    rw [hlookup] at h
    rw [Kind.find?_name hd, Option.bind_some, show d.default? = _ from h, Option.getD_some]

/-- A node is read from members exactly if each of its fields is. -/
theorem ofMembers_eq_ok_iff {k : Kind} {members : Members} {t : Tree} :
  ofMembers k members = .ok t
    ↔ ∃ f, k.node f = t ∧ ∀ d ∈ k.fields, ReadsField members d (f d.name)
  := by
  rw [ofMembers]
  constructor
  · intro h
    cases hfaulty : faultyField? members k.fields with
    | some e =>
      rw [hfaulty] at h
      cases h
    | none =>
      cases hmissing : missingFields members k.fields with
      | cons _ _ =>
        rw [hfaulty, hmissing] at h
        cases h
      | nil =>
        rw [hfaulty, hmissing] at h
        refine ⟨_, Except.ok.inj h, fun d hd => ?_⟩
        have hfault := faultyField?_eq_none_iff.1 hfaulty d hd
        have hpresent := missingFields_eq_nil_iff.1 hmissing d hd
        rw [ReadsField, fieldValue]
        cases hlookup : members.lookup d.name with
        | some result =>
          cases result with
          | ok u => rfl
          | error e => exact absurd hlookup (hfault e)
        | none =>
          obtain ⟨u, hu⟩ := Option.isSome_iff_exists.1 (hpresent hlookup)
          simp [Kind.find?_name hd, hu]
  · rintro ⟨f, rfl, hread⟩
    have hfaulty : faultyField? members k.fields = none := by
      rw [faultyField?_eq_none_iff]
      intro d hd e hlookup
      have hd' := hread d hd
      rw [ReadsField, hlookup] at hd'
      cases hd'
    have hmissing : missingFields members k.fields = [] := by
      rw [missingFields_eq_nil_iff]
      intro d hd hlookup
      have hd' := hread d hd
      rw [ReadsField, hlookup] at hd'
      exact Option.isSome_of_eq_some hd'
    rw [hfaulty, hmissing]
    exact congrArg Except.ok (Kind.node_congr fun d hd => (hread d hd).fieldValue_eq hd)

/-- An object is read as a node exactly if its tag is that of the kind of the node and each
field of that kind is read. -/
theorem ofJson_object_eq_ok_iff {members : List (String × Json)} {t : Tree} :
  ofJson (.object members) = .ok t
    ↔ ∃ k f, tagKind members = .ok k ∧ k.node f = t
      ∧ ∀ d ∈ k.fields, ReadsField (ofJsonMembers members) d (f d.name)
  := by
  rw [ofJson]
  cases htag : tagKind members with
  | error e => exact iff_of_false nofun (by simp)
  | ok k =>
    change ofMembers k _ = _ ↔ _
    rw [ofMembers_eq_ok_iff]
    simp

/-! ### What is written is read -/

/-- The object of a node is tagged with its kind. -/
theorem tagKind_tagged (k : Kind) (members : List (String × Json)) :
  tagKind (("type", .scalar (.text k.tag)) :: members) = .ok k
  := by
  rw [tagKind, List.lookup_cons_self]
  dsimp only
  rw [Kind.ofTag?_tag]

/-- The members of a node's object are those of its fields. -/
theorem lookup_tagged {k : Kind} {d : Kind.Field} (hd : d ∈ k.fields) (tag : Json)
    (value : String → Json) :
  (("type", tag) :: k.fields.map fun d => (d.name, value d.name)).lookup d.name
    = some (value d.name)
  := by
  have hmap : (k.fields.map fun d => (d.name, value d.name))
      = (k.fields.map Kind.Field.name).map fun name => (name, value name) := by
    rw [List.map_map]
    rfl
  rw [List.lookup_cons, beq_eq_false_iff_ne.2 (Kind.name_ne_type hd), hmap]
  exact List.lookup_graph value (List.mem_map_of_mem hd)

/-- Whatever is written is read as it was. -/
theorem ofJson_toJson (t : Tree) :
  ofJson t.toJson = .ok t
  := by
  induction t using Tree.induction with
  | scalar v => rfl
  | list ts ih =>
    have hitems : ofJsons (ts.map toJson) = .ok ts := by
      rw [ofJsons_eq_ok_iff, List.forall₂_map_left_iff, List.forall₂_same]
      exact ih
    rw [toJson, toJsons_eq_map, ofJson, hitems]
    rfl
  | node k f ih =>
    rw [toJson_node, ofJson_object_eq_ok_iff]
    refine ⟨k, f, tagKind_tagged k _, rfl, fun d hd => ?_⟩
    rw [ReadsField, lookup_ofJsonMembers, lookup_tagged hd _ fun name => (f name).toJson]
    exact ih d hd

/-- The object of a node, of any kind and with any trees in its fields, is read as a tree that
is the same as the node, and that has the same object. -/
theorem ofObject_toJson {t : Tree} {k : Kind} (h : t.kind? = some k) :
  ∃ u, ofObject t.toJson = .ok u ∧ u = t ∧ t.same u = true ∧ u.toJson = t.toJson
  := by
  obtain ⟨f, rfl, -⟩ := exists_node h
  have hobject : ofObject (k.node f).toJson = ofJson (k.node f).toJson := by
    rw [toJson_node]
    rfl
  exact ⟨k.node f, hobject.trans (ofJson_toJson _), rfl, same_refl _, rfl⟩

/-- A member whose fields hold lists inside one another, numbers and nodes of other kinds. -/
def oddTree : Tree :=
  .member (.list [.scalar .null, .list [.scalar (.integer (-1)), .super]])
    (.declaration (.scalar (.boolean true)) (.program (.text "p"))) (.list [])

/-- A node with odd values in its fields is read back. -/
theorem ofObject_toJson_oddTree :
  oddTree.kind? = some .member
    ∧ ∃ u, ofObject oddTree.toJson = .ok u ∧ u = oddTree ∧ oddTree.same u = true
      ∧ u.toJson = oddTree.toJson
  := ⟨rfl, ofObject_toJson rfl⟩

end Tree

end Letter
