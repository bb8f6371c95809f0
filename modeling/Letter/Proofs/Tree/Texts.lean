import Letter.Proofs.Printing.Tokens

/-!
# The texts in a program

A program holds the texts of its string literals.  They may be exchanged for others: nothing
else of the program changes, and it can be written as before unless a new text holds both
quotes.
-/

namespace Letter

/-- Texts that do not hold both quotes become texts that do not hold both. -/
def KeepsQuotable (f : String → String) : Prop :=
  ∀ s : String, ¬ ('"' ∈ s.toList ∧ '\'' ∈ s.toList) →
    ¬ ('"' ∈ (f s).toList ∧ '\'' ∈ (f s).toList)

variable (f : String → String)

/-! ### Expressions -/

namespace Expr

mutual

/-- The texts in an expression, in order. -/
def texts : Expr → List String
  | string s => [s]
  | identifier _ | number _ | boolean _ | null => []
  | unary _ e | member e _ => e.texts
  | binary _ l r | assign _ l r | index l r => l.texts ++ r.texts
  | call c es => c.texts ++ listTexts es
  | superCall es => listTexts es

/-- The texts in expressions. -/
def listTexts : List Expr → List String
  | [] => []
  | e :: es => e.texts ++ listTexts es

end

theorem listTexts_eq_flatMap (es : List Expr) :
  listTexts es = es.flatMap texts
  := by
  induction es with
  | nil => rfl
  | cons e es ih => rw [listTexts, List.flatMap_cons, ih]

mutual

/-- An expression with other texts. -/
def mapTexts : Expr → Expr
  | string s => string (f s)
  | identifier name => identifier name
  | number n => number n
  | boolean b => boolean b
  | null => null
  | unary op e => unary op e.mapTexts
  | member o name => member o.mapTexts name
  | binary op l r => binary op l.mapTexts r.mapTexts
  | assign op l r => assign op l.mapTexts r.mapTexts
  | index o p => index o.mapTexts p.mapTexts
  | call c es => call c.mapTexts (mapListTexts es)
  | superCall es => superCall (mapListTexts es)

/-- Expressions with other texts. -/
def mapListTexts : List Expr → List Expr
  | [] => []
  | e :: es => e.mapTexts :: mapListTexts es

end

theorem mapListTexts_eq_map (es : List Expr) :
  mapListTexts f es = es.map (mapTexts f)
  := by
  induction es with
  | nil => rfl
  | cons e es ih => rw [mapListTexts, List.map_cons, ih]

mutual

/-- Other texts make another expression, unless they are the same. -/
theorem mapTexts_eq_self_iff : ∀ e : Expr, e.mapTexts f = e ↔ ∀ s ∈ e.texts, f s = s
  | string s => by simp [mapTexts, texts]
  | identifier _ | number _ | boolean _ | null => by simp [mapTexts, texts]
  | unary _ e | member e _ => by simp [mapTexts, texts, mapTexts_eq_self_iff e]
  | binary _ l r | assign _ l r | index l r => by
    simp [mapTexts, texts, mapTexts_eq_self_iff l, mapTexts_eq_self_iff r, or_imp, forall_and]
  | call c es => by
    simp [mapTexts, texts, mapTexts_eq_self_iff c, mapListTexts_eq_self_iff es, or_imp,
      forall_and]
  | superCall es => by simp [mapTexts, texts, mapListTexts_eq_self_iff es]

theorem mapListTexts_eq_self_iff :
    ∀ es : List Expr, mapListTexts f es = es ↔ ∀ s ∈ listTexts es, f s = s
  | [] => by simp [mapListTexts, listTexts]
  | e :: es => by
    simp [mapListTexts, listTexts, mapTexts_eq_self_iff e, mapListTexts_eq_self_iff es, or_imp,
      forall_and]

end

theorem isTarget_mapTexts (e : Expr) :
  (e.mapTexts f).isTarget = e.isTarget
  := by cases e <;> rfl

theorem layer_mapTexts (e : Expr) :
  (e.mapTexts f).layer = e.layer
  := by cases e <;> rfl

theorem calleeStrength_mapTexts (e : Expr) :
  (e.mapTexts f).calleeStrength = e.calleeStrength
  := by cases e <;> rfl

variable {f}

/-- With texts that do not hold both quotes, an expression can be written as before. -/
theorem Valid.mapTexts (hf : KeepsQuotable f) {e : Expr} (h : e.Valid) :
  (e.mapTexts f).Valid
  := by
  induction h with
  | identifier h => exact .identifier h
  | number h => exact .number h
  | string h => exact .string (hf _ h)
  | boolean b => exact .boolean b
  | null => exact .null
  | unary _ ih => exact .unary ih
  | binary _ _ ih ih' => exact .binary ih ih'
  | assign _ h _ ih ih' => exact .assign ih ((isTarget_mapTexts f _).trans h) ih'
  | member _ h ih => exact .member ih h
  | index _ _ ih ih' => exact .index ih ih'
  | call _ _ ih ih' =>
    rw [Expr.mapTexts, mapListTexts_eq_map]
    exact .call ih (List.forall_mem_map.2 ih')
  | superCall _ ih =>
    rw [Expr.mapTexts, mapListTexts_eq_map]
    exact .superCall (List.forall_mem_map.2 ih)

end Expr

/-! ### Declarations -/

namespace Declaration

/-- The texts in a declaration. -/
def texts (d : Declaration) : List String :=
  match d.init with
  | none => []
  | some e => e.texts

/-- A declaration with other texts. -/
def mapTexts (d : Declaration) : Declaration := ⟨d.name, d.init.map (Expr.mapTexts f)⟩

/-- Other texts make another declaration, unless they are the same. -/
theorem mapTexts_eq_self_iff (d : Declaration) :
  d.mapTexts f = d ↔ ∀ s ∈ d.texts, f s = s
  := by
  obtain ⟨name, init⟩ := d
  cases init with
  | none => simp [mapTexts, texts]
  | some e => simp [mapTexts, texts, e.mapTexts_eq_self_iff]

variable {f}

/-- A declaration can be written with other texts if these can be quoted. -/
theorem Valid.mapTexts (hf : KeepsQuotable f) {d : Declaration} (h : d.Valid) :
  (d.mapTexts f).Valid
  where
    name := h.name
    init := by
      intro e he
      obtain ⟨e', he', rfl⟩ := Option.map_eq_some_iff.1 he
      exact (h.init e' he').mapTexts hf

end Declaration

/-! ### Statements -/

namespace Stmt

mutual

/-- The texts in a statement, in order. -/
def texts : Stmt → List String
  | empty => []
  | expression e => e.texts
  | block ss => listTexts ss
  | declare ds => ds.flatMap Declaration.texts
  | ifThen e s => e.texts ++ s.texts
  | ifElse e s a => e.texts ++ s.texts ++ a.texts

/-- The texts in statements. -/
def listTexts : List Stmt → List String
  | [] => []
  | s :: ss => s.texts ++ listTexts ss

end

theorem listTexts_eq_flatMap (ss : List Stmt) :
  listTexts ss = ss.flatMap texts
  := by
  induction ss with
  | nil => rfl
  | cons s ss ih => rw [listTexts, List.flatMap_cons, ih]

mutual

/-- A statement with other texts. -/
def mapTexts : Stmt → Stmt
  | empty => empty
  | expression e => expression (e.mapTexts f)
  | block ss => block (mapListTexts ss)
  | declare ds => declare (ds.map (Declaration.mapTexts f))
  | ifThen e s => ifThen (e.mapTexts f) s.mapTexts
  | ifElse e s a => ifElse (e.mapTexts f) s.mapTexts a.mapTexts

/-- Statements with other texts. -/
def mapListTexts : List Stmt → List Stmt
  | [] => []
  | s :: ss => s.mapTexts :: mapListTexts ss

end

theorem mapListTexts_eq_map (ss : List Stmt) :
  mapListTexts f ss = ss.map (mapTexts f)
  := by
  induction ss with
  | nil => rfl
  | cons s ss ih => rw [mapListTexts, List.map_cons, ih]

theorem map_mapTexts_eq_self_iff (ds : List Declaration) :
  ds.map (Declaration.mapTexts f) = ds ↔ ∀ s ∈ ds.flatMap Declaration.texts, f s = s
  := by
  induction ds with
  | nil => simp
  | cons d ds ih =>
    simp only [List.map_cons, List.cons.injEq, ih, d.mapTexts_eq_self_iff, List.flatMap_cons,
      List.mem_append, or_imp, forall_and]

mutual

/-- Other texts make another statement, unless they are the same. -/
theorem mapTexts_eq_self_iff : ∀ s : Stmt, s.mapTexts f = s ↔ ∀ t ∈ s.texts, f t = t
  | empty => by simp [mapTexts, texts]
  | expression e => by simp [mapTexts, texts, e.mapTexts_eq_self_iff]
  | block ss => by simp only [mapTexts, texts, block.injEq, mapListTexts_eq_self_iff ss]
  | declare ds => by
    simp only [mapTexts, texts, declare.injEq, map_mapTexts_eq_self_iff f ds]
  | ifThen e s => by
    simp [mapTexts, texts, e.mapTexts_eq_self_iff, mapTexts_eq_self_iff s, or_imp, forall_and]
  | ifElse e s a => by
    simp [mapTexts, texts, e.mapTexts_eq_self_iff, mapTexts_eq_self_iff s,
      mapTexts_eq_self_iff a, or_imp, forall_and]

theorem mapListTexts_eq_self_iff :
    ∀ ss : List Stmt, mapListTexts f ss = ss ↔ ∀ t ∈ listTexts ss, f t = t
  | [] => by simp [mapListTexts, listTexts]
  | s :: ss => by
    simp [mapListTexts, listTexts, mapTexts_eq_self_iff s, mapListTexts_eq_self_iff ss, or_imp,
      forall_and]

end

theorem isOpen_mapTexts : ∀ s : Stmt, (s.mapTexts f).isOpen = s.isOpen
  | empty | expression _ | block _ | declare _ | ifThen _ _ => rfl
  | ifElse _ _ a => isOpen_mapTexts a

variable {f}

/-- A statement can be written with other texts if these can be quoted. -/
theorem Valid.mapTexts (hf : KeepsQuotable f) {s : Stmt} (h : s.Valid) :
  (s.mapTexts f).Valid
  := by
  induction h with
  | empty => exact .empty
  | expression h => exact .expression (h.mapTexts hf)
  | block _ ih =>
    rw [Stmt.mapTexts, mapListTexts_eq_map]
    exact .block (List.forall_mem_map.2 ih)
  | declare h hne =>
    refine .declare (List.forall_mem_map.2 fun d hd => (h d hd).mapTexts hf) ?_
    simpa using hne
  | ifThen test _ ih => exact .ifThen (test.mapTexts hf) ih
  | ifElse test _ _ ih ih' => exact .ifElse (test.mapTexts hf) ih ih'

/-- Other texts attach no alternative elsewhere. -/
theorem Attached.mapTexts {s : Stmt} (h : s.Attached) :
  (s.mapTexts f).Attached
  := by
  induction h with
  | empty => exact .empty
  | expression e => exact .expression _
  | block _ ih =>
    rw [Stmt.mapTexts, mapListTexts_eq_map]
    exact .block (List.forall_mem_map.2 ih)
  | declare ds => exact .declare _
  | ifThen _ ih => exact .ifThen ih
  | ifElse _ hclosed _ ih ih' => exact .ifElse ih ((isOpen_mapTexts f _).trans hclosed) ih'

end Stmt

/-! ### Programs -/

namespace Program

/-- The texts in a program, in order. -/
def texts (p : Program) : List String := Stmt.listTexts p.body

/-- A program with other texts. -/
def mapTexts (p : Program) : Program := ⟨Stmt.mapListTexts f p.body⟩

/-- Other texts make another program, unless they are the same. -/
theorem mapTexts_eq_self_iff (p : Program) :
  p.mapTexts f = p ↔ ∀ s ∈ p.texts, f s = s
  := by
  obtain ⟨body⟩ := p
  rw [mapTexts, texts, ← Stmt.mapListTexts_eq_self_iff]
  exact ⟨fun h => congrArg Program.body h, congrArg Program.mk⟩

variable {f}

/-- With texts that do not hold both quotes, a program can be written as before. -/
theorem Valid.mapTexts (hf : KeepsQuotable f) {p : Program} (h : p.Valid) :
  (p.mapTexts f).Valid
  where
    body := by
      rw [Program.mapTexts, Stmt.mapListTexts_eq_map]
      exact List.forall_mem_map.2 fun s hs => (h.body s hs).mapTexts hf
    nonempty := by
      rw [Program.mapTexts, Stmt.mapListTexts_eq_map]
      simpa using h.nonempty

theorem Attached.mapTexts {p : Program} (h : p.Attached) :
  (p.mapTexts f).Attached
  := by
  rw [Program.mapTexts, Attached, Stmt.mapListTexts_eq_map]
  exact List.forall_mem_map.2 fun s hs => (h s hs).mapTexts

end Program

end Letter
