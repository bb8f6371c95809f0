import Letter.Proofs.Printing.Agreement

/-!
# Depth

What is written into a buffer has the lines that it has with no indentation, each behind the blanks
of the buffer's indentation, and ends with the same fault: so a statement looks the same wherever
it stands.  This holds as far as there are margins, which is not for every number of levels.

Main statement: `Tree.visit_at_depth`.
-/

namespace Letter

theorem blanks_add (m n : Nat) :
  blanks (m + n) = blanks m ++ blanks n
  := by
  rw [blanks, blanks, blanks, ← String.ofList_append, List.replicate_add]

namespace Buffer

variable {b : Buffer} {levels : Nat}

/-- The buffer with the lines of another one behind its own, at its indentation. -/
def continuedBy (b other : Buffer) : Buffer where
  head? := b.head?
  lines := b.lines ++ other.lines.map (blanks (step * b.indent.toNat) ++ ·)
  indent := b.indent + other.indent
  room := b.room

theorem margin_add {n : Int} (hn : 0 ≤ n) (d : Nat) :
  margin (n + d) = blanks (step * n.toNat) ++ margin d
  := by
  have hlevels : (n + d).toNat = n.toNat + d := by omega
  rw [margin, margin, hlevels, Nat.mul_add, blanks_add, Int.toNat_natCast]

/-- Lines have no other place in a layout than the one below its beginning. -/
theorem add_eq_continuedBy {α : Type} (hb : 0 ≤ b.indent) (x : Layout α) :
  b.add x = (((empty b.room).add x).1, b.continuedBy ((empty b.room).add x).2)
  := by
  have hline (l : Line) : margin (b.indent + l.depth) ++ l.text
      = blanks (step * b.indent.toNat) ++ (margin l.depth ++ l.text) := by
    rw [margin_add hb, String.append_assoc]
  obtain ⟨lines, result⟩ := x
  cases result <;> simp [add, continuedBy, empty, hline]

/-- Where there is room at some indentation there is room without any. -/
theorem HasRoom.empty (hb : 0 ≤ b.indent) (h : b.HasRoom levels) :
  (Buffer.empty b.room).HasRoom levels
  := by
  obtain ⟨m, hm⟩ := h levels (Nat.le_refl _)
  obtain ⟨width, hwidth, -⟩ := width_of_margin? hm
  obtain ⟨rfl, -, hword, hroom⟩ := marginWidth_eq_ok_iff.1 hwidth
  have hle : step * ((0 : Int) + levels).toNat ≤ step * (b.indent + levels).toNat := by
    rw [step]
    omega
  exact hasRoom_of_admits (Int.le_refl 0) (Nat.lt_of_le_of_lt hle hword)
    (Room.admits_of_le hroom hle)

end Buffer

theorem Writer.Writes.eq_continuedBy {α : Type} {levels : Nat} {x : Writer α} {y : Layout α}
    (h : Writes levels x y) {b : Buffer} (hb : 0 ≤ b.indent) (hroom : b.HasRoom levels) :
  x b = ((x (.empty b.room)).1, b.continuedBy (x (.empty b.room)).2)
  := by
  rw [h b hroom, h (.empty b.room) (hroom.empty hb), perform, Buffer.add_eq_continuedBy hb]
  rfl

namespace Tree

/-- A tree that is written at the indentation of some levels, where there are margins for the
levels that it has, gives the lines that it gives in an empty buffer with no indentation, each
with the blanks of those levels before it, and the same fault if any. -/
theorem visit_at_depth (t : Tree) (n : Nat) (b : Buffer) (hindent : b.indent = n)
    (hroom : b.HasRoom t.height) :
  t.visit b = ((t.visit (.empty b.room)).1, { b with
      lines := b.lines ++ (t.visit (.empty b.room)).2.lines.map (blanks (Buffer.step * n) ++ ·)
      indent := n + (t.visit (.empty b.room)).2.indent })
    ∧ b.write t.layout = (((Buffer.empty b.room).write t.layout).1, { b with
      lines := b.lines
        ++ ((Buffer.empty b.room).write t.layout).2.lines.map (blanks (Buffer.step * n) ++ ·)
      indent := n + ((Buffer.empty b.room).write t.layout).2.indent })
  := by
  have hb : 0 ≤ b.indent := by omega
  have hcontinuedBy (other : Buffer) : b.continuedBy other = { b with
      lines := b.lines ++ other.lines.map (blanks (Buffer.step * n) ++ ·)
      indent := n + other.indent } := by
    rw [Buffer.continuedBy, hindent, Int.toNat_natCast]
  refine ⟨?_, ?_⟩
  · rw [t.writes_visit.eq_continuedBy hb hroom, hcontinuedBy]
  · rw [hroom.write_eq_add, (hroom.empty hb).write_eq_add, Buffer.add_eq_continuedBy hb,
      hcontinuedBy]

/-- A chain of conditions with a newline in one of its texts, at the indentation of two levels. -/
theorem visit_at_depth_chain :
  let t : Tree := .condition (.identifier (.text "a")) (.block (.list [.empty]))
    (.condition (.string (.text "\n")) (.block (.list [])) (.scalar .null))
  (t.visit { lines := [], indent := 2 }).2.lines
    = ["if (a) \x7b", "    ;", "\x7d else if (\"\n\") \x7b\x7d"].map (blanks 8 ++ ·)
  := by
  intro t
  have hroom : ({ lines := [], indent := 2 } : Buffer).HasRoom t.height :=
    Buffer.hasRoom_of_admits (by decide) (by decide) rfl
  have hempty : Buffer.empty.HasRoom t.height :=
    Buffer.hasRoom_of_admits (by decide) (by decide) rfl
  rw [(visit_at_depth t 2 _ rfl hroom).1, t.writes_visit _ hempty]
  rfl

/-- Where the levels are so many that there is no margin for them, the fault is another one than
with no indentation. -/
theorem visit_without_margin :
  let t : Tree := .condition (.identifier (.text "x")) (.block (.list []))
    (.condition (.string (.text "'\"")) .empty (.scalar .null))
  let b : Buffer := { lines := [], indent := (2 ^ 63 : Nat) }
  (t.visit .empty).1 = .error (.refused (.bothQuotes "'\\'\"'"))
    ∧ (t.visit b).1 = .error (.refused (.noMargin .tooManySteps))
    ∧ (Buffer.empty.write t.layout).1 = .error (.bothQuotes "'\\'\"'")
    ∧ (b.write t.layout).1 = .error (.noMargin .tooManySteps)
  := by
  intro t b
  refine ⟨?_, ?_, ?_, ?_⟩
  · rw [t.writes_visit _ (Buffer.hasRoom_of_admits (by decide) (by decide) rfl)]
    rfl
  · simp only [t, visit, writeCondition, writeClause]
    rfl
  · rfl
  · rfl

end Tree

end Letter
