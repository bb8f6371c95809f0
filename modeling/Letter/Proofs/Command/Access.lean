import Letter.Files
import Letter.Proofs.Results

/-!
# Files that only writing changes

All that the command relies on about files is that reading leaves them as they are, that so does
opening one that is refused, and that a file can be written once it has been opened.  The files of
a working directory are of this kind: what is put in the place of a file that has just been put
there takes its place, `Files.write_write`.

What is written below the working directory can be read again: the directories that a name is
followed through stay what they are when a file is put somewhere else.
-/

namespace Letter

/-- Files are changed by opening and writing them alone, and what has been opened is written. -/
structure FileAccess.Lawful {σ : Type} (access : FileAccess (StateM σ)) : Prop where
  /-- Reading changes nothing. -/
  read_keeps : ∀ name s, ((access.read name).run s).2 = s
  /-- Opening that is refused changes nothing. -/
  refused_keeps : ∀ name s e, ((access.create name).run s).1 = .error e →
    ((access.create name).run s).2 = s
  /-- A file that has been opened can be written. -/
  write_create : ∀ name s handle s', (access.create name).run s = (.ok handle, s') →
    ∀ bytes, ((access.write handle bytes).run s').1 = .ok ()

/-- What is written to the file of a name, once it has been opened, can be read from it. -/
def FileAccess.ReadsBack {σ : Type} (access : FileAccess (StateM σ)) (name : String) (s : σ) :
    Prop :=
  ∀ bytes handle s₁ s', (access.create name).run s = (.ok handle, s₁) →
    (access.write handle bytes).run s₁ = (.ok (), s') → ((access.read name).run s').1 = .ok bytes

namespace Files

/-! ### Reading and writing as steps -/

variable {files later : Files} {path path' : Path} {bytes : List UInt8} {name : String}

theorem run_write_of_ok (h : files.write name bytes = .ok later) :
  (access.write name bytes).run files = (.ok (), later)
  := by
  simp [access, change, h]
  rfl

/-- A file is opened by writing nothing to it. -/
theorem run_create_of_ok (h : files.write name [] = .ok later) :
  (access.create name).run files = (.ok name, later)
  := by
  simp [access, change, h]
  rfl

/-- A file that cannot be written is not made either. -/
theorem run_create_of_error {e : FileError} (h : files.write name [] = .error e) :
  (access.create name).run files = (.error e, files)
  := by
  simp [access, change, h]
  rfl

/-! ### Reading what has been written -/

/-- Replacing the bytes of a file changes what is found under its path, and under no other. -/
theorem lookup_replaced (nodes : List (Path × FileNode)) (path path' : Path)
    (bytes : List UInt8) :
  (nodes.map fun (p, node) => (p, if p = path then .file bytes else node)).lookup path'
    = (nodes.lookup path').map fun node => if path' = path then .file bytes else node
  := by
  induction nodes with
  | nil => rfl
  | cons entry nodes ih =>
    obtain ⟨p, node⟩ := entry
    rw [List.map_cons, List.lookup_cons, List.lookup_cons, ih]
    by_cases hp : path' = p
    · subst hp
      simp
    · rw [beq_eq_false_iff_ne.2 hp]

theorem replaced_of_lookup_eq_none {nodes : List (Path × FileNode)}
    (h : nodes.lookup path = none) :
  (nodes.map fun (p, node) => (p, if p = path then .file bytes else node)) = nodes
  := by
  refine (List.map_congr_left fun (p, node) hmem => ?_).trans (List.map_id nodes)
  have hne : path ≠ p := by simpa using List.lookup_eq_none_iff.1 h _ hmem
  exact congrArg (Prod.mk p) (if_neg hne.symm)

/-- Under the path of a file that is put in place there is the file; every other path leads where it
did. -/
theorem lookup_put (files : Files) (path path' : Path) (bytes : List UInt8) :
  (files.put path bytes).nodes.lookup path'
    = if path' = path then some (.file bytes) else files.nodes.lookup path'
  := by
  rw [put]
  by_cases hsome : (files.nodes.lookup path).isSome
  · rw [if_pos hsome, lookup_replaced]
    by_cases hpath : path' = path
    · subst hpath
      obtain ⟨node, hnode⟩ := Option.isSome_iff_exists.1 hsome
      simp [hnode]
    · simp [hpath]
  · rw [if_neg hsome, List.lookup_append]
    by_cases hpath : path' = path
    · subst hpath
      simp [Option.not_isSome_iff_eq_none.1 hsome]
    · simp [List.lookup_cons, beq_eq_false_iff_ne.2 hpath, hpath]

/-- What is put in the place of what has been put there takes its place. -/
theorem put_put (files : Files) (path : Path) (bytes bytes' : List UInt8) :
  (files.put path bytes).put path bytes' = files.put path bytes'
  := by
  have hsome : ((files.put path bytes).nodes.lookup path).isSome = true := by
    rw [lookup_put, if_pos rfl]
    rfl
  have hreplaced (node : FileNode) (p : Path) :
      (if p = path then .file bytes' else if p = path then .file bytes else node)
        = if p = path then FileNode.file bytes' else node := by
    split <;> rfl
  rw [put, if_pos hsome, put, put]
  split
  · simp [Function.comp_def, hreplaced]
  · next hnone => simp [replaced_of_lookup_eq_none (Option.not_isSome_iff_eq_none.1 hnone)]

/-- A file that is put somewhere leaves the other paths. -/
theorem any_put {q : Path → Bool} (h : files.nodes.any fun (p, _) => q p) :
  (files.put path bytes).nodes.any fun (p, _) => q p
  := by
  rw [put]
  split
  · simpa using h
  · simp [h]

theorem workingNode?_put_self (h : path ≠ []) :
  (files.put path bytes).workingNode? path = some (.file bytes)
  := by
  rw [workingNode?, if_neg (by simpa using h), lookup_put, if_pos rfl]

/-- A file that is put where there is no directory leaves all directories. -/
theorem workingNode?_put_of_directory (hpath : files.workingNode? path ≠ some .directory)
    (h : files.workingNode? path' = some .directory) :
  (files.put path bytes).workingNode? path' = some .directory
  := by
  have hne : path' ≠ path := by
    rintro rfl
    exact hpath h
  rw [workingNode?] at h ⊢
  rw [lookup_put, if_neg hne]
  split at h
  · next hempty => rw [if_pos hempty]
  · next hempty =>
    rw [if_neg hempty]
    split at h
    · exact h
    · split at h
      · next hany => rw [if_pos (any_put hany)]
      · cases h

/-- Directories are where they were after a file has been put in place of no directory. -/
theorem node?_put_of_directory {place : FilePlace}
    (hpath : files.workingNode? path ≠ some .directory)
    (h : files.node? name place = .ok (some .directory)) :
  (files.put path bytes).node? name place = .ok (some .directory)
  := by
  rw [node?] at h ⊢
  split at h
  · cases h
  · next hshort =>
    rw [if_neg hshort]
    split at h
    · rw [workingNode?_put_of_directory hpath (Except.ok.inj h)]
    · exact h
    · exact h

/-- A name that is followed through directories still is when a file is put where there is
none. -/
theorem follow_put {place place' : FilePlace} {parts : List String}
    (hpath : files.workingNode? path ≠ some .directory)
    (h : files.follow name place parts = .ok place') :
  (files.put path bytes).follow name place parts = .ok place'
  := by
  induction parts generalizing place with
  | nil => exact h
  | cons part later ih =>
    rw [follow] at h ⊢
    cases hnode : files.node? name place with
    | error e =>
      rw [hnode] at h
      cases h
    | ok node =>
      rw [hnode] at h
      cases node with
      | none => cases h
      | some node =>
        cases node with
        | directory =>
          rw [node?_put_of_directory hpath hnode]
          exact ih h
        | file bytes => cases h
        | null => cases h

/-- A name stands for the same place after a file has been put in place of no directory. -/
theorem place_put {place : FilePlace} (hpath : files.workingNode? path ≠ some .directory)
    (h : files.place name = .ok place) :
  (files.put path bytes).place name = .ok place
  := by
  rw [Files.place] at h ⊢
  by_cases hname : name = ""
  · rw [if_pos hname] at h
    cases h
  · by_cases hlong : maxNameSize < name.utf8ByteSize
    · rw [if_neg hname, if_pos hlong] at h
      cases h
    · rw [if_neg hname, if_neg hlong] at h ⊢
      split at h
      · next hslash => rw [if_pos hslash, follow_put hpath h]
      · next hslash => rw [if_neg hslash, follow_put hpath h]

/-! ### Writing to what can be written -/

/-- A file is written at the place of its name, unless a directory is asked for or found there; what
is written to the null device is not kept. -/
theorem write_eq_ok_iff :
  files.write name bytes = .ok later ↔ ∃ place found, files.place name = .ok place
    ∧ asksDirectory name = false ∧ files.node? name place = .ok found ∧ found ≠ some .directory
    ∧ later = if found = some .null then files else files.putAt place bytes
  := by
  rw [write]
  constructor
  · intro h
    obtain ⟨place, hplace, h⟩ := bind_eq_ok.1 h
    cases hasks : asksDirectory name with
    | true =>
      rw [hasks] at h
      cases h
    | false =>
      rw [hasks] at h
      obtain ⟨found, hfound, h⟩ := bind_eq_ok.1 h
      refine ⟨place, found, hplace, rfl, hfound, ?_⟩
      cases found with
      | none =>
        cases h
        exact ⟨nofun, rfl⟩
      | some node =>
        cases node with
        | directory => cases h
        | file _ | null =>
          cases h
          exact ⟨nofun, rfl⟩
  · rintro ⟨place, found, hplace, hasks, hfound, hnot, rfl⟩
    refine bind_eq_ok.2 ⟨place, hplace, ?_⟩
    rw [hasks]
    refine bind_eq_ok.2 ⟨found, hfound, ?_⟩
    cases found with
    | none => rfl
    | some node =>
      cases node with
      | directory => exact absurd rfl hnot
      | file _ | null => rfl

/-- What stands at a place below the working directory, under a name that is not too long. -/
theorem node?_working_eq_ok {found : Option FileNode}
    (h : files.node? name ⟨.working, path⟩ = .ok found) :
  found = files.workingNode? path
    ∧ ∀ files' : Files, files'.node? name ⟨.working, path⟩ = .ok (files'.workingNode? path)
  := by
  rw [node?] at h
  split at h
  · cases h
  · next hshort =>
    cases h
    exact ⟨rfl, fun files' => by rw [node?, if_neg hshort]⟩

/-- What can be written to a file does not decide whether it is written. -/
theorem exists_write (h : files.write name bytes = .ok later) (bytes' : List UInt8) :
  ∃ later', files.write name bytes' = .ok later'
  := by
  obtain ⟨place, found, hplace, hasks, hfound, hnot, -⟩ := write_eq_ok_iff.1 h
  exact ⟨_, write_eq_ok_iff.2 ⟨place, found, hplace, hasks, hfound, hnot, rfl⟩⟩

/-- Writing to a file twice comes to the same as writing to it but the second time. -/
theorem write_write (h : files.write name bytes = .ok later) (bytes' : List UInt8) :
  later.write name bytes' = files.write name bytes'
  := by
  obtain ⟨place, found, hplace, hasks, hfound, hnot, rfl⟩ := write_eq_ok_iff.1 h
  by_cases hnull : found = some .null
  · rw [if_pos hnull]
  · rw [if_neg hnull]
    obtain ⟨base, path⟩ := place
    cases base with
    | around | root => rfl
    | working =>
      obtain ⟨rfl, hnode⟩ := node?_working_eq_ok hfound
      have hne : path ≠ [] := by
        rintro rfl
        exact hnot rfl
      have hfirst : files.write name bytes' = .ok (files.put path bytes') :=
        write_eq_ok_iff.2 ⟨_, _, hplace, hasks, hfound, hnot, (if_neg hnull).symm⟩
      have hput : (files.put path bytes).write name bytes'
          = .ok ((files.put path bytes).put path bytes') :=
        write_eq_ok_iff.2 ⟨_, _, place_put hnot hplace, hasks, hnode _,
          by simp [workingNode?_put_self hne], by simp [workingNode?_put_self hne, putAt]⟩
      rw [hfirst]
      exact hput.trans (congrArg Except.ok (put_put files path bytes bytes'))

/-- What is written below the working directory can be read. -/
theorem read_write (hplace : files.place name = .ok ⟨.working, path⟩)
    (hnull : files.workingNode? path ≠ some .null) (h : files.write name bytes = .ok later) :
  later.read name = .ok bytes
  := by
  obtain ⟨place, found, hplace', hasks, hfound, hnot, rfl⟩ := write_eq_ok_iff.1 h
  cases hplace.symm.trans hplace'
  obtain ⟨rfl, hnode⟩ := node?_working_eq_ok hfound
  have hne : path ≠ [] := by
    rintro rfl
    exact hnot rfl
  rw [if_neg hnull]
  change (files.put path bytes).read name = _
  refine bind_eq_ok.2 ⟨_, place_put hnot hplace, bind_eq_ok.2 ⟨_, hnode _, ?_⟩⟩
  rw [workingNode?_put_self hne, hasks]
  rfl

/-! ### The working directory as a way to read and write files -/

/-- What opening a file comes to. -/
theorem run_create_cases (files : Files) (name : String) :
  (∃ later, files.write name [] = .ok later
      ∧ (access.create name).run files = (.ok name, later))
    ∨ ∃ e, (access.create name).run files = (.error e, files)
  := by
  cases h : files.write name [] with
  | ok later => exact .inl ⟨later, rfl, run_create_of_ok h⟩
  | error e => exact .inr ⟨e, run_create_of_error h⟩

/-- Files in the working directory can be read and written as is asked of every access. -/
theorem access_lawful :
  access.Lawful
  := by
  refine ⟨fun name s => rfl, ?_, ?_⟩
  · intro name files e h
    obtain ⟨later, -, hrun⟩ | ⟨e', hrun⟩ := run_create_cases files name
    · rw [hrun] at h
      cases h
    · rw [hrun]
  · intro name files handle later h bytes
    obtain ⟨later', hcreate, hrun⟩ | ⟨e', hrun⟩ := run_create_cases files name
    · cases hrun.symm.trans h
      obtain ⟨later', hwrite⟩ := exists_write hcreate bytes
      rw [← write_write hcreate] at hwrite
      rw [run_write_of_ok hwrite]
    · cases hrun.symm.trans h

/-- What is written below the working directory, once it has been opened, can be read from it. -/
theorem access_readsBack (hplace : files.place name = .ok ⟨.working, path⟩)
    (hnull : files.workingNode? path ≠ some .null) :
  access.ReadsBack name files
  := by
  intro bytes handle opened later hopen hwrite
  obtain ⟨opened', hcreate, hrun⟩ | ⟨e, hrun⟩ := run_create_cases files name
  · cases hrun.symm.trans hopen
    obtain ⟨later', hlater⟩ := exists_write hcreate bytes
    have hagain := write_write hcreate bytes
    rw [hlater] at hagain
    cases (run_write_of_ok hagain).symm.trans hwrite
    exact read_write hplace hnull hlater
  · cases hrun.symm.trans hopen

end Files

end Letter
