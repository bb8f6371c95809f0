import Letter.Text.Quoted

/-!
# Files

A way to read and write files is given by three operations: a file is read at once, but to be
written it is first opened, which leaves it empty.  `Files` is a working directory with what is
below it, and `Files.access` reads and writes there: a file can be written where its directory
exists, and neither read nor written where there is a directory.

A name is followed part by part, and what it goes through has to be a directory.  It may
leave the working directory.  Nothing is known of the directories around but that they
exist, and of the whole system only the directories below its root and the null device;
what is written outside of the working directory is not kept.
-/

namespace Letter

/-- Why a file is not read or written. -/
inductive FileError where
  /-- There is no file of the name, or no directory to hold it. -/
  | missing (name : String)
  /-- What should be a directory is a file. -/
  | notDirectory (name : String)
  /-- The name is that of a directory. -/
  | isDirectory (name : String)
  /-- The name, or a part of it, is longer than a name may be. -/
  | tooLong (name : String)
  /-- The system has another reason, which it tells by a number and in words. -/
  | refused (number : Nat) (reason name : String)
  deriving DecidableEq, Repr

/-- The text of an error. -/
def FileError.message : FileError → String
  | missing name => "[Errno 2] No such file or directory: " ++ quoted name
  | notDirectory name => "[Errno 20] Not a directory: " ++ quoted name
  | isDirectory name => "[Errno 21] Is a directory: " ++ quoted name
  | tooLong name => "[Errno 36] File name too long: " ++ quoted name
  | refused number reason name =>
    "[Errno " ++ toString number ++ "] " ++ reason ++ ": " ++ quoted name

/-- A way to read and write files. -/
structure FileAccess (m : Type → Type) where
  /-- A file that has been opened to be written. -/
  Handle : Type
  /-- The bytes of the file of a name. -/
  read : String → m (Except FileError (List UInt8))
  /-- Opens the file of a name to write it: it is created if it does not exist, and loses what it
  holds if it does. -/
  create : String → m (Except FileError Handle)
  /-- Writes the contents of a file that has been opened. -/
  write : Handle → List UInt8 → m (Except FileError Unit)

/-- What a name stands for. -/
inductive FileNode where
  | file (bytes : List UInt8)
  | directory
  /-- A device that is empty and keeps nothing. -/
  | null
  deriving DecidableEq, Repr

/-- The names to go through, one after another. -/
abbrev Path : Type := List String

/-- A working directory: what the paths below it stand for. -/
structure Files where
  /-- The paths, each once. -/
  nodes : List (Path × FileNode)
  deriving DecidableEq, Repr

/-! ### Places -/

/-- Where a path begins. -/
inductive Base where
  /-- The working directory. -/
  | working
  /-- One of the directories around the working directory. -/
  | around
  /-- The directory that holds all others. -/
  | root
  deriving DecidableEq, Repr

/-- A place among the files: a path, and where it begins. -/
structure FilePlace where
  /-- Where the path begins. -/
  base : Base
  /-- The path. -/
  path : Path
  deriving DecidableEq, Repr

namespace FilePlace

/-- The place of a name in the directory at a place. -/
def child (place : FilePlace) (name : String) : FilePlace :=
  { place with path := place.path ++ [name] }

/-- The place of the directory that holds a place; all directories around the working
directory are one, and the root holds itself. -/
def parent (place : FilePlace) : FilePlace :=
  match place.path, place.base with
  | [], .working => ⟨.around, []⟩
  | [], _ => place
  | path, base => ⟨base, path.dropLast⟩

end FilePlace

/-- The directories that the root holds. -/
def rootDirectories : List String :=
  ["bin", "boot", "dev", "etc", "home", "lib", "media", "mnt", "opt", "proc", "root", "run",
   "sbin", "srv", "sys", "tmp", "usr", "var"]

/-- What a path from the root stands for. -/
def rootNode? : Path → Option FileNode
  | [] => some .directory
  | ["dev", "null"] => some .null
  | [name] => if rootDirectories.contains name then some .directory else none
  | _ => none

/-- The greatest number of bytes in a name. -/
def maxNameSize : Nat := 4095

/-- The greatest number of bytes in a part of a name. -/
def maxPartSize : Nat := 255

namespace Files

/-- What a path from the working directory stands for; every path to something goes through
directories. -/
def workingNode? (files : Files) (path : Path) : Option FileNode :=
  if path.isEmpty then some .directory
  else
    match files.nodes.lookup path with
    | some node => some node
    | none =>
      if files.nodes.any fun (p, _) => path.isPrefixOf p then some .directory else none

/-- What a place stands for, looked up under a name. -/
def node? (files : Files) (name : String) (place : FilePlace) :
    Except FileError (Option FileNode) :=
  if maxPartSize < (place.path.getLast?.getD "").utf8ByteSize then .error (.tooLong name)
  else
    match place.base with
    | .working => .ok (files.workingNode? place.path)
    | .around => .ok (if place.path.isEmpty then some .directory else none)
    | .root => .ok (rootNode? place.path)

/-! ### Following names -/

/-- The parts of a name between slashes, in which `begun` stands before it in the first one. -/
def partsFrom (begun : List Char) : List Char → List String
  | [] => [String.ofList begun.reverse]
  | '/' :: s => String.ofList begun.reverse :: partsFrom [] s
  | c :: s => partsFrom (c :: begun) s

/-- The parts of a name between slashes. -/
def parts (name : String) : List String := partsFrom [] name.toList

/-- Whether a name ends in a slash, so that it asks for a directory. -/
def asksDirectory (name : String) : Bool := (parts name).getLast? = some ""

/-- The place that a part of a name leads to from a directory. -/
def enter (place : FilePlace) (part : String) : FilePlace :=
  if part = "" || part = "." then place
  else if part = ".." then place.parent
  else place.child part

/-- The place that some parts of a name lead to from another, if all they go through are
directories. -/
def follow (files : Files) (name : String) (place : FilePlace) :
    List String → Except FileError FilePlace
  | [] => .ok place
  | part :: later => do
    match ← files.node? name place with
    | none => .error (.missing name)
    | some .directory => follow files name (enter place part) later
    | some _ => .error (.notDirectory name)

/-- The place of a name, whether it asks for a directory or not. -/
def place (files : Files) (name : String) : Except FileError FilePlace :=
  let parts := ((parts name).reverse.dropWhile (· = "")).reverse
  if name = "" then .error (.missing name)
  else if maxNameSize < name.utf8ByteSize then .error (.tooLong name)
  else if name.startsWith "/" then files.follow name ⟨.root, []⟩ parts
  else files.follow name ⟨.working, []⟩ parts

/-! ### Reading and writing -/

/-- The bytes of a file. -/
def read (files : Files) (name : String) : Except FileError (List UInt8) := do
  match ← files.node? name (← files.place name) with
  | none => .error (.missing name)
  | some .directory => .error (.isDirectory name)
  | some (.file bytes) =>
    if asksDirectory name then .error (.notDirectory name) else return bytes
  | some .null => if asksDirectory name then .error (.notDirectory name) else return []

/-- The directory with other bytes at a path. -/
def put (files : Files) (path : Path) (bytes : List UInt8) : Files :=
  if (files.nodes.lookup path).isSome then
    ⟨files.nodes.map fun (p, node) => (p, if p = path then .file bytes else node)⟩
  else ⟨files.nodes ++ [(path, .file bytes)]⟩

/-- The directory with other bytes at a place, if the place is below it. -/
def putAt (files : Files) (place : FilePlace) (bytes : List UInt8) : Files :=
  match place.base with
  | .working => files.put place.path bytes
  | _ => files

/-- The directory after the contents of a file have been replaced. -/
def write (files : Files) (name : String) (bytes : List UInt8) : Except FileError Files := do
  let place ← files.place name
  if asksDirectory name then .error (.isDirectory name)
  else
    match ← files.node? name place with
    | some .directory => .error (.isDirectory name)
    | some .null => return files
    | some (.file _) | none => return files.putAt place bytes

/-- Does what replaces the contents of files, unless it is refused. -/
def change (action : Files → Except FileError Files) : StateM Files (Except FileError Unit) := do
  match action (← get) with
  | .ok files => set files; return .ok ()
  | .error e => return .error e

/-- Reading and writing in a working directory, where a file that has been opened is known by its
name. -/
def access : FileAccess (StateM Files) where
  Handle := String
  read name := do return (← get).read name
  create name := do return (← change (·.write name [])).map fun () => name
  write name bytes := change (·.write name bytes)

end Files

end Letter
