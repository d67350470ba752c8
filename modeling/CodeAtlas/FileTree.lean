import CodeAtlas.Path

/-!
# File trees

A file tree is the state of a file system: at each location, given by the names that lead to it from
the top, there is a directory, a file with its bytes, or a symbolic link with its target. A name is
any bytes that a path can have between two slashes, other than the dots with a meaning of their own.
Relative paths start at the working directory.

Following a path goes through it name by name. A name that is a link is replaced by the names of its
target, at most forty times in all. A path that goes on behind a file, and a name that is not there,
stop the walk, each with its own error. Permissions, devices and hard links are not part of the
model.
-/
namespace CodeAtlas

/-- Why a file operation is refused. `other` stands for causes that a file tree never gives. -/
inductive FileError
  | notFound
  | notDirectory
  | isDirectory
  | nameTooLong
  | linkLoop
  | nulByte
  | other (text : String)
deriving DecidableEq, Repr

def FileError.message : FileError → String
  | .notFound => "No such file or directory (os error 2)"
  | .notDirectory => "Not a directory (os error 20)"
  | .isDirectory => "Is a directory (os error 21)"
  | .nameTooLong => "File name too long (os error 36)"
  | .linkLoop => "Too many levels of symbolic links (os error 40)"
  | .nulByte => "file name contained an unexpected NUL byte"
  | .other text => text

inductive FileEntry
  | directory
  | file (bytes : ByteArray)
  | link (target : Bytes)

/-- Links are seen only where they are not followed, and `other` stands for what a file tree never
holds, such as a device. -/
inductive FileKind
  | directory
  | file
  | link
  | other
deriving DecidableEq, Repr

namespace FileEntry

def kind : FileEntry → FileKind
  | .directory => .directory
  | .file _ => .file
  | .link _ => .link

def isDirectory (entry : FileEntry) : Bool :=
  entry.kind = .directory

def isName (name : Bytes) : Bool :=
  name ≠ [] && name ≠ [Path.dot] && name ≠ [Path.dot, Path.dot] && !name.contains Path.slash

end FileEntry

/-- The names that lead to a place from the top of a tree. -/
abbrev Location := List Bytes

structure FileTree where
  entries : List (Location × FileEntry)
  workDir : Location
  unique : entries.Pairwise fun a b => a.1 ≠ b.1
  named : ∀ e ∈ entries, e.1.all FileEntry.isName = true
  workDir_named : workDir.all FileEntry.isName = true

namespace FileTree

/-- Where following a path ends: at a directory, at a file, or at a name that is free. -/
inductive Landing
  | directory (place : Location)
  | file (place : Location) (bytes : ByteArray)
  | vacant (place : Location)

def entry? (tree : FileTree) (place : Location) : Option FileEntry :=
  tree.entries.lookup place

def putEntry (place : Location) (entry : FileEntry) :
    List (Location × FileEntry) → List (Location × FileEntry)
  | [] => [(place, entry)]
  | (other, old) :: rest =>
    if other = place then (place, entry) :: rest else (other, old) :: putEntry place entry rest

theorem mem_putEntry {place : Location} {entry : FileEntry} {l : List (Location × FileEntry)}
    {e : Location × FileEntry} (h : e ∈ putEntry place entry l) :
    e.1 = place ∨ e ∈ l := by
  induction l with
  | nil => simp_all [putEntry]
  | cons head rest ih =>
    obtain ⟨other, old⟩ := head
    simp only [putEntry] at h
    split at h
    · rcases List.mem_cons.1 h with rfl | h
      · exact .inl rfl
      · exact .inr (List.mem_cons_of_mem _ h)
    · rcases List.mem_cons.1 h with rfl | h
      · exact .inr List.mem_cons_self
      · exact (ih h).imp id (List.mem_cons_of_mem _)

theorem unique_putEntry (place : Location) (entry : FileEntry) {l : List (Location × FileEntry)}
    (h : l.Pairwise fun a b => a.1 ≠ b.1) :
    (putEntry place entry l).Pairwise fun a b => a.1 ≠ b.1 := by
  induction l with
  | nil => simp [putEntry]
  | cons head rest ih =>
    obtain ⟨other, old⟩ := head
    rw [List.pairwise_cons] at h
    simp only [putEntry]
    split
    next heq => exact .cons (fun e he => heq ▸ h.1 e he) h.2
    next hne =>
      refine .cons ?_ (ih h.2)
      intro e he
      rcases mem_putEntry he with h' | h'
      · exact h' ▸ hne
      · exact h.1 e h'

theorem named_putEntry {place : Location} (entry : FileEntry) {l : List (Location × FileEntry)}
    (hplace : place.all FileEntry.isName = true) (h : ∀ e ∈ l, e.1.all FileEntry.isName = true) :
    ∀ e ∈ putEntry place entry l, e.1.all FileEntry.isName = true := by
  intro e he
  rcases mem_putEntry he with h' | h'
  · exact h' ▸ hplace
  · exact h e h'

/-- The tree with an entry at a place, which has to be one that names can lead to. -/
def put (tree : FileTree) (place : Location) (entry : FileEntry) : FileTree :=
  if hplace : place.all FileEntry.isName = true then
    { tree with
      entries := putEntry place entry tree.entries
      unique := unique_putEntry place entry tree.unique
      named := named_putEntry entry hplace tree.named }
  else tree

/-- The names of a path in order. A slash at the end leaves an empty name there, which asks for a
directory. -/
def steps (path : Bytes) : List Bytes :=
  let names := (Path.pieces path).filter fun piece => !piece.isEmpty
  if path.getLast? = some Path.slash then names ++ [[]] else names

def start (path : Bytes) (dir : Location) : Location :=
  if path.head? = some Path.slash then [] else dir

/-- The longest name that a directory can hold, in bytes. -/
def nameLimit : Nat := 255

/-- The first length at which a path is refused, in bytes. -/
def pathLimit : Nat := 4096

def linkLimit : Nat := 40

/-- Walks from a directory; `follow` says how to go on from the target of a link. When the walk is
to end at a file, which may be a new one, a name with a slash behind it is not even looked up. -/
def walkWith (tree : FileTree) (toFile : Bool)
    (follow : Location → List Bytes → Except FileError Landing) :
    Location → List Bytes → Except FileError Landing
  | dir, [] => .ok (.directory dir)
  | dir, name :: rest =>
    if name = [] ∨ name = [Path.dot] then walkWith tree toFile follow dir rest
    else if name = [Path.dot, Path.dot] then walkWith tree toFile follow dir.dropLast rest
    else if toFile && rest = [[]] then .error .isDirectory
    else if nameLimit < name.length then .error .nameTooLong
    else
      let place := dir ++ [name]
      match tree.entry? place with
      | none => if rest.isEmpty then .ok (.vacant place) else .error .notFound
      | some .directory => walkWith tree toFile follow place rest
      | some (.file bytes) => if rest.isEmpty then .ok (.file place bytes) else .error .notDirectory
      | some (.link target) => follow (start target dir) (steps target ++ rest)

def walk (tree : FileTree) (toFile : Bool) : Nat → Location → List Bytes → Except FileError Landing
  | 0 => tree.walkWith toFile fun _ _ => .error .linkLoop
  | links + 1 => tree.walkWith toFile (walk tree toFile links)

def refusal? (path : Path) : Option FileError :=
  if path.bytes.contains 0 then some .nulByte
  else if path.bytes.isEmpty then some .notFound
  else if pathLimit ≤ path.bytes.length then some .nameTooLong
  else none

def follow (tree : FileTree) (path : Path) (toFile : Bool := false) : Except FileError Landing :=
  match refusal? path with
  | some e => .error e
  | none =>
    tree.walk toFile linkLimit (start path.bytes tree.workDir) (steps path.bytes)

def kind (tree : FileTree) (path : Path) : Except FileError FileKind := do
  match ← tree.follow path with
  | .directory _ => return .directory
  | .file _ _ => return .file
  | .vacant _ => throw .notFound

def read (tree : FileTree) (path : Path) : Except FileError ByteArray := do
  match ← tree.follow path with
  | .directory _ => throw .isDirectory
  | .file _ bytes => return bytes
  | .vacant _ => throw .notFound

/-- Whether names lead from a directory to one that can be listed: it is a directory itself, and its
path, seen from the one by which the search began, is not refused. -/
def isListed (tree : FileTree) (path : Path) (dir : Location) (names : List Bytes) : Bool :=
  (tree.entry? (dir ++ names)).any FileEntry.isDirectory && (refusal? (path.descend names)).isNone

/-- Whether every directory strictly between a directory and a place below it can be listed. -/
def isReached (tree : FileTree) (path : Path) (dir : Location) (names : List Bytes) : Bool :=
  (List.range names.length).all fun n => n == 0 || tree.isListed path dir (names.take n)

/-- The names that lead to an entry from a directory, and its kind, if the search comes to it. -/
def found? (tree : FileTree) (path : Path) (dir : Location) :
    Location × FileEntry → Option (List Bytes × FileKind)
  | (place, entry) =>
    let names := place.drop dir.length
    if dir.isPrefixOf place && tree.isReached path dir names then some (names, entry.kind) else none

/-- Everything below the directory that a path led to, and the directory itself. No link is
entered. -/
def entriesUnder (tree : FileTree) (path : Path) (dir : Location) : List (List Bytes × FileKind) :=
  tree.entries.filterMap (tree.found? path dir)

def entriesBelow (tree : FileTree) (path : Path) : List (List Bytes × FileKind) :=
  match tree.follow path with
  | .ok (.directory dir) => tree.entriesUnder path dir
  | _ => []

def target (tree : FileTree) (path : Path) : Except FileError Location := do
  match ← tree.follow path true with
  | .directory _ => throw .isDirectory
  | .file place _ => return place
  | .vacant place => return place

def write (tree : FileTree) (path : Path) (text : String) : Except FileError Unit × FileTree :=
  match tree.target path with
  | .error e => (.error e, tree)
  | .ok place => (.ok (), tree.put place (.file text.toUTF8))

/-- The tree with nothing in it but the directories down to the working directory. What cannot be a
name is left out of the location. -/
def empty (location : List String) : FileTree :=
  let workDir := (location.map Text.encode).filter FileEntry.isName
  (List.range workDir.length).foldl
    (fun tree n => tree.put (workDir.take (n + 1)) .directory)
      ⟨[], workDir, .nil, by simp, by simp [workDir]⟩

def makeDirectories (tree : FileTree) (dir : Location) : List Bytes → FileTree × Location
  | [] => (tree, dir)
  | name :: rest =>
    match tree.walk false linkLimit dir [name] with
    | .ok (.directory place) => makeDirectories tree place rest
    | .ok (.vacant place) => makeDirectories (tree.put place .directory) place rest
    | _ => makeDirectories tree (dir ++ [name]) rest

def create (tree : FileTree) (path : Path) (entry : FileEntry) : FileTree :=
  let names := (steps path.bytes).filter fun name => name ≠ [] && name ≠ [Path.dot]
  let (tree, dir) := tree.makeDirectories (start path.bytes tree.workDir) names.dropLast
  match names.getLast? with
  | some name => tree.put (dir ++ [name]) entry
  | none => tree

end FileTree

end CodeAtlas
