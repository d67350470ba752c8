import CodeAtlas.FileTree

/-!
# File stores

What the program asks of the files around it, in any monad that can answer. Over a `FileTree` as
state the answers are those of the tree, whatever else the monad can do, and everything said about
the program is said there; the command line runs the same definitions over the files of the machine.
-/
namespace CodeAtlas

class FileStore (m : Type → Type) where
  /-- what a path leads to, links followed -/
  kind : Path → m (Except FileError FileKind)
  /-- the bytes of a file -/
  read : Path → m (Except FileError ByteArray)
  /-- what there is below a directory and the directory itself, by the names that lead there, no
  link entered or followed; what cannot be looked at is left out -/
  entriesBelow : Path → m (List (List Bytes × FileKind))
  /-- puts a text into a file, in place of what was there -/
  write : Path → String → m (Except FileError Unit)

instance {m : Type → Type} [Monad m] : FileStore (StateT FileTree m) where
  kind path := do return (← get).kind path
  read path := do return (← get).read path
  entriesBelow path := do return (← get).entriesBelow path
  write path text := modifyGet fun tree => tree.write path text

structure WriteError where
  path : Path
  cause : FileError
deriving DecidableEq, Repr

namespace WriteError

/-- The message without its cause. -/
def heading (e : WriteError) : String :=
  "failed to write " ++ e.path.text

def message (e : WriteError) : String :=
  e.heading ++ ": " ++ e.cause.message

end WriteError

def writeDocument {m : Type → Type} [Monad m] [FileStore m] (path : Path) (document : String) :
    m (Except WriteError Unit) := do
  match ← FileStore.write path document with
  | .ok () => return .ok ()
  | .error cause => return .error ⟨path, cause⟩

namespace FileStore

variable {m : Type → Type} [Monad m] [FileStore m]

def isKind (wanted : FileKind) (path : Path) : m Bool := do
  match ← kind path with
  | .ok found => return found = wanted
  | .error _ => return false

def isDirectory (path : Path) : m Bool :=
  isKind .directory path

def isFile (path : Path) : m Bool :=
  isKind .file path

end FileStore

end CodeAtlas
