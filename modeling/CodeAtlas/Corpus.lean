import CodeAtlas.FileStore
import CodeAtlas.SourceUnit
import CodeAtlas.Text.Utf8

/-!
# Loading source files

Every path of a list is looked up below a root. A path that leads nowhere is missing. A path that
cannot be looked up or read, or whose bytes are not a text, has failed, with the cause. All others
give source units. A corpus keeps the three groups apart, each in the order of the list.
-/
namespace CodeAtlas

inductive LoadError
  | file (cause : FileError)
  | decode (offset : Nat)
deriving DecidableEq, Repr

def LoadError.message : LoadError → String
  | .file cause => "read failed: " ++ cause.message
  | .decode offset => "not valid UTF-8 (first bad byte at offset " ++ toString offset ++ ")"

structure LoadFailure where
  path : Path
  error : LoadError
deriving DecidableEq, Repr

inductive Fetched
  | text (text : String)
  | missing
  | failed (error : LoadError)
deriving DecidableEq, Repr

structure Corpus where
  order : List Path := []
  units : List SourceUnit := []
  missing : List Path := []
  failures : List LoadFailure := []
deriving DecidableEq, Repr

def decodeSource (bytes : ByteArray) : Except LoadError String :=
  (Text.decode bytes).mapError .decode

section

variable {m : Type → Type} [Monad m] [FileStore m]

def readSource (path : Path) : m (Except LoadError String) := do
  match ← FileStore.read path with
  | .error cause => return .error (.file cause)
  | .ok bytes => return decodeSource bytes

/-- Looks a path up, and reads it if it leads somewhere. -/
def fetch (path : Path) : m Fetched := do
  match ← FileStore.kind path with
  | .error .notFound => return .missing
  | .error cause => return .failed (.file cause)
  | .ok _ =>
    match ← readSource path with
    | .error error => return .failed error
    | .ok text => return .text text

end

namespace Corpus

def ofUnits (units : List SourceUnit) : Corpus :=
  { order := units.map (·.path), units }

def unit? : Path × Fetched → Option SourceUnit
  | (path, .text text) => some ⟨path, text⟩
  | _ => none

def missing? : Path × Fetched → Option Path
  | (path, .missing) => some path
  | _ => none

def failure? : Path × Fetched → Option LoadFailure
  | (path, .failed error) => some ⟨path, error⟩
  | _ => none

def ofFetched (fetched : List (Path × Fetched)) : Corpus :=
  { order := fetched.map Prod.fst
    units := fetched.filterMap unit?
    missing := fetched.filterMap missing?
    failures := fetched.filterMap failure? }

def load {m : Type → Type} [Monad m] [FileStore m] (root : Path) (files : List Path) :
    m Corpus := do
  let fetched ← files.mapM fun path => do return (path, ← fetch (root.join path))
  return ofFetched fetched

end Corpus

end CodeAtlas
