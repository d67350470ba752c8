import CodeAtlas.FileStore

/-!
# Scanning a directory

The regular files below a directory whose names have a given extension, in the order of paths. Dots
in front of the extension asked for do not count. The directory itself may be reached through links,
but none is entered below it, nor a directory whose path has become too long.
-/
namespace CodeAtlas

structure ScanError where
  dir : Path
deriving DecidableEq, Repr

def ScanError.message (e : ScanError) : String :=
  "source directory not found: " ++ e.dir.text

namespace Scan

/-- The extension asked for, without the dots in front of it. -/
def bareExtension (extension : String) : String :=
  String.ofList (extension.toList.dropWhile (· = '.'))

def files (dir : Path) (entries : List (List Bytes × FileKind)) : List Path :=
  (entries.filter fun entry => entry.2 = .file).map fun entry => dir.descend entry.1

def select (extension : String) (paths : List Path) : List Path :=
  (paths.filter fun path =>
    path.extension? = some (Text.encode (bareExtension extension))).mergeSort
    fun p q => (p.cmp q).isLE

end Scan

def scan {m : Type → Type} [Monad m] [FileStore m] (extension : String) (dir : Path) :
    m (Except ScanError (List Path)) := do
  if ← FileStore.isDirectory dir then
    let entries ← FileStore.entriesBelow dir
    return .ok (Scan.select extension (Scan.files dir entries))
  else
    return .error ⟨dir⟩

end CodeAtlas
