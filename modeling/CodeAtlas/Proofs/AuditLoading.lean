import CodeAtlas.Audit
import CodeAtlas.Proofs.Loading

/-!
# Loading an audit from a file tree

Scanning and reading leave a tree as it is, so the corpus of an audit is a function of the tree: the
files that the scan selects, less those that cannot be read as text. There is no corpus exactly when
the source directory is not one.
-/
namespace CodeAtlas

namespace FileTree

/-- The file at a path, if it can be read as text. -/
def unit? (tree : FileTree) (path : Path) : Option SourceUnit :=
  match tree.read path with
  | .error _ => none
  | .ok bytes => (decodeSource bytes).toOption.map (SourceUnit.mk path)

/-- Whether a path leads to something of a kind. -/
def isKind (tree : FileTree) (wanted : FileKind) (path : Path) : Bool :=
  match tree.kind path with
  | .ok found => found = wanted
  | .error _ => false

def isDirectory (tree : FileTree) (path : Path) : Bool :=
  tree.isKind .directory path

/-- The files with an extension below a directory. -/
def scanned (tree : FileTree) (extension : String) (dir : Path) : List Path :=
  Scan.select extension (Scan.files dir (tree.entriesBelow dir))

/-- The files of a list that can be read. -/
def readable (tree : FileTree) (paths : List Path) : List SourceUnit :=
  paths.filterMap tree.unit?

variable {m : Type → Type} [Monad m] [LawfulMonad m]

theorem run_entriesBelow (tree : FileTree) (path : Path) :
    (FileStore.entriesBelow path : StateT FileTree m _).run tree =
      pure (tree.entriesBelow path, tree) := by
  simp [FileStore.entriesBelow]

theorem run_isKind (tree : FileTree) (wanted : FileKind) (path : Path) :
    (FileStore.isKind wanted path : StateT FileTree m Bool).run tree =
      pure (tree.isKind wanted path, tree) := by
  rw [FileStore.isKind, StateT.run_bind, run_kind, pure_bind, isKind]
  cases tree.kind path <;> rfl

theorem run_scan (tree : FileTree) (extension : String) (dir : Path) :
    (scan extension dir : StateT FileTree m _).run tree =
      pure (if tree.isDirectory dir then .ok (tree.scanned extension dir)
        else .error ⟨dir⟩, tree) := by
  rw [scan, FileStore.isDirectory, StateT.run_bind, run_isKind, pure_bind, isDirectory]
  cases tree.isKind .directory dir with
  | false => rfl
  | true => simp only [if_true, StateT.run_bind, run_entriesBelow, pure_bind,
    StateT.run_pure, scanned]

theorem run_readUnit? (tree : FileTree) (path : Path) :
    (AuditCorpus.readUnit? path : StateT FileTree m _).run tree = pure (tree.unit? path, tree) := by
  rw [AuditCorpus.readUnit?, StateT.run_bind, run_readSource, pure_bind, unit?]
  cases tree.read path with
  | error cause => rfl
  | ok bytes =>
    dsimp only
    cases decodeSource bytes <;> rfl

theorem run_readUnits (tree : FileTree) (paths : List Path) :
    (AuditCorpus.readUnits paths : StateT FileTree m _).run tree =
      pure (tree.readable paths, tree) := by
  rw [AuditCorpus.readUnits, StateT.run_bind, run_mapM tree.run_readUnit?,
    pure_bind, StateT.run_pure, readable, List.filterMap_map, Function.id_comp]

theorem run_auditLoad (tree : FileTree) (config : AuditConfig) (root sourceDir : Path) :
    (AuditCorpus.load config root sourceDir : StateT FileTree m _).run tree =
      pure (if tree.isDirectory sourceDir then
          .ok (.ofUnits root sourceDir (tree.readable (tree.scanned config.extension sourceDir)))
        else .error ⟨sourceDir⟩, tree) := by
  rw [AuditCorpus.load, StateT.run_bind, run_scan, pure_bind]
  cases tree.isDirectory sourceDir with
  | false => rfl
  | true => simp only [if_true, StateT.run_bind, run_readUnits, pure_bind, StateT.run_pure]

theorem eq_of_auditLoad {tree : FileTree} {config : AuditConfig} {root sourceDir : Path}
    {corpus : AuditCorpus} (loaded : (AuditCorpus.load config root sourceDir :
      StateM FileTree _).run tree = pure (.ok corpus, tree)) :
    corpus = .ofUnits root sourceDir (tree.readable (tree.scanned config.extension sourceDir)) := by
  rw [run_auditLoad] at loaded
  split at loaded <;> cases loaded
  rfl

end FileTree

end CodeAtlas
