import CodeAtlas.Config
import CodeAtlas.Proofs.PathOrder

/-!
# Loading over a file tree

Looking files up and reading them leaves a file tree as it is, so what a path gives is a function of
the tree and of the path, and a corpus is loaded path by path. The files of a configuration are
different paths, and each unit of the corpus loaded from them stands under one of these:
`Corpus.Separate`. What reading and analysing do is stated over `FileTree` as state, tree and all,
in every monad below it.
-/
namespace CodeAtlas

/-- What a path gives in a tree. -/
def FileTree.fetched (tree : FileTree) (path : Path) : Fetched :=
  match tree.kind path with
  | .error .notFound => .missing
  | .error cause => .failed (.file cause)
  | .ok _ =>
    match tree.read path with
    | .error cause => .failed (.file cause)
    | .ok bytes =>
      match decodeSource bytes with
      | .error error => .failed error
      | .ok text => .text text

variable {m : Type → Type} [Monad m] [LawfulMonad m]

namespace FileTree

theorem run_kind (tree : FileTree) (path : Path) :
    (FileStore.kind path : StateT FileTree m _).run tree = pure (tree.kind path, tree) := by
  simp [FileStore.kind]

theorem run_read (tree : FileTree) (path : Path) :
    (FileStore.read path : StateT FileTree m _).run tree = pure (tree.read path, tree) := by
  simp [FileStore.read]

theorem run_readSource (tree : FileTree) (path : Path) :
    (readSource path : StateT FileTree m _).run tree =
      pure (match tree.read path with
        | .error cause => .error (.file cause)
        | .ok bytes => decodeSource bytes, tree) := by
  rw [readSource, StateT.run_bind, run_read, pure_bind]
  cases tree.read path <;> simp

theorem run_fetch (tree : FileTree) (path : Path) :
    (fetch path : StateT FileTree m Fetched).run tree = pure (tree.fetched path, tree) := by
  rw [fetch, StateT.run_bind, run_kind, pure_bind, fetched]
  cases tree.kind path with
  | error cause => cases cause <;> simp
  | ok kind =>
    simp only [StateT.run_bind, run_readSource, pure_bind]
    cases tree.read path with
    | error cause => simp
    | ok bytes =>
      dsimp only
      cases decodeSource bytes <;> simp

/-- An action that leaves the tree as it is can be mapped over a list. -/
theorem run_mapM {α β : Type} {f : α → StateT FileTree m β} {result : α → β} {tree : FileTree}
    (h : ∀ x, (f x).run tree = pure (result x, tree)) (xs : List α) :
    (xs.mapM f).run tree = pure (xs.map result, tree) := by
  induction xs with
  | nil => simp
  | cons x xs ih => simp [List.mapM_cons, h, ih]

/-- The corpus of the files of a list that are looked up below a root. -/
def loaded (tree : FileTree) (root : Path) (files : List Path) : Corpus :=
  .ofFetched (files.map fun path => (path, tree.fetched (root.join path)))

theorem run_load (tree : FileTree) (root : Path) (files : List Path) :
    (Corpus.load root files : StateT FileTree m Corpus).run tree =
      pure (tree.loaded root files, tree) := by
  have each : ∀ path, (do return (path, ← fetch (root.join path)) : StateT FileTree m _).run tree =
      pure ((path, tree.fetched (root.join path)), tree) := by
    intro path
    rw [StateT.run_bind, run_fetch, pure_bind, StateT.run_pure]
  rw [Corpus.load, StateT.run_bind, run_mapM each, pure_bind, StateT.run_pure, loaded]

end FileTree

namespace Corpus

/-- Units stand under different paths, and each under a path of the corpus. -/
structure Separate (corpus : Corpus) : Prop where
  distinct : corpus.units.Pairwise fun u v => ¬ u.path.same v.path
  listed : ∀ u ∈ corpus.units, ∃ p ∈ corpus.order, p.same u.path

theorem separate_ofFetched {fetched : List (Path × Fetched)}
    (h : (fetched.map Prod.fst).Pairwise fun p q => ¬ p.same q) : (ofFetched fetched).Separate := by
  have path_of : ∀ f u, unit? f = some u → u.path = f.1 := by
    intro f u hu
    obtain ⟨path, result⟩ := f
    cases result <;> cases hu
    rfl
  constructor
  · refine List.Pairwise.filterMap _ ?_ (List.pairwise_map.mp h)
    intro f g hd u hu v hv
    rw [path_of f u hu, path_of g v hv]
    exact hd
  · intro u hu
    obtain ⟨f, hf, hu⟩ := List.mem_filterMap.mp hu
    refine ⟨f.1, List.mem_map_of_mem hf, ?_⟩
    rw [path_of f u hu]
    exact Path.same_refl _

theorem separate_loaded {tree : FileTree} {root : Path} {files : List Path}
    (h : files.Pairwise fun p q => ¬ p.same q) : (tree.loaded root files).Separate := by
  apply separate_ofFetched
  simpa [List.map_map, Function.comp_def] using h

theorem separate_ofUnits {units : List SourceUnit}
    (h : units.Pairwise fun u v => ¬ u.path.same v.path) : (ofUnits units).Separate := by
  refine ⟨h, fun u hu => ⟨u.path, List.mem_map_of_mem hu, Path.same_refl _⟩⟩

end Corpus

namespace Config

theorem foldl_distinct_pairwise (paths : List Path) {kept : List Path}
    (h : kept.Pairwise fun p q => ¬ p.same q) :
    (paths.foldl (fun kept path => if kept.any fun k => k.same path then kept else path :: kept)
      kept).Pairwise fun p q => ¬ p.same q := by
  induction paths generalizing kept with
  | nil => exact h
  | cons path paths ih =>
    rw [List.foldl_cons]
    apply ih
    split
    · exact h
    next hn =>
      refine .cons (fun k hk hs => hn ?_) h
      exact List.any_eq_true.mpr ⟨k, hk, Path.same_symm hs⟩

theorem distinct_pairwise (paths : List Path) :
    (distinct paths).Pairwise fun p q => ¬ p.same q := by
  rw [distinct, List.pairwise_reverse]
  refine (foldl_distinct_pairwise paths .nil).imp ?_
  intro p q h hs
  exact h (Path.same_symm hs)

/-- Going through paths puts some of them, in their order, in front of those already kept. -/
theorem foldl_distinct_eq (paths kept : List Path) : ∃ more : List Path, more.Sublist paths ∧
    paths.foldl (fun kept path => if kept.any fun k => k.same path then kept else path :: kept)
      kept = more.reverse ++ kept := by
  induction paths generalizing kept with
  | nil => exact ⟨[], .slnil, rfl⟩
  | cons path paths ih =>
    rw [List.foldl_cons]
    split
    · obtain ⟨more, hsub, heq⟩ := ih kept
      exact ⟨more, hsub.cons path, heq⟩
    · obtain ⟨more, hsub, heq⟩ := ih (path :: kept)
      refine ⟨path :: more, hsub.cons_cons path, ?_⟩
      rw [heq, List.reverse_cons, List.append_assoc, List.singleton_append]

theorem distinct_sublist (paths : List Path) : (distinct paths).Sublist paths := by
  obtain ⟨more, hsub, heq⟩ := foldl_distinct_eq paths []
  rw [distinct, heq, List.append_nil, List.reverse_reverse]
  exact hsub

theorem foldl_distinct_covers (paths : List Path) {kept : List Path} {p : Path}
    (h : (∃ k ∈ kept, k.same p = true) ∨ p ∈ paths) :
    ∃ k ∈ paths.foldl (fun kept path => if kept.any fun k => k.same path then kept
      else path :: kept) kept, k.same p = true := by
  induction paths generalizing kept with
  | nil =>
    rcases h with h | h
    · exact h
    · cases h
  | cons path paths ih =>
    rw [List.foldl_cons]
    apply ih
    rcases h with ⟨k, hk, hs⟩ | h
    · refine .inl ⟨k, ?_, hs⟩
      split
      · exact hk
      · exact List.mem_cons_of_mem _ hk
    · rcases List.mem_cons.mp h with rfl | h
      · refine .inl ?_
        split
        next hany => exact List.any_eq_true.mp hany
        · exact ⟨p, List.mem_cons_self, Path.same_refl p⟩
      · exact .inr h

/-- No file is lost with a repeated path. -/
theorem distinct_covers {paths : List Path} {p : Path} (h : p ∈ paths) :
    ∃ q ∈ distinct paths, q.same p = true := by
  obtain ⟨q, hq, hs⟩ := @foldl_distinct_covers paths [] p (.inr h)
  exact ⟨q, List.mem_reverse.mpr hq, hs⟩

theorem orderedFiles_pairwise {config : Config} {files : List Path}
    (h : config.orderedFiles = .ok files) :
    files.Pairwise fun p q => ¬ p.same q := by
  unfold orderedFiles at h
  split at h
  · cases h
  · cases h
    exact distinct_pairwise _

/-- What analysing a configuration gives in a tree. -/
def analysisIn [PatternLimit] (config : Config) (tree : FileTree) : Except ConfigError Analysis :=
  match PatternSet.ofConfig config.patterns with
  | .error e => .error (.pattern e)
  | .ok patterns =>
    match config.orderedFiles with
    | .error e => .error e
    | .ok files => .ok (.ofCorpus patterns (tree.loaded config.root files))

theorem run_analyze [PatternLimit] (tree : FileTree) (config : Config) :
    (config.analyze : StateT FileTree m _).run tree = pure (config.analysisIn tree, tree) := by
  unfold analyze analysisIn
  cases PatternSet.ofConfig config.patterns with
  | error e => rfl
  | ok patterns =>
    dsimp only
    cases config.orderedFiles with
    | error e => rfl
    | ok files => simp only [StateT.run_bind, FileTree.run_load, pure_bind, StateT.run_pure]

theorem analysisIn_eq_ok [PatternLimit] {config : Config} {tree : FileTree} {a : Analysis}
    (h : config.analysisIn tree = .ok a) : ∃ patterns files, config.orderedFiles = .ok files ∧
      a = .ofCorpus patterns (tree.loaded config.root files) := by
  unfold analysisIn at h
  split at h
  · cases h
  next patterns _ =>
    split at h
    · cases h
    next files hf =>
      cases h
      exact ⟨patterns, files, hf, rfl⟩

end Config

end CodeAtlas
