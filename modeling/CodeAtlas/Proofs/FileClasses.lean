import CodeAtlas.Proofs.DependencyGraph
import CodeAtlas.Proofs.GraphPart
import CodeAtlas.Proofs.Loading
import CodeAtlas.Proofs.Occurrences
import Mathlib.Data.List.Pairwise

/-!
# What becomes of each file

A path that is looked up below a root ends in one of three ways, and `FileTree.statusBelow` says in
which. The loader divides its list by it: the units, the missing paths and the failures are each the
list filtered by one status. The graph finds the status of a vertex anew, by looking for its path
among the missing and the failed. Both agree because the paths of the list are different files.

A file that was not loaded gives no unit, and edges only join units.
-/
namespace CodeAtlas

/-- What is said of a file that gave this. -/
def Fetched.status : Fetched → FileStatus
  | .text _ => .loaded
  | .missing => .missing
  | .failed _ => .failed

theorem decodeSource_eq_ok_iff {bytes : ByteArray} {text : String} :
    decodeSource bytes = .ok text ↔ bytes = text.toUTF8 := by
  unfold decodeSource Text.decode String.fromUTF8?
  by_cases valid : bytes.IsValidUTF8
  · simp only [valid, dite_true, Except.mapError, Except.ok.injEq]
    constructor
    · intro h
      subst h
      rfl
    · intro h
      subst h
      rfl
  · simp only [valid, dite_false, Except.mapError, reduceCtorEq, false_iff]
    intro h
    subst h
    exact valid text.isValidUTF8

theorem decodeSource_eq_error_iff {bytes : ByteArray} :
    (∃ error, decodeSource bytes = .error error) ↔ ¬ bytes.IsValidUTF8 := by
  unfold decodeSource Text.decode String.fromUTF8?
  by_cases valid : bytes.IsValidUTF8 <;> simp [valid, Except.mapError]

namespace FileTree

variable {tree : FileTree} {path : Path}

/-- Looking the path up fails for another reason than that nothing is there, or reading what is
there fails, or it is not a text. -/
def Unreadable (tree : FileTree) (path : Path) : Prop :=
  (∃ cause, tree.kind path = .error cause ∧ cause ≠ .notFound) ∨
    (∃ kind, tree.kind path = .ok kind) ∧
      ((∃ cause, tree.read path = .error cause) ∨
        ∃ bytes, tree.read path = .ok bytes ∧ ¬ bytes.IsValidUTF8)

theorem fetched_of_kind_ok {kind : FileKind} (h : tree.kind path = .ok kind) :
    tree.fetched path =
      match tree.read path with
      | .error cause => .failed (.file cause)
      | .ok bytes =>
        match decodeSource bytes with
        | .error error => .failed error
        | .ok text => .text text := by
  cases hr : tree.read path with
  | error cause => simp [fetched, h, hr]
  | ok bytes => cases hd : decodeSource bytes <;> simp [fetched, h, hr, hd]

theorem fetched_of_kind_error {cause : FileError} (h : tree.kind path = .error cause) :
    tree.fetched path = if cause = .notFound then .missing else .failed (.file cause) := by
  rw [fetched, h]
  cases cause <;> rfl

theorem status_fetched_eq_missing_iff :
    (tree.fetched path).status = .missing ↔ tree.kind path = .error .notFound := by
  cases hk : tree.kind path with
  | error cause =>
    rw [fetched_of_kind_error hk]
    by_cases hc : cause = .notFound <;> simp [hc, Fetched.status]
  | ok kind =>
    rw [fetched_of_kind_ok hk]
    split
    · simp [Fetched.status]
    · split <;> simp [Fetched.status]

theorem status_fetched_eq_failed_iff :
    (tree.fetched path).status = .failed ↔ tree.Unreadable path := by
  cases hk : tree.kind path with
  | error cause =>
    rw [fetched_of_kind_error hk, Unreadable, hk]
    by_cases hc : cause = .notFound <;> simp [hc, Fetched.status]
  | ok kind =>
    rw [fetched_of_kind_ok hk, Unreadable, hk]
    cases hr : tree.read path with
    | error cause => simp [Fetched.status]
    | ok bytes =>
      simp only [reduceCtorEq, false_and, exists_false, Except.ok.injEq, exists_eq',
        true_and, false_or, exists_eq_left', ← decodeSource_eq_error_iff]
      cases decodeSource bytes <;> simp [Fetched.status]

theorem fetched_eq_text_iff {text : String} : tree.fetched path = .text text ↔
    (∃ kind, tree.kind path = .ok kind) ∧ tree.read path = .ok text.toUTF8 := by
  cases hk : tree.kind path with
  | error cause =>
    rw [fetched_of_kind_error hk]
    by_cases hc : cause = .notFound <;> simp [hc]
  | ok kind =>
    rw [fetched_of_kind_ok hk]
    cases hr : tree.read path with
    | error cause => simp
    | ok bytes =>
      simp only [Except.ok.injEq, exists_eq', true_and, ← decodeSource_eq_ok_iff]
      cases decodeSource bytes <;> simp

/-! ## The three groups of a list -/

/-- What becomes of a path that is looked up below a root. -/
def statusBelow (tree : FileTree) (root path : Path) : FileStatus :=
  (tree.fetched (root.join path)).status

/-- A group that selects the paths of one status is the list filtered by it. -/
theorem map_filterMap_fetched {α : Type} {select : Path × Fetched → Option α} {key : α → Path}
    {status : FileStatus}
    (selects : ∀ p f, (select (p, f)).map key = if f.status = status then some p else none)
    (tree : FileTree) (root : Path) (files : List Path) :
    ((files.map fun p => (p, tree.fetched (root.join p))).filterMap select).map key =
      files.filter fun p => tree.statusBelow root p = status := by
  rw [List.filterMap_map, List.map_filterMap, ← List.filterMap_eq_filter]
  congr 1
  funext p
  rw [Function.comp_apply, selects]
  by_cases h : (tree.fetched (root.join p)).status = status <;> simp [Option.guard, statusBelow, h]

theorem map_path_units_loaded (tree : FileTree) (root : Path) (files : List Path) :
    (tree.loaded root files).units.map (·.path) =
      files.filter fun p => tree.statusBelow root p = .loaded :=
  map_filterMap_fetched (fun _ f => by cases f <;> rfl) tree root files

theorem missing_loaded (tree : FileTree) (root : Path) (files : List Path) :
    (tree.loaded root files).missing = files.filter fun p =>
      tree.statusBelow root p = .missing := by
  rw [← List.map_id (tree.loaded root files).missing]
  exact map_filterMap_fetched (fun _ f => by cases f <;> rfl) tree root files

theorem map_path_failures_loaded (tree : FileTree) (root : Path) (files : List Path) :
    (tree.loaded root files).failures.map (·.path) =
      files.filter fun p => tree.statusBelow root p = .failed :=
  map_filterMap_fetched (fun _ f => by cases f <;> rfl) tree root files

/-- Each path has one status, so the groups make up the list. -/
theorem length_groups_loaded (tree : FileTree) (root : Path) (files : List Path) :
    (tree.loaded root files).units.length + (tree.loaded root files).missing.length +
      (tree.loaded root files).failures.length = files.length := by
  have groups : (files.countP fun p => tree.statusBelow root p = .loaded) +
      (files.countP fun p => tree.statusBelow root p = .missing) +
      (files.countP fun p => tree.statusBelow root p = .failed) = files.length := by
    induction files with
    | nil => rfl
    | cons p files ih =>
      simp only [List.countP_cons, List.length_cons]
      cases tree.statusBelow root p <;> simp <;> omega
  simp only [List.countP_eq_length_filter, ← map_path_units_loaded, ← missing_loaded,
    ← map_path_failures_loaded, List.length_map] at groups
  exact groups

end FileTree

/-! ## Lists of different files -/

namespace Path

variable {files : List Path} {p q : Path}

theorem eq_of_same_of_mem (distinct : files.Pairwise fun p q => ¬ p.same q) (hp : p ∈ files)
    (hq : q ∈ files) (hs : p.same q = true) : p = q := by
  refine Decidable.byContradiction fun hne => ?_
  have : Std.Symm fun p q : Path => ¬ p.same q := ⟨fun _ _ h hs => h (same_symm hs)⟩
  exact distinct.forall hp hq hne hs

/-- A path of the list is found among those with a property once if it has the property. -/
theorem countP_same_filter (distinct : files.Pairwise fun p q => ¬ p.same q) (has : Path → Bool)
    (hp : p ∈ files) : (files.filter has).countP (·.same p) = if has p then 1 else 0 := by
  have only : ∀ x ∈ files, (x.same p && has x) = true ↔ (x == p && has p) = true := by
    intro x hx
    simp only [Bool.and_eq_true, beq_iff_eq]
    constructor
    · intro hh
      obtain rfl := eq_of_same_of_mem distinct hx hp hh.1
      exact ⟨rfl, hh.2⟩
    · intro hh
      obtain ⟨rfl, hh⟩ := hh
      exact ⟨same_refl x, hh⟩
  have nodup : files.Nodup := by
    refine distinct.imp ?_
    intro p q hd heq
    subst heq
    exact hd (same_refl p)
  rw [List.countP_filter, List.countP_congr only]
  cases has p with
  | false => simp
  | true =>
    simp only [Bool.and_true, if_pos]
    exact nodup.count.trans (if_pos hp)

theorem any_same_filter (distinct : files.Pairwise fun p q => ¬ p.same q) (has : Path → Bool)
    (hp : p ∈ files) : (files.filter has).any (·.same p) = has p := by
  rw [Bool.eq_iff_iff, List.any_eq_true, ← List.countP_pos_iff, countP_same_filter distinct has hp]
  cases has p <;> simp

end Path

namespace FileTree

variable {tree : FileTree} {root : Path} {files : List Path} {p : Path}

@[simp] theorem order_loaded (tree : FileTree) (root : Path) (files : List Path) :
    (tree.loaded root files).order = files := by
  simp [loaded, Corpus.ofFetched, Function.comp_def]

/-- The graph finds the status that the loader had. -/
theorem status_loaded (distinct : files.Pairwise fun p q => ¬ p.same q) (hp : p ∈ files) :
    (tree.loaded root files).status p = tree.statusBelow root p := by
  have failed : ((tree.loaded root files).failures.any fun f => f.path.same p) =
      decide (tree.statusBelow root p = .failed) := by
    rw [← Path.any_same_filter distinct (fun p => tree.statusBelow root p = .failed) hp,
      ← map_path_failures_loaded, List.any_map]
    rfl
  rw [Corpus.status, missing_loaded, Path.any_same_filter distinct _ hp, failed]
  cases tree.statusBelow root p <;> rfl

theorem graph_vertices_loaded (patterns : PatternSet) (tree : FileTree) (root : Path)
    (distinct : files.Pairwise fun p q => ¬ p.same q) :
    (Analysis.ofCorpus patterns (tree.loaded root files)).graph.vertices =
      files.map fun p => ⟨p, tree.statusBelow root p⟩ := by
  have vertices : (tree.loaded root files).vertices = files.map fun p =>
    ⟨p, tree.statusBelow root p⟩ := by
    rw [Corpus.vertices, order_loaded]
    refine List.map_congr_left fun p hp => ?_
    rw [status_loaded distinct hp]
  rw [Corpus.graph_ofCorpus, Graph.addEdges_vertices, vertices,
    Graph.addVertices_vertices_of_distinct]
  · rfl
  · simpa [List.pairwise_map] using distinct

/-- A path of the list is in the group of its status once, and in no other. -/
theorem countP_same_group (distinct : files.Pairwise fun p q => ¬ p.same q)
    (hp : p ∈ files) {α : Type} {group : List α} {key : α → Path} {status : FileStatus}
    (h : group.map key = files.filter fun p => tree.statusBelow root p = status) :
    (group.countP fun x => (key x).same p) = if tree.statusBelow root p = status then 1 else 0 := by
  have counted := Path.countP_same_filter distinct (fun p => tree.statusBelow root p = status) hp
  rw [← h, List.countP_map] at counted
  simpa [Function.comp_def] using counted

theorem fetched_of_mem_units {u : SourceUnit} (hu : u ∈ (tree.loaded root files).units) :
    tree.fetched (root.join u.path) = .text u.text := by
  obtain ⟨⟨p, f⟩, hm, hf⟩ := List.mem_filterMap.mp hu
  obtain ⟨q, -, heq⟩ := List.mem_map.mp hm
  cases heq
  unfold Corpus.unit? at hf
  split at hf
  next path text heq =>
    cases hf
    exact (Prod.mk.inj heq).1 ▸ (Prod.mk.inj heq).2
  · cases hf

theorem not_same_of_mem_units (distinct : files.Pairwise fun p q => ¬ p.same q) (hp : p ∈ files)
    (hn : tree.statusBelow root p ≠ .loaded) {u : SourceUnit}
    (hu : u ∈ (tree.loaded root files).units) :
    ¬ u.path.same p := by
  intro hs
  have hm : u.path ∈ (tree.loaded root files).units.map (·.path) := List.mem_map_of_mem hu
  rw [map_path_units_loaded] at hm
  obtain ⟨hf, hl⟩ := List.mem_filter.mp hm
  rw [Path.eq_of_same_of_mem distinct hf hp hs] at hl
  exact hn (of_decide_eq_true hl)

/-- A file that was not loaded is at no end of an edge. -/
theorem avoids_of_not_loaded (patterns : PatternSet)
    (distinct : files.Pairwise fun p q => ¬ p.same q) (hp : p ∈ files)
    (hn : tree.statusBelow root p ≠ .loaded) {e : Edge}
    (he : e ∈ (Analysis.ofCorpus patterns (tree.loaded root files)).graph.edges) :
    e.avoids p = true := by
  rw [← (Corpus.wellFormed_graph patterns _).mem_orderedEdges] at he
  obtain ⟨⟨u, hu, hs⟩, o, ho, ht⟩ := Corpus.ends_of_mem_orderedEdges he
  rw [Edge.avoids_iff, hs, ht]
  exact ⟨not_same_of_mem_units distinct hp hn hu, not_same_of_mem_units distinct hp hn ho⟩

end FileTree

namespace Config

/-- How the files of a configuration are divided, and what the graph says of them. -/
structure ClassifiedFiles (config : Config) (tree : FileTree) (files : List Path) (corpus : Corpus)
    (a : Analysis) : Prop where
  files_in_order : files.Sublist config.files
  files_distinct : files.Pairwise fun p q => ¬ p.same q
  files_cover : ∀ p ∈ config.files, ∃ q ∈ files, q.same p
  /-- Each file is in one of the three groups, and there once. -/
  grouped_once : ∀ p ∈ files, (corpus.units.countP fun u => u.path.same p) +
    (corpus.missing.countP fun m => m.same p) + (corpus.failures.countP fun f => f.path.same p) = 1
  units_in_order : (corpus.units.map (·.path)).Sublist files
  missing_in_order : corpus.missing.Sublist files
  failures_in_order : (corpus.failures.map (·.path)).Sublist files
  /-- The lookup finds nothing there. -/
  missing_iff : ∀ p ∈ files, p ∈ corpus.missing ↔ tree.kind (config.root.join p) = .error .notFound
  failed_iff : ∀ p ∈ files, p ∈ corpus.failures.map (·.path) ↔ tree.Unreadable (config.root.join p)
  unit_text : ∀ u ∈ corpus.units, tree.read (config.root.join u.path) = .ok u.text.toUTF8
  reported_missing : a.missing = corpus.missing
  reported_failures : a.failures = corpus.failures
  vertices_files : a.graph.vertices.map (·.path) = files
  status_loaded : ∀ v ∈ a.graph.vertices, v.status = .loaded ↔ v.path ∈ corpus.units.map (·.path)
  status_missing : ∀ v ∈ a.graph.vertices, v.status = .missing ↔ v.path ∈ corpus.missing
  status_failed : ∀ v ∈ a.graph.vertices, v.status = .failed ↔ v.path ∈ corpus.failures.map (·.path)
  vertex_count : a.graph.vertices.length =
    corpus.units.length + corpus.missing.length + corpus.failures.length
  isolated : ∀ v ∈ a.graph.vertices, v.status ≠ .loaded →
    a.graph.outgoing v.path = [] ∧ ∀ e ∈ a.graph.edges, ¬ e.source.same v.path ∧
    ¬ e.target.same v.path

theorem classifiedFiles_loaded (patterns : PatternSet) (config : Config) (tree : FileTree) :
    ClassifiedFiles config tree (distinct config.files)
      (tree.loaded config.root (distinct config.files))
        (.ofCorpus patterns (tree.loaded config.root (distinct config.files))) := by
  have different := distinct_pairwise config.files
  have in_order := distinct_sublist config.files
  have cover : ∀ p ∈ config.files, ∃ q ∈ distinct config.files, q.same p :=
    fun _ hp => distinct_covers hp
  generalize distinct config.files = files at different in_order cover
  have units := FileTree.map_path_units_loaded tree config.root files
  have missing := FileTree.missing_loaded tree config.root files
  have failures := FileTree.map_path_failures_loaded tree config.root files
  have vertices := FileTree.graph_vertices_loaded patterns tree config.root different
  have status_iff : ∀ (status : FileStatus),
      ∀ v ∈ (Analysis.ofCorpus patterns (tree.loaded config.root files)).graph.vertices,
        v.status = status ↔ v.path ∈ files.filter fun p =>
          tree.statusBelow config.root p = status := by
    intro status v hv
    rw [vertices] at hv
    obtain ⟨p, hp, rfl⟩ := List.mem_map.mp hv
    simp [hp]
  refine {
    files_in_order := in_order
    files_distinct := different
    files_cover := cover
    grouped_once := ?once
    units_in_order := units ▸ List.filter_sublist
    missing_in_order := missing ▸ List.filter_sublist
    failures_in_order := failures ▸ List.filter_sublist
    missing_iff := ?missing
    failed_iff := ?failed
    unit_text := ?text
    reported_missing := rfl
    reported_failures := rfl
    vertices_files := by simp [vertices, Function.comp_def]
    status_loaded := units ▸ status_iff .loaded
    status_missing := missing ▸ status_iff .missing
    status_failed := failures ▸ status_iff .failed
    vertex_count := by rw [vertices, List.length_map, FileTree.length_groups_loaded]
    isolated := ?isolated }
  case once =>
    intro p hp
    rw [FileTree.countP_same_group different hp units,
      FileTree.countP_same_group different hp failures, missing,
      Path.countP_same_filter different _ hp]
    cases tree.statusBelow config.root p <;> rfl
  case missing =>
    intro p hp
    rw [missing, List.mem_filter, decide_eq_true_iff, and_iff_right hp]
    exact FileTree.status_fetched_eq_missing_iff
  case failed =>
    intro p hp
    rw [failures, List.mem_filter, decide_eq_true_iff, and_iff_right hp]
    exact FileTree.status_fetched_eq_failed_iff
  case text =>
    intro u hu
    exact (FileTree.fetched_eq_text_iff.mp (FileTree.fetched_of_mem_units hu)).2
  case isolated =>
    intro v hv hn
    rw [vertices] at hv
    obtain ⟨p, hp, rfl⟩ := List.mem_map.mp hv
    have avoided := fun e he =>
      Edge.avoids_iff.mp (FileTree.avoids_of_not_loaded patterns different hp hn (e := e) he)
    refine ⟨List.eq_nil_iff_forall_not_mem.mpr fun e he => ?_, avoided⟩
    obtain ⟨hm, hs⟩ := Graph.mem_outgoing.mp he
    exact (avoided e hm).1 hs

/-- A configuration that names a file, and whose words fit, is analysed whatever the tree holds, and
its files are divided as `ClassifiedFiles` says. -/
theorem analyze_classifies_files [PatternLimit] (config : Config) (tree : FileTree)
    (patterns : PatternSet) (named : config.files ≠ [])
    (compiled : PatternSet.ofConfig config.patterns = .ok patterns) :
    ∃ files corpus, config.orderedFiles = .ok files ∧
      (Corpus.load config.root files : StateM FileTree Corpus).run tree = pure (corpus, tree) ∧
      (config.analyze : StateM FileTree _).run tree = pure (.ok (.ofCorpus patterns corpus), tree) ∧
      ClassifiedFiles config tree files corpus (.ofCorpus patterns corpus) := by
  have ordered : config.orderedFiles = .ok (distinct config.files) := by
    rw [orderedFiles, if_neg]
    simpa using named
  refine ⟨_, _, ordered, FileTree.run_load tree config.root _, ?_,
    classifiedFiles_loaded patterns config tree⟩
  rw [run_analyze, analysisIn, compiled, ordered]

/-- One file of each kind, and one that is named twice. -/
theorem analyze_classifies_files_of_each_kind :
    let _ : PatternLimit := .ofLiterals
    let config : Config :=
      { files := [.ofText "gone.gs", .ofText "a.gs", .ofText "a.gs/.", .ofText "bad.gs"] }
    let tree := ((FileTree.empty ["work"]).create (.ofText "a.gs")
        (.file "class A {}".toUTF8)).create
      (.ofText "bad.gs") (.file ⟨#[255]⟩)
    let patterns : PatternSet := ⟨PatternSet.declarationShape, PatternSet.referenceShape {}⟩
    let files : List Path := [.ofText "gone.gs", .ofText "a.gs", .ofText "bad.gs"]
    config.files ≠ [] ∧ PatternSet.ofConfig config.patterns = .ok patterns ∧
      ∃ corpus, (Corpus.load config.root files : StateM FileTree Corpus).run tree =
        pure (corpus, tree) ∧
        ClassifiedFiles config tree files corpus (.ofCorpus patterns corpus) ∧
        corpus.units = [⟨.ofText "a.gs", "class A {}"⟩] ∧ corpus.missing = [.ofText "gone.gs"] ∧
        corpus.failures = [⟨.ofText "bad.gs", .decode 0⟩] := by
  intro limit config tree patterns files
  have named : config.files ≠ [] := by decide
  have compiled : PatternSet.ofConfig config.patterns = .ok patterns :=
    PatternSet.ofConfig_of_fits (by decide) (by decide)
  have ordered : config.orderedFiles = .ok files := rfl
  obtain ⟨files', corpus, ordered', loads, -, classified⟩ :=
    analyze_classifies_files config tree patterns named compiled
  rw [ordered] at ordered'
  cases ordered'
  have answer : corpus = tree.loaded config.root files := by
    rw [FileTree.run_load] at loads
    exact (congrArg Prod.fst loads).symm
  refine ⟨named, compiled, corpus, loads, classified, ?_⟩
  rw [answer]
  exact ⟨by decide +kernel, by decide +kernel, by decide +kernel⟩

end Config

end CodeAtlas
