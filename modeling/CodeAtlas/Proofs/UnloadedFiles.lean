import CodeAtlas.Proofs.FileClasses
import CodeAtlas.Proofs.ResolutionCount

/-!
# Files that could not be loaded

Two runs over the same tree, the second without the files that the first found missing or failed.
The units of both are the same, and everything but the vertices of the graph is made from the units.
The graph of the second run is the part of the first without the vertices of the other files. These
are at no end of an edge, so both graphs list the same edges in the same order.
-/
namespace CodeAtlas

namespace Corpus

variable {c d : Corpus}

/-- Tables, references and counts are made from the units alone. -/
theorem analysis_congr_units (patterns : PatternSet) (units : c.units = d.units) :
    (Analysis.ofCorpus patterns c).symbols = (Analysis.ofCorpus patterns d).symbols ∧
      (Analysis.ofCorpus patterns c).references = (Analysis.ofCorpus patterns d).references ∧
      (Analysis.ofCorpus patterns c).tally = (Analysis.ofCorpus patterns d).tally := by
  simp only [Analysis.ofCorpus, units, and_self]

theorem graph_edges_congr_units (patterns : PatternSet) (hc : c.Separate) (hd : d.Separate)
    (units : c.units = d.units) :
    (Analysis.ofCorpus patterns c).graph.edges = (Analysis.ofCorpus patterns d).graph.edges := by
  rw [edges_of_separate hc, edges_of_separate hd, foundEdges, foundEdges, units]

end Corpus

namespace FileTree

variable {files : List Path}

/-- Leaving out files that are not loaded keeps the units, texts and order included. -/
theorem units_loaded_filter (tree : FileTree) (root : Path) (files : List Path) :
    (tree.loaded root (files.filter fun p => tree.statusBelow root p = .loaded)).units =
      (tree.loaded root files).units := by
  simp only [loaded, Corpus.ofFetched, List.filterMap_map, List.filterMap_filter]
  congr 1
  funext p
  by_cases h : tree.statusBelow root p = .loaded
  · simp [h]
  · have no_unit : Corpus.unit? (p, tree.fetched (root.join p)) = none := by
      unfold statusBelow at h
      cases hf : tree.fetched (root.join p) <;> simp_all [Fetched.status, Corpus.unit?]
    simp [h, no_unit]

/-- What is left when the missing and the failed are taken away are the files that were loaded. -/
theorem filter_not_mem_groups (tree : FileTree) (root : Path) (files : List Path) :
    (files.filter fun p => p ∉ (tree.loaded root files).missing ∧
        p ∉ (tree.loaded root files).failures.map (·.path)) =
      files.filter fun p => tree.statusBelow root p = .loaded := by
  refine List.filter_congr fun p hp => ?_
  rw [missing_loaded, map_path_failures_loaded]
  cases h : tree.statusBelow root p <;> simp [hp, h]

theorem graph_partOf_unfiltered (patterns : PatternSet) (tree : FileTree) (root : Path)
    (distinct : files.Pairwise fun p q => ¬ p.same q) :
    Graph.PartOf (fun _ => true)
      (Analysis.ofCorpus patterns
        (tree.loaded root (files.filter fun p => tree.statusBelow root p = .loaded))).graph
      (Analysis.ofCorpus patterns (tree.loaded root files)).graph := by
  have kept_distinct := distinct.filter fun p => tree.statusBelow root p = .loaded
  constructor
  · rw [graph_vertices_loaded patterns tree root distinct,
      graph_vertices_loaded patterns tree root kept_distinct]
    exact List.filter_sublist.map _
  · rw [List.filter_true]
    exact Corpus.graph_edges_congr_units patterns (Corpus.separate_loaded kept_distinct)
      (Corpus.separate_loaded distinct) (units_loaded_filter tree root files)

end FileTree

namespace Corpus

/-- The files that are missing or failed have no part in what is found of the others: without them,
the tables, the references, the counts and the edges are the same, and the graph only lacks their
vertices. -/
theorem analysis_without_unloaded (patterns : PatternSet) (tree : FileTree) (root : Path)
    (files : List Path) (distinct : files.Pairwise fun p q => ¬ p.same q) :
    let corpus := ((load root files : StateM FileTree Corpus).run tree).1
    let kept := files.filter fun p => p ∉ corpus.missing ∧ p ∉ corpus.failures.map (·.path)
    let rest := ((load root kept : StateM FileTree Corpus).run tree).1
    let a := Analysis.ofCorpus patterns corpus
    let b := Analysis.ofCorpus patterns rest
    b.symbols = a.symbols ∧ b.references = a.references ∧ b.tally = a.tally ∧
      b.graph.orderedEdges = a.graph.orderedEdges ∧ b.graph.edges = a.graph.edges ∧
      b.graph.vertices = a.graph.vertices.filter (fun v => v.path ∈ kept) ∧
      rest.missing = [] ∧ rest.failures = [] := by
  intro corpus kept rest a b
  have corpus_eq : corpus = tree.loaded root files :=
    congrArg Prod.fst (FileTree.run_load (m := Id) tree root files)
  have kept_eq : kept = files.filter fun p => tree.statusBelow root p = .loaded := by
    simp only [kept, corpus_eq]
    exact FileTree.filter_not_mem_groups tree root files
  have rest_eq :
      rest = tree.loaded root (files.filter fun p => tree.statusBelow root p = .loaded) := by
    rw [← kept_eq]
    exact congrArg Prod.fst (FileTree.run_load (m := Id) tree root kept)
  have units : rest.units = corpus.units := by
    rw [rest_eq, corpus_eq]
    exact FileTree.units_loaded_filter tree root files
  have ⟨symbols, references, tally⟩ := analysis_congr_units patterns units
  have part : Graph.PartOf (fun _ => true) b.graph a.graph := by
    simp only [a, b, rest_eq, corpus_eq]
    exact FileTree.graph_partOf_unfiltered patterns tree root distinct
  have all_loaded : ∀ status ≠ FileStatus.loaded,
      ((files.filter fun p => tree.statusBelow root p = .loaded).filter
        fun p => tree.statusBelow root p = status) = [] := by
    intro status hn
    refine List.filter_eq_nil_iff.mpr fun p hp => ?_
    simp [of_decide_eq_true (List.mem_filter.mp hp).2, hn.symm]
  refine ⟨symbols, references, tally, ?_, ?_, ?_, ?_, ?_⟩
  · rw [part.orderedEdges_eq (wellFormed_graph patterns rest) (wellFormed_graph patterns corpus),
      List.filter_true]
  · rw [part.edges, List.filter_true]
  · simp only [a, b, rest_eq, corpus_eq, FileTree.graph_vertices_loaded patterns tree root distinct,
      FileTree.graph_vertices_loaded patterns tree root (distinct.filter _), List.filter_map]
    congr 1
    refine List.filter_congr fun p hp => ?_
    simp [kept_eq, hp]
  · rw [rest_eq, FileTree.missing_loaded, all_loaded .missing (by decide)]
  · rw [← List.map_eq_nil_iff, rest_eq, FileTree.map_path_failures_loaded,
      all_loaded .failed (by decide)]

/-- A missing file in front, and one that is not a text between the two that are joined by an
edge. -/
theorem analysis_without_unloaded_of_four :
    let patterns : PatternSet := ⟨PatternSet.declarationShape, PatternSet.referenceShape {}⟩
    let tree := (((FileTree.empty ["work"]).create (.ofText "use.gs")
        (.file "new A()".toUTF8)).create
      (.ofText "bad.gs") (.file ⟨#[255]⟩)).create (.ofText "a.gs") (.file "class A {}".toUTF8)
    let files : List Path := [.ofText "gone.gs", .ofText "use.gs", .ofText "bad.gs", .ofText "a.gs"]
    let corpus := ((load (.ofText ".") files : StateM FileTree Corpus).run tree).1
    let kept := files.filter fun p => p ∉ corpus.missing ∧ p ∉ corpus.failures.map (·.path)
    let rest := ((load (.ofText ".") kept : StateM FileTree Corpus).run tree).1
    let a := Analysis.ofCorpus patterns corpus
    let b := Analysis.ofCorpus patterns rest
    (files.Pairwise fun p q => ¬ p.same q) ∧ kept = [.ofText "use.gs", .ofText "a.gs"] ∧
      a.graph.orderedEdges = [⟨.ofText "use.gs", .ofText "a.gs", "A"⟩] ∧
      b.graph.orderedEdges = a.graph.orderedEdges ∧ b.tally = a.tally ∧
      b.graph.vertices = a.graph.vertices.filter (fun v => v.path ∈ kept) := by
  intro patterns tree files corpus kept rest a b
  have distinct : files.Pairwise fun p q => ¬ p.same q := by decide
  have h := analysis_without_unloaded patterns tree (.ofText ".") files distinct
  exact ⟨distinct, by decide +kernel, by decide +kernel, h.2.2.2.1, h.2.2.1, h.2.2.2.2.2.1⟩

end Corpus

end CodeAtlas
