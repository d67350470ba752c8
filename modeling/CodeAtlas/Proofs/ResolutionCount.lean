import CodeAtlas.Proofs.DependencyGraph
import CodeAtlas.Proofs.Loading

/-!
# Counting references

The tally of an analysis against its references and its graph. Every reference is resolved or
unresolved, none is reflexive, and the graph has at most one edge for each that is resolved. It has
exactly one when units stand under different listed paths, for then no edge is refused: not as a
repeated triple, since different units have different paths and one unit has each name once, and not
for want of a vertex.
-/
namespace CodeAtlas

namespace Corpus

variable {patterns : PatternSet} {corpus : Corpus}

theorem tally_ofCorpus (patterns : PatternSet) (corpus : Corpus) :
    let a := Analysis.ofCorpus patterns corpus
    a.tally = ⟨(a.references.map fun r => (r.tally a.symbols).resolved).sum,
      (a.references.map fun r => (r.tally a.symbols).unresolved).sum,
      (a.references.map fun r => (r.tally a.symbols).reflexive).sum⟩ := by
  simp only [Analysis.ofCorpus, Tally.foldl_add]
  ext <;> simp

theorem tally_resolved (patterns : PatternSet) (corpus : Corpus) :
    (Analysis.ofCorpus patterns corpus).tally.resolved = (corpus.foundEdges patterns).length := by
  rw [tally_ofCorpus]
  simp only [ReferenceSet.tally_eq, foundEdges, List.length_flatMap,
    Analysis.ofCorpus, List.map_map]
  rfl

theorem tally_reflexive (patterns : PatternSet) (corpus : Corpus) :
    (Analysis.ofCorpus patterns corpus).tally.reflexive = 0 := by
  rw [tally_ofCorpus]
  simp only [Analysis.ofCorpus, List.map_map, List.sum_eq_zero_iff_forall_eq_nat, List.mem_map]
  intro n hn
  obtain ⟨u, -, rfl⟩ := hn
  exact ReferenceSet.tally_collect_reflexive corpus.units u

theorem tally_total (patterns : PatternSet) (corpus : Corpus) :
    (Analysis.ofCorpus patterns corpus).tally.resolved +
        (Analysis.ofCorpus patterns corpus).tally.unresolved =
      ((Analysis.ofCorpus patterns corpus).references.map ReferenceSet.size).sum := by
  have none_reflexive := tally_reflexive patterns corpus
  rw [tally_ofCorpus] at none_reflexive ⊢
  rw [← ReferenceSet.sum_tally_total (Analysis.ofCorpus patterns corpus).symbols]
  simp only at none_reflexive ⊢
  omega

/-! ## No edge is refused -/

theorem foundEdges_distinct (h : corpus.Separate) :
    (corpus.foundEdges patterns).Pairwise fun a b => ¬ a.same b := by
  rw [foundEdges, List.pairwise_flatMap]
  constructor
  · intro u _
    refine (ReferenceSet.edges_labels_distinct _ _).imp fun hl hs => hl ?_
    exact (Edge.same_iff.mp hs).2.2
  · refine h.distinct.imp ?_
    intro u v hd a ha b hb hs
    obtain ⟨hu, -⟩ := ReferenceSet.mem_edges.mp ha
    obtain ⟨hv, -⟩ := ReferenceSet.mem_edges.mp hb
    rw [ReferenceSet.collect_path] at hu hv
    have := (Edge.same_iff.mp hs).1
    rw [hu, hv] at this
    exact hd this

theorem foundEdges_join (h : corpus.Separate) :
    ∀ e ∈ corpus.foundEdges patterns, (Graph.addVertices {} corpus.vertices).Joins e := by
  intro e he
  obtain ⟨u, hu, hp, -, hf, o, ho, ht⟩ := mem_foundEdges.mp he
  have owner_mem := List.mem_of_find?_eq_some ho
  refine ⟨fun hs => ?_, ?_, ?_⟩
  · rw [hp, ← ht] at hs
    exact hf o owner_mem (Path.same_symm hs) (List.find?_some ho)
  · rw [hp]
    exact hasVertex_vertices.mpr (h.listed u hu)
  · rw [← ht]
    exact hasVertex_vertices.mpr (h.listed o owner_mem)

theorem edges_of_separate (h : corpus.Separate) :
    (Analysis.ofCorpus patterns corpus).graph.edges = corpus.foundEdges patterns := by
  rw [graph_ofCorpus, Graph.addEdges_edges_of_joins]
  · simp
  · simpa using foundEdges_distinct h
  · exact foundEdges_join h

theorem length_edges_le (patterns : PatternSet) (corpus : Corpus) :
    (Analysis.ofCorpus patterns corpus).graph.edges.length ≤
      (corpus.foundEdges patterns).length := by
  rw [graph_ofCorpus]
  simpa using Graph.length_addEdges_le (g := .addVertices {} corpus.vertices)
    (corpus.foundEdges patterns)

theorem length_edges_of_separate (h : corpus.Separate) :
    (Analysis.ofCorpus patterns corpus).graph.edges.length =
      (Analysis.ofCorpus patterns corpus).tally.resolved := by
  rw [tally_resolved, edges_of_separate h]

/-- The counts of an analysis. The last two parts are about configurations: each loads such a corpus
as the part before them asks for, so that its graph has an edge for each resolved reference. -/
theorem resolution_accounting [PatternLimit] (patterns : PatternSet) (corpus : Corpus) :
    let a := Analysis.ofCorpus patterns corpus
    a.tally.reflexive = 0 ∧
      a.tally.resolved + a.tally.unresolved = (a.references.map ReferenceSet.size).sum ∧
      a.graph.edges.length ≤ a.tally.resolved ∧
      (corpus.Separate → a.graph.edges.length = a.tally.resolved) ∧
      (∀ (config : Config) (files : List Path) (tree : FileTree), config.orderedFiles = .ok files →
        ((load config.root files : StateM FileTree Corpus).run tree).1.Separate) ∧
      ∀ (config : Config) (tree : FileTree) (b : Analysis),
        ((config.analyze : StateM FileTree _).run tree).1 = .ok b →
          b.graph.edges.length = b.tally.resolved := by
  have loads : ∀ (config : Config) (files : List Path) (tree : FileTree),
      config.orderedFiles = .ok files → (tree.loaded config.root files).Separate :=
    fun _ _ _ h => separate_loaded (Config.orderedFiles_pairwise h)
  refine ⟨tally_reflexive patterns corpus, tally_total patterns corpus, ?_,
    length_edges_of_separate, ?_, ?_⟩
  · rw [tally_resolved]
    exact length_edges_le patterns corpus
  · intro config files tree h
    rw [FileTree.run_load]
    exact loads config files tree h
  · intro config tree b h
    rw [Config.run_analyze] at h
    obtain ⟨patterns, files, hf, rfl⟩ := Config.analysisIn_eq_ok h
    exact length_edges_of_separate (loads config files tree hf)

theorem resolution_accounting_of_two_units :
    let _ : PatternLimit := .ofLiterals
    let patterns : PatternSet := ⟨PatternSet.declarationShape, PatternSet.referenceShape {}⟩
    let corpus := ofUnits [⟨.ofText "a.gs", "class A {}"⟩, ⟨.ofText "b.gs", "new A(); new B()"⟩]
    let config : Config := { files := [.ofText "a.gs", .ofText "b.gs", .ofText "a.gs/"] }
    let a := Analysis.ofCorpus patterns corpus
    corpus.Separate ∧ a.graph.edges.length = a.tally.resolved ∧ a.tally = ⟨1, 1, 0⟩ ∧
      config.orderedFiles = .ok [.ofText "a.gs", .ofText "b.gs"] ∧
      ((load config.root [.ofText "a.gs", .ofText "b.gs"] : StateM FileTree Corpus).run
        (.empty ["work"])).1.Separate := by
  intro limit patterns corpus config a
  have h := resolution_accounting patterns corpus
  have separate : corpus.Separate := separate_ofUnits (by decide)
  have files : config.orderedFiles = .ok [.ofText "a.gs", .ofText "b.gs"] := rfl
  exact ⟨separate, h.2.2.2.1 separate, by decide, files, h.2.2.2.2.1 config _ _ files⟩

end Corpus

end CodeAtlas
