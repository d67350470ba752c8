import CodeAtlas.Analysis
import CodeAtlas.Proofs.GraphBuilding
import CodeAtlas.Proofs.Resolving

/-!
# The meaning of a dependency graph

`Corpus.Depends` says in terms of the corpus alone when one file depends on another for a name: a
unit under the first refers to the name, no unit under it declares the name, the second is where the
name is declared first, and both are listed. The graph of an analysis has an edge for each such case
and no other. Files are compared as paths throughout, so units may share a path and a path may be
spelled in many ways.
-/
namespace CodeAtlas

namespace Corpus

variable {patterns : PatternSet} {corpus : Corpus}

/-- The source needs the label, which the target is the first to declare. -/
structure Depends (patterns : PatternSet) (corpus : Corpus) (e : Edge) : Prop where
  refers : ∃ u ∈ corpus.units, u.path.same e.source ∧ u.refersTo patterns e.label
  foreign : ∀ u ∈ corpus.units, u.path.same e.source → ¬ u.declares patterns e.label
  owned : ∃ u, corpus.units.find? (·.declares patterns e.label) = some u ∧ u.path.same e.target
  distinct : ¬ e.source.same e.target
  source_listed : ∃ p ∈ corpus.order, p.same e.source
  target_listed : ∃ p ∈ corpus.order, p.same e.target

/-- The edges that the references of all units come to, before any is refused. -/
def foundEdges (patterns : PatternSet) (corpus : Corpus) : List Edge :=
  corpus.units.flatMap fun u =>
    (ReferenceSet.collect patterns (.build patterns corpus.units) u).edges
      (.build patterns corpus.units)

theorem graph_ofCorpus (patterns : PatternSet) (corpus : Corpus) :
    (Analysis.ofCorpus patterns corpus).graph =
      (Graph.addVertices {} corpus.vertices).addEdges (corpus.foundEdges patterns) := by
  rw [← GraphBuilder.plain_build]
  simp only [Analysis.ofCorpus, foundEdges, List.flatMap_map]

theorem wellFormed_graph (patterns : PatternSet) (corpus : Corpus) :
    (Analysis.ofCorpus patterns corpus).graph.WellFormed := by
  rw [graph_ofCorpus]
  exact (Graph.wellFormed_empty.addVertices _).addEdges _

theorem mem_foundEdges {e : Edge} : e ∈ corpus.foundEdges patterns ↔
    ∃ u ∈ corpus.units, e.source = u.path ∧ u.refersTo patterns e.label ∧
      (∀ w ∈ corpus.units, w.path.same u.path → ¬ w.declares patterns e.label) ∧
      ∃ o, corpus.units.find? (·.declares patterns e.label) = some o ∧ o.path = e.target := by
  simp only [foundEdges, List.mem_flatMap, ReferenceSet.mem_edges, ReferenceSet.collect_path,
    ReferenceSet.mem_names_collect, SymbolTable.owner?_build, Option.map_eq_some_iff]
  constructor
  · intro hh
    obtain ⟨u, hu, hp, ⟨hr, hd⟩, ho, -⟩ := hh
    refine ⟨u, hu, hp, hr, fun w hw hs hn => ?_, ho⟩
    have declared := SymbolTable.isDeclaredIn_build.mpr ⟨w, hw, hs, hn⟩
    rw [hd] at declared
    cases declared
  · intro hh
    obtain ⟨u, hu, hp, hr, hf, o, ho, ht⟩ := hh
    refine ⟨u, hu, hp, ⟨hr, ?_⟩, ⟨o, ho, ht⟩, fun hs => ?_⟩
    · refine Bool.eq_false_iff.mpr fun hd => ?_
      obtain ⟨w, hw, hs, hn⟩ := SymbolTable.isDeclaredIn_build.mp hd
      exact hf w hw hs hn
    · -- the owner is a unit that declares the label, and no such unit stands under `u.path`
      exact hf o (List.mem_of_find?_eq_some ho) (ht ▸ hs) (List.find?_some ho)

/-- The ends of a listed edge are spelled as the units that it joins. -/
theorem ends_of_mem_orderedEdges {e : Edge}
    (he : e ∈ (Analysis.ofCorpus patterns corpus).graph.orderedEdges) :
    (∃ u ∈ corpus.units, e.source = u.path) ∧ ∃ u ∈ corpus.units, e.target = u.path := by
  rw [(wellFormed_graph patterns corpus).mem_orderedEdges, graph_ofCorpus] at he
  have found : e ∈ corpus.foundEdges patterns := by
    simpa using (Graph.addEdges_edges_sublist _).subset he
  obtain ⟨u, hu, hs, -, -, o, ho, ht⟩ := mem_foundEdges.mp found
  exact ⟨⟨u, hu, hs⟩, o, List.mem_of_find?_eq_some ho, ht.symm⟩

theorem hasVertex_vertices {p : Path} :
    (Graph.addVertices {} corpus.vertices).hasVertex p = true ↔ ∃ q ∈ corpus.order,
    q.same p = true := by
  rw [Graph.hasVertex_addVertices]
  simp [vertices, Graph.hasVertex]

/-- Some found edge is that of `e`, respelled, exactly if `e` says something true of the units. -/
theorem exists_foundEdges_same {e : Edge} : (∃ e' ∈ corpus.foundEdges patterns, e'.same e = true) ↔
    (∃ u ∈ corpus.units, u.path.same e.source ∧ u.refersTo patterns e.label) ∧
      (∀ u ∈ corpus.units, u.path.same e.source → ¬ u.declares patterns e.label) ∧
      ∃ u, corpus.units.find? (·.declares patterns e.label) = some u ∧ u.path.same e.target := by
  constructor
  · intro hh
    obtain ⟨e', he', hs⟩ := hh
    obtain ⟨u, hu, hp, hr, hf, o, ho, ht⟩ := mem_foundEdges.mp he'
    obtain ⟨hsource, htarget, hlabel⟩ := Edge.same_iff.mp hs
    rw [hlabel] at hr hf ho
    rw [hp] at hsource
    refine ⟨⟨u, hu, hsource, hr⟩, fun w hw hws => ?_, o, ho, ?_⟩
    · exact hf w hw (Path.same_trans hws (Path.same_symm hsource))
    · rw [ht]
      exact htarget
  · intro hh
    obtain ⟨⟨u, hu, hsource, hr⟩, hf, o, ho, htarget⟩ := hh
    refine ⟨⟨u.path, o.path, e.label⟩,
      mem_foundEdges.mpr ⟨u, hu, rfl, hr, fun w hw hws => ?_, o, ho, rfl⟩,
      Edge.same_iff.mpr ⟨hsource, htarget, rfl⟩⟩
    exact hf w hw (Path.same_trans hws hsource)

theorem hasEdge_graph {e : Edge} :
    (Analysis.ofCorpus patterns corpus).graph.hasEdge e = true ↔ corpus.Depends patterns e := by
  rw [graph_ofCorpus, Graph.hasEdge_addEdges, exists_foundEdges_same]
  constructor
  · intro hh
    rcases hh with h | ⟨⟨hl, hs, ht⟩, hr, hf, ho⟩
    · simp [Graph.hasEdge] at h
    · exact ⟨hr, hf, ho, hl, hasVertex_vertices.mp hs, hasVertex_vertices.mp ht⟩
  · intro hh
    obtain ⟨hr, hf, ho, hl, hs, ht⟩ := hh
    exact .inr ⟨⟨hl, hasVertex_vertices.mpr hs, hasVertex_vertices.mpr ht⟩, hr, hf, ho⟩

/-- A triple is listed exactly if it is a dependency of the corpus, and then exactly once. -/
theorem orderedEdges_iff_depends (patterns : PatternSet) (corpus : Corpus) (e : Edge) :
    ((∃ e' ∈ (Analysis.ofCorpus patterns corpus).graph.orderedEdges, e'.same e) ↔
        corpus.Depends patterns e) ∧
      ((Analysis.ofCorpus patterns corpus).graph.orderedEdges.countP e.same = 1 ↔
        corpus.Depends patterns e) := by
  have h := wellFormed_graph patterns corpus
  constructor
  · rw [← hasEdge_graph, Graph.hasEdge_iff]
    simp only [h.mem_orderedEdges]
  · rw [h.countP_orderedEdges, ← hasEdge_graph]
    split
    next he => simp [he]
    next he => simp [he]

end Corpus

end CodeAtlas
