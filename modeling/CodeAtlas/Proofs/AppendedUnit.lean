import CodeAtlas.Proofs.DependencyGraph
import CodeAtlas.Proofs.GraphPart

/-!
# One more unit

Two runs, the second over the units of the first and one more at the end, under a path of its own.
The symbol table of the second run is that of the first after one more step, so owners stay and
shadowings are added behind. What the earlier units declare and refer to is as before. A name that
had an owner resolves as before, and one that had none can only resolve to the new file. So the
graph of the first run is the part of the second that avoids the new file. The earlier units may
share paths among themselves.
-/
namespace CodeAtlas

variable {patterns : PatternSet} {table : SymbolTable} {us : List SourceUnit} {w : SourceUnit}

namespace SymbolTable

theorem build_concat (patterns : PatternSet) (us : List SourceUnit) (w : SourceUnit) :
    build patterns (us ++ [w]) = (build patterns us).add patterns w := by
  rw [build, List.foldl_append]
  rfl

theorem owner?_add_of_some {name : String} {owner : Path} (h : table.owner? name = some owner) :
    (table.add patterns w).owner? name = some owner := by
  rw [owner?_add, h, Option.some_or]

theorem shadowed_prefix_add (patterns : PatternSet) (table : SymbolTable) (w : SourceUnit) :
    table.shadowed <+: (table.add patterns w).shadowed :=
  List.prefix_append _ _

theorem isDeclaredIn_add_of_not_same {name : String} {path : Path} (h : ¬ w.path.same path) :
    (table.add patterns w).isDeclaredIn name path = table.isDeclaredIn name path := by
  rw [Bool.eq_iff_iff, isDeclaredIn_add]
  simp [h]

/-- The owners that a table names are paths of units. -/
theorem exists_mem_of_owner? {name : String} {owner : Path}
    (h : (build patterns us).owner? name = some owner) : ∃ u ∈ us, u.path = owner := by
  rw [owner?_build] at h
  obtain ⟨u, hf, hp⟩ := Option.map_eq_some_iff.mp h
  exact ⟨u, List.mem_of_find?_eq_some hf, hp⟩

end SymbolTable

namespace ReferenceSet

theorem collect_add_of_not_same {u : SourceUnit} (h : ¬ w.path.same u.path) :
    collect patterns (table.add patterns w) u = collect patterns table u := by
  simp only [collect, SymbolTable.isDeclaredIn_add_of_not_same h]

/-- A name resolves as before unless it resolves to the new unit. -/
theorem edge?_ofName_add {path : Path} (elsewhere : ¬ path.same w.path)
    (owners : ∀ name owner, table.owner? name = some owner → ¬ owner.same w.path) (name : String) :
    (Resolution.ofName (table.add patterns w) path name).edge?.filter (·.avoids w.path) =
      (Resolution.ofName table path name).edge? := by
  cases ho : table.owner? name with
  | some owner =>
    simp only [Resolution.ofName, ho, SymbolTable.owner?_add_of_some ho]
    split
    · rfl
    · have kept : Edge.avoids ⟨path, owner, name⟩ w.path = true :=
        Edge.avoids_iff.mpr ⟨elsewhere, owners name owner ho⟩
      simp [Resolution.edge?, kept]
  | none =>
    have unresolved : (Resolution.ofName table path name).edge? = none := by
      rw [Resolution.ofName_eq_unresolved_iff.mpr ho]
      rfl
    rw [unresolved, Resolution.ofName, SymbolTable.owner?_add, ho, Option.none_or]
    split
    · rfl
    next owner hw =>
      -- the only owner that can be new is `w`
      have target : owner = w.path := by
        split at hw <;> simp_all
      subst target
      split
      · rfl
      · simp [Resolution.edge?, Edge.avoids]

theorem edges_add (set : ReferenceSet) (elsewhere : ¬ set.path.same w.path)
    (owners : ∀ name owner, table.owner? name = some owner → ¬ owner.same w.path) :
    (set.edges (table.add patterns w)).filter (·.avoids w.path) = set.edges table := by
  simp only [edges, resolutions, List.filterMap_map, List.filter_filterMap, Function.comp_def,
    edge?_ofName_add elsewhere owners]

end ReferenceSet

namespace Corpus

theorem foundEdges_concat (fresh : ∀ u ∈ us, ¬ u.path.same w.path) :
    ((ofUnits (us ++ [w])).foundEdges patterns).filter (·.avoids w.path) =
      (ofUnits us).foundEdges patterns := by
  have owners : ∀ name owner, (SymbolTable.build patterns us).owner? name = some owner →
      ¬ owner.same w.path := by
    intro name owner ho
    obtain ⟨u, hu, rfl⟩ := SymbolTable.exists_mem_of_owner? ho
    exact fresh u hu
  -- the edges of `w` start at `w`
  have own_dropped : ∀ set : ReferenceSet, set.path = w.path → ∀ table : SymbolTable,
      (set.edges table).filter (·.avoids w.path) = [] := by
    intro set hset table
    refine List.filter_eq_nil_iff.mpr fun e he hk => ?_
    have hs := (ReferenceSet.mem_edges.mp he).1
    rw [hset] at hs
    exact (Edge.avoids_iff.mp hk).1 (hs ▸ Path.same_refl _)
  simp only [foundEdges, ofUnits, SymbolTable.build_concat, List.flatMap_append, List.filter_append,
    List.flatMap_cons, List.flatMap_nil, List.append_nil, List.filter_flatMap]
  rw [own_dropped _ ReferenceSet.collect_path, List.append_nil]
  refine List.flatMap_congr fun u hu => ?_
  have elsewhere : ¬ w.path.same u.path := fun hs => fresh u hu (Path.same_symm hs)
  rw [ReferenceSet.collect_add_of_not_same elsewhere]
  refine ReferenceSet.edges_add _ ?_ owners
  rw [ReferenceSet.collect_path]
  exact fresh u hu

theorem vertices_ofUnits (us : List SourceUnit) :
    (ofUnits us).vertices = us.map fun u => ⟨u.path, .loaded⟩ := by
  simp [vertices, ofUnits, status]

/-- Without edges, the second graph is the first with a vertex for the new unit. -/
theorem addVertices_concat_unit (fresh : ∀ u ∈ us, ¬ u.path.same w.path) :
    Graph.addVertices {} (ofUnits (us ++ [w])).vertices =
      { Graph.addVertices {} (ofUnits us).vertices with
        vertices := (Graph.addVertices {} (ofUnits us).vertices).vertices ++
          [⟨w.path, .loaded⟩] } := by
  have absent : (Graph.addVertices {} (ofUnits us).vertices).hasVertex w.path = false := by
    refine Bool.eq_false_iff.mpr fun hv => ?_
    obtain ⟨p, hp, hs⟩ := hasVertex_vertices.mp hv
    obtain ⟨u, hu, rfl⟩ := List.mem_map.mp hp
    exact fresh u hu hs
  rw [vertices_ofUnits, List.map_append, List.map_singleton, Graph.addVertices_concat,
    ← vertices_ofUnits]
  exact Graph.addVertex_of_not_hasVertex (v := ⟨w.path, .loaded⟩) absent

/-- The first graph is the part of the second that avoids the new file. -/
theorem graph_partOf_concat (patterns : PatternSet) (fresh : ∀ u ∈ us, ¬ u.path.same w.path) :
    Graph.PartOf (·.avoids w.path) (Analysis.ofCorpus patterns (ofUnits us)).graph
      (Analysis.ofCorpus patterns (ofUnits (us ++ [w]))).graph := by
  have bare : Graph.PartOf (·.avoids w.path) (Graph.addVertices {} (ofUnits us).vertices)
      (Graph.addVertices {} (ofUnits (us ++ [w])).vertices) := by
    rw [addVertices_concat_unit fresh]
    exact ⟨List.sublist_append_left _ _, by simp⟩
  rw [graph_ofCorpus, graph_ofCorpus, ← foundEdges_concat fresh]
  refine bare.addEdges (fun a b h => Edge.avoids_congr h w.path) _ fun e _ hk => ?_
  obtain ⟨hs, ht⟩ := Edge.avoids_iff.mp hk
  have vertex_iff : ∀ p : Path, ¬ p.same w.path →
      ((Graph.addVertices {} (ofUnits (us ++ [w])).vertices).hasVertex p = true ↔
        (Graph.addVertices {} (ofUnits us).vertices).hasVertex p = true) := by
    intro p hp
    rw [hasVertex_vertices, hasVertex_vertices]
    simp [ofUnits, or_and_right, exists_or, Path.same_comm w.path, hp]
  constructor
  · intro hj
    exact ⟨hj.no_loop, (vertex_iff _ hs).mpr hj.source, (vertex_iff _ ht).mpr hj.target⟩
  · intro hj
    exact ⟨hj.no_loop, (vertex_iff _ hs).mp hj.source, (vertex_iff _ ht).mp hj.target⟩

theorem orderedEdges_concat (patterns : PatternSet) (fresh : ∀ u ∈ us, ¬ u.path.same w.path) :
    (Analysis.ofCorpus patterns (ofUnits us)).graph.orderedEdges =
      (Analysis.ofCorpus patterns (ofUnits (us ++ [w]))).graph.orderedEdges.filter
        (·.avoids w.path) :=
  (graph_partOf_concat patterns fresh).orderedEdges_eq (wellFormed_graph _ _) (wellFormed_graph _ _)

/-- A path among those of the units that is the new file is spelled as the new unit is. -/
theorem eq_of_same_appended (fresh : ∀ u ∈ us, ¬ u.path.same w.path) {p : Path}
    (hp : ∃ u ∈ us ++ [w], p = u.path) (hs : p.same w.path = true) : p = w.path := by
  obtain ⟨u, hu, rfl⟩ := hp
  rcases List.mem_append.mp hu with hu | hu
  · exact absurd hs (fresh u hu)
  · rw [List.mem_singleton.mp hu]

/-- A unit added at the end, under a new path, changes nothing that was there. Owners, shadowings,
references and edges stay in their order, and new edges have the new file at one of their ends. -/
theorem analysis_concat (patterns : PatternSet) (us : List SourceUnit) (w : SourceUnit)
    (fresh : ∀ u ∈ us, ¬ u.path.same w.path) :
    let a := Analysis.ofCorpus patterns (ofUnits us)
    let b := Analysis.ofCorpus patterns (ofUnits (us ++ [w]))
    (∀ name owner, a.symbols.owner? name = some owner → b.symbols.owner? name = some owner) ∧
      a.symbols.shadowed <+: b.symbols.shadowed ∧
      (∃ r, r.path = w.path ∧ b.references = a.references ++ [r]) ∧
      a.graph.orderedEdges.Sublist b.graph.orderedEdges ∧
      ∀ e ∈ b.graph.orderedEdges, e ∉ a.graph.orderedEdges →
        e.source = w.path ∨ e.target = w.path := by
  intro a b
  have table : b.symbols = a.symbols.add patterns w := SymbolTable.build_concat patterns us w
  have listing : a.graph.orderedEdges = b.graph.orderedEdges.filter (·.avoids w.path) :=
    orderedEdges_concat patterns fresh
  refine ⟨?_, ?_, ?_, ?_, ?_⟩
  · intro name owner ho
    rw [table]
    exact SymbolTable.owner?_add_of_some ho
  · rw [table]
    exact SymbolTable.shadowed_prefix_add patterns a.symbols w
  · refine ⟨.collect patterns b.symbols w, ReferenceSet.collect_path, ?_⟩
    have unchanged : us.map (ReferenceSet.collect patterns b.symbols) = a.references := by
      refine List.map_congr_left fun u hu => ?_
      rw [table]
      exact ReferenceSet.collect_add_of_not_same fun hs => fresh u hu (Path.same_symm hs)
    rw [← unchanged]
    exact List.map_append
  · rw [listing]
    exact List.filter_sublist
  · intro e he hn
    rw [listing, List.mem_filter, Edge.avoids_iff] at hn
    obtain ⟨source, target⟩ := ends_of_mem_orderedEdges he
    by_cases hs : e.source.same w.path = true
    · exact .inl (eq_of_same_appended fresh source hs)
    · by_cases ht : e.target.same w.path = true
      · exact .inr (eq_of_same_appended fresh target ht)
      · exact absurd ⟨he, hs, ht⟩ hn

/-- The new unit declares `A`, which had no owner, and `B`, which has one; two units share a
path. -/
theorem analysis_concat_of_declarer :
    let patterns : PatternSet := ⟨PatternSet.declarationShape, PatternSet.referenceShape {}⟩
    let us : List SourceUnit :=
      [⟨.ofText "src/a.gs", "new A(); new B()"⟩, ⟨.ofText "src//a.gs", "new B()"⟩,
        ⟨.ofText "b.gs", "class B {}"⟩]
    let w : SourceUnit := ⟨.ofText "c.gs", "class A {} class B {}"⟩
    let a := Analysis.ofCorpus patterns (ofUnits us)
    let b := Analysis.ofCorpus patterns (ofUnits (us ++ [w]))
    let added : Edge := ⟨.ofText "src/a.gs", .ofText "c.gs", "A"⟩
    (∀ u ∈ us, ¬ u.path.same w.path) ∧ a.symbols.owner? "B" = some (.ofText "b.gs") ∧
      b.symbols.owner? "B" = some (.ofText "b.gs") ∧
      b.symbols.shadowed = [⟨"B", .ofText "b.gs", .ofText "c.gs"⟩] ∧
      a.graph.orderedEdges.Sublist b.graph.orderedEdges ∧
      added ∈ b.graph.orderedEdges ∧ added ∉ a.graph.orderedEdges ∧
      (added.source = w.path ∨ added.target = w.path) := by
  intro patterns us w a b added
  have fresh : ∀ u ∈ us, ¬ u.path.same w.path := by decide
  have h := analysis_concat patterns us w fresh
  have owner : a.symbols.owner? "B" = some (.ofText "b.gs") := by decide +kernel
  have listed : added ∈ b.graph.orderedEdges :=
    (wellFormed_graph patterns _).mem_orderedEdges.mpr (by decide +kernel)
  have unlisted : added ∉ a.graph.orderedEdges := fun he =>
    absurd ((wellFormed_graph patterns _).mem_orderedEdges.mp he) (by decide +kernel)
  exact ⟨fresh, owner, h.1 "B" _ owner, by decide +kernel, h.2.2.2.1, listed, unlisted,
    h.2.2.2.2 added listed unlisted⟩

end Corpus

end CodeAtlas
