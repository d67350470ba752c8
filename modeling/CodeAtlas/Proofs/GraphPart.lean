import CodeAtlas.Proofs.EdgeListing

/-!
# Parts of a graph

`Graph.PartOf` compares two graphs: one has some of the vertices of the other, and of its edges just
those that pass a test. Then the listing of the part is the listing of the whole with the other
edges left out. Places of vertices shift and groups of edges shrink, but no two edges that stay
change their order.

Growing the two side by side keeps them so, as long as the test does not look at spellings and both
graphs agree on which of the tested edges join vertices.
-/
namespace CodeAtlas

/-- Neither end of the edge is the file. -/
def Edge.avoids (e : Edge) (p : Path) : Bool :=
  !e.source.same p && !e.target.same p

theorem Edge.avoids_iff {e : Edge} {p : Path} :
    e.avoids p = true ↔ ¬ e.source.same p ∧ ¬ e.target.same p := by
  simp [avoids]

theorem Edge.avoids_congr {a b : Edge} (h : a.same b = true) (p : Path) :
    a.avoids p = b.avoids p := by
  obtain ⟨hs, ht, -⟩ := Edge.same_iff.mp h
  rw [avoids, avoids, Path.same_congr hs (Path.same_refl p), Path.same_congr ht (Path.same_refl p)]

namespace Graph

variable {part whole : Graph} {keep : Edge → Bool}

/-- Some vertices of a graph, and of its edges those that are kept. -/
structure PartOf (keep : Edge → Bool) (part whole : Graph) : Prop where
  vertices : part.vertices.Sublist whole.vertices
  edges : part.edges = whole.edges.filter keep

/-! ## Listing a part -/

theorem WellFormed.vertex_eq_of_same {g : Graph} (h : g.WellFormed) {v w : Vertex}
    (hv : v ∈ g.vertices) (hw : w ∈ g.vertices) (hs : v.path.same w.path = true) : v = w := by
  have found_v : g.vertex? w.path = some v := h.vertex?_eq_some_iff.mpr ⟨hv, hs⟩
  have found_w : g.vertex? w.path = some w := h.vertex?_eq_some_iff.mpr ⟨hw, Path.same_refl _⟩
  exact Option.some.inj (found_v.symm.trans found_w)

/-- Both sides hold the same edges in a strict order, which leaves one way to list them. -/
theorem PartOf.outgoing_eq (h : PartOf keep part whole) (hp : part.WellFormed)
    (hw : whole.WellFormed) (p : Path) : part.outgoing p = (whole.outgoing p).filter keep := by
  have selected : (part.edges.filter fun e => e.source.same p) =
      (whole.edges.filter fun e => e.source.same p).filter keep := by
    rw [h.edges, List.filter_comm]
  have perm : (part.outgoing p).Perm ((whole.outgoing p).filter keep) := by
    refine (List.mergeSort_perm _ _).trans ?_
    rw [selected]
    exact ((List.mergeSort_perm _ _).filter _).symm
  exact Edge.eq_of_perm_of_increasing perm (hp.outgoing_increasing p)
    ((hw.outgoing_increasing p).filter _)

theorem PartOf.outgoing_of_not_mem (h : PartOf keep part whole) (hp : part.WellFormed)
    (hw : whole.WellFormed) {v : Vertex} (hv : v ∈ whole.vertices) (hn : v ∉ part.vertices) :
    part.outgoing v.path = [] := by
  refine List.eq_nil_iff_forall_not_mem.mpr fun e he => ?_
  obtain ⟨hm, hs⟩ := mem_outgoing.mp he
  obtain ⟨w, hw', hs'⟩ := hasVertex_iff.mp (hp.edges_join e hm).source
  have same : w = v := hw.vertex_eq_of_same (h.vertices.subset hw') hv (Path.same_trans hs' hs)
  exact hn (same ▸ hw')

/-- Vertices that give nothing can be left out of a listing. -/
theorem flatMap_eq_of_sublist {vs ws : List Vertex} {f : Vertex → List Edge} (h : vs.Sublist ws)
    (distinct : ws.Nodup) (nothing : ∀ v ∈ ws, v ∉ vs → f v = []) :
    vs.flatMap f = ws.flatMap f := by
  induction h with
  | slnil => rfl
  | cons v hsub ih =>
    obtain ⟨hv, hd⟩ := List.nodup_cons.mp distinct
    have none_of_v : f v = [] := nothing v List.mem_cons_self fun hm => hv (hsub.subset hm)
    rw [List.flatMap_cons, none_of_v, List.nil_append]
    exact ih hd fun w hw => nothing w (List.mem_cons_of_mem _ hw)
  | cons_cons v hsub ih =>
    obtain ⟨hv, hd⟩ := List.nodup_cons.mp distinct
    rw [List.flatMap_cons, List.flatMap_cons]
    congr 1
    refine ih hd fun w hw hn => nothing w (List.mem_cons_of_mem _ hw) fun hm => ?_
    rcases List.mem_cons.mp hm with rfl | hm
    · exact hv hw
    · exact hn hm

theorem WellFormed.vertices_nodup {g : Graph} (h : g.WellFormed) : g.vertices.Nodup := by
  refine h.vertices_distinct.imp ?_
  intro v w hd heq
  subst heq
  exact hd (Path.same_refl _)

/-- A part is listed as the whole is, without the edges that are not kept. -/
theorem PartOf.orderedEdges_eq (h : PartOf keep part whole) (hp : part.WellFormed)
    (hw : whole.WellFormed) : part.orderedEdges = whole.orderedEdges.filter keep := by
  have everywhere : part.orderedEdges = whole.vertices.flatMap fun v => part.outgoing v.path :=
    flatMap_eq_of_sublist h.vertices hw.vertices_nodup fun v hv hn =>
      h.outgoing_of_not_mem hp hw hv hn
  rw [everywhere, orderedEdges, List.filter_flatMap]
  simp only [h.outgoing_eq hp hw]

/-! ## Growing a part with the whole -/

/-- A stored edge is of the same triple as a kept one only if it is kept. -/
theorem hasEdge_of_edges_filter (same_kept : ∀ a b : Edge, a.same b → keep a = keep b)
    (edges : part.edges = whole.edges.filter keep) {e : Edge} (he : keep e = true) :
    part.hasEdge e = whole.hasEdge e := by
  rw [Bool.eq_iff_iff, hasEdge_iff, hasEdge_iff, edges]
  constructor
  · intro hh
    obtain ⟨a, ha, hs⟩ := hh
    exact ⟨a, List.mem_of_mem_filter ha, hs⟩
  · intro hh
    obtain ⟨a, ha, hs⟩ := hh
    exact ⟨a, List.mem_filter.mpr ⟨ha, (same_kept a e hs).trans he⟩, hs⟩

/-- One more edge, given to the whole in any case and to the part if it is kept. -/
theorem addEdge_edges_filter (same_kept : ∀ a b : Edge, a.same b → keep a = keep b)
    (edges : part.edges = whole.edges.filter keep) (e : Edge)
    (joins : keep e = true → (part.Joins e ↔ whole.Joins e)) :
    (if keep e then (part.addEdge e).1 else part).edges =
      (whole.addEdge e).1.edges.filter keep := by
  cases he : keep e with
  | false =>
    by_cases ha : whole.accepts e = true
    · rw [addEdge_of_accepts ha, List.filter_append, ← edges]
      simp [he]
    · rw [addEdge_of_not_accepts ha, ← edges]
      rfl
  | true =>
    have accepted : part.accepts e = true ↔ whole.accepts e = true := by
      rw [accepts_iff, accepts_iff, joins he, hasEdge_of_edges_filter same_kept edges he]
    rw [if_pos rfl]
    by_cases ha : whole.accepts e = true
    · rw [addEdge_of_accepts ha, addEdge_of_accepts (accepted.mpr ha), List.filter_append, ← edges]
      simp [he]
    · rw [addEdge_of_not_accepts ha, addEdge_of_not_accepts fun hp => ha (accepted.mp hp), edges]

theorem addEdges_edges_filter (same_kept : ∀ a b : Edge, a.same b → keep a = keep b)
    (edges : part.edges = whole.edges.filter keep) (es : List Edge)
    (joins : ∀ e ∈ es, keep e = true → (part.Joins e ↔ whole.Joins e)) :
    (part.addEdges (es.filter keep)).edges = (whole.addEdges es).edges.filter keep := by
  induction es generalizing part whole with
  | nil => exact edges
  | cons e es ih =>
    have step := addEdge_edges_filter same_kept edges e (joins e List.mem_cons_self)
    rw [addEdges_cons]
    cases he : keep e with
    | false =>
      rw [he] at step
      rw [List.filter_cons_of_neg (by simp [he])]
      refine ih step fun a ha hk => ?_
      rw [joins_addEdge]
      exact joins a (List.mem_cons_of_mem _ ha) hk
    | true =>
      rw [he, if_pos rfl] at step
      rw [List.filter_cons_of_pos he, addEdges_cons]
      refine ih step fun a ha hk => ?_
      rw [joins_addEdge, joins_addEdge]
      exact joins a (List.mem_cons_of_mem _ ha) hk

theorem PartOf.addEdges (h : PartOf keep part whole)
    (same_kept : ∀ a b : Edge, a.same b → keep a = keep b) (es : List Edge)
    (joins : ∀ e ∈ es, keep e = true → (part.Joins e ↔ whole.Joins e)) :
    PartOf keep (part.addEdges (es.filter keep)) (whole.addEdges es) := by
  refine ⟨?_, addEdges_edges_filter same_kept h.edges es joins⟩
  rw [addEdges_vertices, addEdges_vertices]
  exact h.vertices

end Graph

end CodeAtlas
