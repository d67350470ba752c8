import CodeAtlas.Graph.Compact
import CodeAtlas.Graph.Dot
import CodeAtlas.Proofs.GraphBuilding
import Mathlib.Data.List.Forall2

/-!
# Rendering does not show how a graph was built

Two graphs with the same vertices and the same edges, up to spelling, list these edges alike. No two
edges tie in the order of a listing, so that the order in which they were stored leaves no trace in
it. What does leave one is the spelling of a path: of equal triples the first that was asked for is
stored.

The compact document names files by their places and cannot show that spelling. The DOT text writes
the ends of an edge as they are stored, so it is the same only for edges that are spelled alike.
-/
namespace CodeAtlas

namespace Edge

variable {a b c d : Edge}

/-- What an edge says, whatever the spelling of its ends. -/
def triple (e : Edge) : List Component × List Component × String :=
  (e.source.components, e.target.components, e.label)

theorem same_iff_triple : a.same b = true ↔ a.triple = b.triple := by
  simp [same_iff, Path.same_iff, triple]

theorem cmpTargetLabel_congr (hac : a.same c = true) (hbd : b.same d = true) :
    a.cmpTargetLabel b = c.cmpTargetLabel d := by
  obtain ⟨-, ht, hl⟩ := same_iff.mp hac
  obtain ⟨-, ht', hl'⟩ := same_iff.mp hbd
  rw [Path.same_iff] at ht ht'
  rw [cmpTargetLabel, cmpTargetLabel, Path.cmp, Path.cmp, ht, ht', hl, hl']

end Edge

namespace Graph

variable {g h : Graph}

theorem index?_congr {p q : Path} (hs : p.same q = true) : g.index? p = g.index? q := by
  unfold index?
  simp only [fun v : Vertex => Path.same_congr (Path.same_refl v.path) hs]

/-- The order of a listing is strict, also between other spellings of the two edges. -/
theorem Precedes.not_precedes {a b c d : Edge} (hab : g.Precedes a b) (hac : a.same c = true)
    (hbd : b.same d = true) : ¬ g.Precedes d c := by
  intro hdc
  obtain ⟨i, j, hi, hj, hlt⟩ := hab
  obtain ⟨j', i', hj', hi', hlt'⟩ := hdc
  rw [index?_congr (Edge.same_iff.mp hac).1, hi'] at hi
  rw [index?_congr (Edge.same_iff.mp hbd).1, hj'] at hj
  cases hi
  cases hj
  rw [Edge.cmpTargetLabel_congr hac hbd] at hlt
  have swapped : d.cmpTargetLabel c = (c.cmpTargetLabel d).swap := Std.OrientedCmp.eq_swap
  rcases hlt with hlt | ⟨rfl, hlt⟩
  · rcases hlt' with hlt' | ⟨rfl, -⟩ <;> omega
  · rcases hlt' with hlt' | ⟨-, hlt'⟩
    · omega
    · rw [hlt, hlt'] at swapped
      cases swapped

theorem precedes_congr (vertices : g.vertices = h.vertices) : g.Precedes = h.Precedes := by
  funext a b
  unfold Precedes index?
  rw [vertices]

/-! ## Listings -/

theorem WellFormed.triples_nodup (hg : g.WellFormed) : (g.orderedEdges.map Edge.triple).Nodup := by
  refine List.pairwise_map.mpr (hg.orderedEdges_increasing.imp ?_)
  intro a b hab heq
  have hs : a.same b = true := Edge.same_iff_triple.mpr heq
  exact hab.not_precedes hs (Edge.same_symm hs) hab

theorem WellFormed.mem_triples (hg : g.WellFormed) {e : Edge} :
    e.triple ∈ g.orderedEdges.map Edge.triple ↔ g.hasEdge e = true := by
  rw [hasEdge_iff, List.mem_map]
  simp only [hg.mem_orderedEdges, Edge.same_iff_triple]

/-- Both listings hold each triple once and in one strict order. -/
theorem map_triple_orderedEdges_eq (hg : g.WellFormed) (hh : h.WellFormed)
    (vertices : g.vertices = h.vertices) (edges : ∀ e, g.hasEdge e = h.hasEdge e) :
    g.orderedEdges.map Edge.triple = h.orderedEdges.map Edge.triple := by
  have perm : (g.orderedEdges.map Edge.triple).Perm (h.orderedEdges.map Edge.triple) := by
    refine (List.perm_ext_iff_of_nodup hg.triples_nodup hh.triples_nodup).mpr fun t => ?_
    constructor
    · intro ht
      obtain ⟨e, -, rfl⟩ := List.mem_map.mp ht
      rw [hg.mem_triples, edges] at ht
      exact hh.mem_triples.mpr ht
    · intro ht
      obtain ⟨e, -, rfl⟩ := List.mem_map.mp ht
      rw [hh.mem_triples, ← edges] at ht
      exact hg.mem_triples.mpr ht
  -- one triple comes before another when some edges that say them do
  have increasing : ∀ k : Graph, k.WellFormed → k.Precedes = g.Precedes →
      (k.orderedEdges.map Edge.triple).Pairwise fun s t =>
        ∃ a b : Edge, a.triple = s ∧ b.triple = t ∧ g.Precedes a b := by
    intro k hk hp
    refine List.pairwise_map.mpr (hk.orderedEdges_increasing.imp ?_)
    intro a b hab
    exact ⟨a, b, rfl, rfl, hp ▸ hab⟩
  refine List.Perm.eq_of_pairwise ?_ (increasing g hg rfl)
    (increasing h hh (precedes_congr vertices).symm) perm
  intro s t _ _ hst hts
  obtain ⟨a, b, ha, hb, hab⟩ := hst
  obtain ⟨d, c, hd, hc, hdc⟩ := hts
  have hac : a.same c = true := Edge.same_iff_triple.mpr (ha.trans hc.symm)
  have hbd : b.same d = true := Edge.same_iff_triple.mpr (hb.trans hd.symm)
  exact absurd hdc (hab.not_precedes hac hbd)

theorem forall₂_same_orderedEdges (hg : g.WellFormed) (hh : h.WellFormed)
    (vertices : g.vertices = h.vertices) (edges : ∀ e, g.hasEdge e = h.hasEdge e) :
    List.Forall₂ (fun a b => a.same b = true) g.orderedEdges h.orderedEdges := by
  have triples : List.Forall₂ (· = ·) (g.orderedEdges.map Edge.triple)
      (h.orderedEdges.map Edge.triple) := by
    rw [List.forall₂_eq_eq_eq]
    exact map_triple_orderedEdges_eq hg hh vertices edges
  rw [List.forall₂_map_left_iff, List.forall₂_map_right_iff] at triples
  exact triples.imp fun a b heq => Edge.same_iff_triple.mpr heq

/-! ## Texts -/

theorem edgeItem?_congr (vertices : g.vertices = h.vertices) {a b : Edge} (hs : a.same b = true) :
    g.edgeItem? a = h.edgeItem? b := by
  obtain ⟨hsource, htarget, hlabel⟩ := Edge.same_iff.mp hs
  have places : ∀ p, g.index? p = h.index? p := by
    intro p
    rw [index?, index?, vertices]
  rw [edgeItem?, edgeItem?, index?_congr hsource, index?_congr htarget, hlabel, places, places]

theorem filterMap_edgeItem?_congr (vertices : g.vertices = h.vertices) {as bs : List Edge}
    (listing : List.Forall₂ (fun a b => a.same b = true) as bs) :
    as.filterMap g.edgeItem? = bs.filterMap h.edgeItem? := by
  induction listing with
  | nil => rfl
  | cons hs _ ih => rw [List.filterMap_cons, List.filterMap_cons, edgeItem?_congr vertices hs, ih]

theorem compactJson_eq (hg : g.WellFormed) (hh : h.WellFormed) (vertices : g.vertices = h.vertices)
    (listing : List.Forall₂ (fun a b => a.same b = true) g.orderedEdges h.orderedEdges)
    (full : Bool) :
    g.compactJson full = h.compactJson full := by
  have count : g.edges.length = h.edges.length := by
    rw [← hg.orderedEdges_perm.length_eq, ← hh.orderedEdges_perm.length_eq]
    exact listing.length_eq
  rw [compactJson, compactJson, edgeItems, filterMap_edgeItem?_congr vertices listing, vertices,
    count]
  rfl

/-- Listings of the same triples are the same if equal triples are spelled alike. -/
theorem eq_of_forall₂_same {as bs : List Edge}
    (listing : List.Forall₂ (fun a b => a.same b = true) as bs)
    (alike : ∀ a ∈ as, ∀ b ∈ bs, a.same b → a = b) : as = bs := by
  obtain ⟨length, zipped⟩ := List.forall₂_iff_zip.mp listing
  rw [← List.forall₂_eq_eq_eq]
  refine List.forall₂_iff_zip.mpr ⟨length, fun {a b} hab => ?_⟩
  obtain ⟨ha, hb⟩ := List.of_mem_zip hab
  exact alike a ha b hb (zipped hab)

/-- What is listed was asked for. -/
theorem mem_of_mem_orderedEdges_addEdges {vs : List Vertex} {es : List Edge} {e : Edge}
    (he : e ∈ ((addVertices {} vs).addEdges es).orderedEdges) : e ∈ es := by
  have stored := ((wellFormed_empty.addVertices vs).addEdges es).mem_orderedEdges.mp he
  simpa using (addEdges_edges_sublist es).subset stored

/-- Over the same vertices, edges of the same triples are listed and rendered alike, whatever their
order and however often they are repeated; in DOT, if equal triples are also spelled alike. -/
theorem rendering_canonical (vs : List Vertex) (es fs : List Edge)
    (covered : ∀ a ∈ es, ∃ b ∈ fs, a.same b) (covers : ∀ b ∈ fs, ∃ a ∈ es, a.same b) :
    let g := ((GraphBuilder.addVertices {} vs).addEdges es).build.plain
    let h := ((GraphBuilder.addVertices {} vs).addEdges fs).build.plain
    List.Forall₂ (fun a b => a.same b = true) g.orderedEdges h.orderedEdges ∧
      (∀ full, g.compactJson full = h.compactJson full) ∧
      ((∀ a ∈ es, ∀ b ∈ fs, a.same b → a = b) → ∀ name, g.dot name = h.dot name) := by
  rw [GraphBuilder.plain_build, GraphBuilder.plain_build]
  intro g h
  have hg : g.WellFormed := (wellFormed_empty.addVertices vs).addEdges es
  have hh : h.WellFormed := (wellFormed_empty.addVertices vs).addEdges fs
  have vertices : g.vertices = h.vertices := by
    rw [addEdges_vertices, addEdges_vertices]
  have asked : ∀ e, (∃ a ∈ es, a.same e = true) ↔ ∃ b ∈ fs, b.same e = true := by
    intro e
    constructor
    · intro he
      obtain ⟨a, ha, hs⟩ := he
      obtain ⟨b, hb, hab⟩ := covered a ha
      exact ⟨b, hb, Edge.same_trans (Edge.same_symm hab) hs⟩
    · intro he
      obtain ⟨b, hb, hs⟩ := he
      obtain ⟨a, ha, hab⟩ := covers b hb
      exact ⟨a, ha, Edge.same_trans hab hs⟩
  have edges : ∀ e, g.hasEdge e = h.hasEdge e := by
    intro e
    rw [Bool.eq_iff_iff, hasEdge_addEdges, hasEdge_addEdges, asked]
  have listing := forall₂_same_orderedEdges hg hh vertices edges
  refine ⟨listing, compactJson_eq hg hh vertices listing, fun alike name => ?_⟩
  have listed : g.orderedEdges = h.orderedEdges :=
    eq_of_forall₂_same listing fun a ha b hb => alike a (mem_of_mem_orderedEdges_addEdges ha) b
      (mem_of_mem_orderedEdges_addEdges hb)
  rw [dot, dot, listed]

/-- Edges in another order and repeated are rendered alike, and respelled ones only in the
document. -/
theorem rendering_canonical_of_two_edges :
    let vs : List Vertex := [⟨.ofText "src/a.gs", .loaded⟩, ⟨.ofText "b.gs", .failed⟩]
    let there : Edge := ⟨.ofText "src/a.gs", .ofText "b.gs", "B"⟩
    let back : Edge := ⟨.ofText "b.gs", .ofText "src/a.gs", "A"⟩
    let respelled : Edge := ⟨.ofText "b.gs", .ofText "src//a.gs", "A"⟩
    let built := fun es => ((GraphBuilder.addVertices {} vs).addEdges es).build.plain
    (∀ a ∈ [there, back], ∃ b ∈ [back, there, back], a.same b) ∧
      (∀ b ∈ [back, there, back], ∃ a ∈ [there, back], a.same b) ∧
      (∀ a ∈ [there, back], ∀ b ∈ [back, there, back], a.same b → a = b) ∧
      (built [there, back]).dot = (built [back, there, back]).dot ∧
      (built [there, back]).compactJson true = (built [respelled, there]).compactJson true ∧
      (built [there, back]).dot ≠ (built [respelled, there]).dot := by
  intro vs there back respelled built
  have covered : ∀ a ∈ [there, back], ∃ b ∈ [back, there, back], a.same b := by decide
  have covers : ∀ b ∈ [back, there, back], ∃ a ∈ [there, back], a.same b := by decide
  have alike : ∀ a ∈ [there, back], ∀ b ∈ [back, there, back], a.same b → a = b := by decide
  have repeated := rendering_canonical vs [there, back] [back, there, back] covered covers
  have other := rendering_canonical vs [there, back] [respelled, there] (by decide) (by decide)
  exact ⟨covered, covers, alike, repeated.2.2 alike _, other.2.1 true, by decide +kernel⟩

end Graph

end CodeAtlas
