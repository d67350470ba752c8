import CodeAtlas.Graph.Builder
import CodeAtlas.Proofs.EdgeListing

/-!
# Builders and the graphs they stand for

A builder keeps one graph in four structures: vertices, edges with the places of their ends, places
by path, and the set of edges seen. `GraphBuilder.Represents` says what each of them has to answer
about one plain graph. A call to the builder gives the answer that the plain graph gives to it, and
the builder represents the plain graph after it; so the four stay in step along every run, and what
is known of the plain graphs of runs holds of builders.

The set of edges is searched by order, the places are looked up by path, and a plain graph compares
by sameness. That these agree rests on paths and edges tying in the order exactly when they are the
same.
-/
namespace CodeAtlas

namespace Edge

variable {a b : Edge}

theorem cmp_eq_compareLex :
    cmp = compareLex (fun a b : Edge => a.source.cmp b.source) cmpTargetLabel := rfl

instance : Std.TransCmp fun a b : Edge => a.source.cmp b.source where
  eq_swap := Std.OrientedCmp.eq_swap
  isLE_trans := Std.TransCmp.isLE_trans

instance : Std.TransCmp cmp := by
  rw [cmp_eq_compareLex]
  infer_instance

theorem cmp_eq_eq_iff : a.cmp b = .eq ↔ a.same b = true := by
  rw [cmp, Ordering.then_eq_eq, Path.cmp_eq_eq_iff, same_iff, ← cmpTargetLabel_eq_eq_iff]
  rfl

end Edge

/-! ## Sets of edges -/

namespace EdgeSet

variable {s : EdgeSet} {a e : Edge}

def Increasing (s : EdgeSet) : Prop :=
  s.Pairwise fun a b => a.cmp b = .lt

/-- In an increasing list the search may stop at the first edge that is too large. -/
theorem contains_iff (h : s.Increasing) : s.contains e = true ↔ ∃ a ∈ s, a.same e = true := by
  induction s with
  | nil => simp [contains]
  | cons b s ih =>
    obtain ⟨hb, hs⟩ := List.pairwise_cons.mp h
    rw [contains]
    cases compared : e.cmp b with
    | lt =>
      have larger : ∀ a ∈ b :: s, e.cmp a = .lt := by
        intro a ha
        rcases List.mem_cons.mp ha with rfl | ha
        · exact compared
        · exact Std.TransCmp.lt_trans compared (hb a ha)
      simp only [Bool.false_eq_true, false_iff]
      rintro ⟨a, ha, same⟩
      have tie := Edge.cmp_eq_eq_iff.mpr (Edge.same_symm same)
      rw [larger a ha] at tie
      cases tie
    | eq => simp [Edge.same_symm (Edge.cmp_eq_eq_iff.mp compared)]
    | gt =>
      have apart : b.same e = false := by
        refine Bool.eq_false_iff.mpr fun same => ?_
        rw [Edge.cmp_eq_eq_iff.mpr (Edge.same_symm same)] at compared
        cases compared
      simp [ih hs, apart]

theorem mem_of_mem_insert (h : a ∈ s.insert e) : a = e ∨ a ∈ s := by
  induction s with
  | nil => exact .inl (List.mem_singleton.mp h)
  | cons b s ih =>
    rw [insert] at h
    split at h
    · exact List.mem_cons.mp h
    · exact .inr h
    · rcases List.mem_cons.mp h with rfl | h
      · exact .inr List.mem_cons_self
      · exact (ih h).imp_right (List.mem_cons_of_mem _)

theorem Increasing.insert (h : s.Increasing) (e : Edge) : (s.insert e).Increasing := by
  induction s with
  | nil => exact List.pairwise_singleton ..
  | cons b s ih =>
    obtain ⟨hb, hs⟩ := List.pairwise_cons.mp h
    rw [EdgeSet.insert]
    cases compared : e.cmp b with
    | lt =>
      refine List.pairwise_cons.mpr ⟨fun a ha => ?_, h⟩
      rcases List.mem_cons.mp ha with rfl | ha
      · exact compared
      · exact Std.TransCmp.lt_trans compared (hb a ha)
    | eq => exact h
    | gt =>
      refine List.pairwise_cons.mpr ⟨fun a ha => ?_, ih hs⟩
      rcases mem_of_mem_insert ha with rfl | ha
      · exact Std.OrientedCmp.lt_of_gt compared
      · exact hb a ha

/-- Of an edge that is not in the set, inserting adds just that edge. -/
theorem mem_insert_of_not_contains (h : s.contains e = false) : a ∈ s.insert e ↔ a = e ∨ a ∈ s := by
  induction s with
  | nil => exact List.mem_cons
  | cons b s ih =>
    rw [contains] at h
    rw [insert]
    cases compared : e.cmp b with
    | lt => exact List.mem_cons
    | eq =>
      rw [compared] at h
      cases h
    | gt =>
      rw [compared] at h
      rw [List.mem_cons, ih h, List.mem_cons, or_left_comm]

end EdgeSet

/-! ## Places in a plain graph -/

namespace Graph

variable {g : Graph} {p q : Path}

theorem index?_isSome : (g.index? p).isSome = g.hasVertex p := by
  rw [index?, hasVertex, List.findIdx?_isSome]

theorem index?_eq_none_iff : g.index? p = none ↔ g.hasVertex p = false := by
  rw [← index?_isSome, Option.isSome_eq_false_iff, Option.isNone_iff_eq_none]

theorem index?_append (v : Vertex) : index? { g with vertices := g.vertices ++ [v] } p =
    (g.index? p).or (if v.path.same p then some g.vertices.length else none) := by
  rw [index?, index?, List.findIdx?_append]
  cases same : v.path.same p <;> simp [List.findIdx?_cons, same]

/-- Two paths have one place exactly when they are the same. -/
theorem WellFormed.index?_eq_iff (h : g.WellFormed) {i j : Nat} (hp : g.index? p = some i)
    (hq : g.index? q = some j) : i = j ↔ p.same q = true := by
  obtain ⟨v, hv, hvp⟩ := h.index?_eq_some_iff.mp hp
  constructor
  · rintro rfl
    obtain ⟨w, hw, hwq⟩ := h.index?_eq_some_iff.mp hq
    cases hv.symm.trans hw
    exact Path.same_trans (Path.same_symm hvp) hwq
  · intro same
    have again := h.index?_eq_some_iff.mpr ⟨v, hv, Path.same_trans hvp same⟩
    exact Option.some.inj (again.symm.trans hq)

end Graph

/-! ## The simulation -/

namespace GraphBuilder

variable {b : GraphBuilder} {g : Graph}

/-- The four structures of a builder answer for one plain graph. -/
structure Represents (b : GraphBuilder) (g : Graph) : Prop where
  plain : b.graph.plain = g
  places : ∀ p, b.index? p = g.index? p
  ends : ∀ l ∈ b.graph.links, g.index? l.edge.source = some l.source ∧
    g.index? l.edge.target = some l.target
  seen : ∀ e, e ∈ b.seen ↔ e ∈ g.edges
  increasing : b.seen.Increasing

theorem represents_empty : Represents {} {} where
  plain := rfl
  places _ := rfl
  ends := by simp
  seen _ := Iff.rfl
  increasing := .nil

theorem Represents.contains_seen (h : b.Represents g) (e : Edge) :
    b.seen.contains e = g.hasEdge e := by
  rw [Bool.eq_iff_iff, EdgeSet.contains_iff h.increasing, Graph.hasEdge_iff]
  simp only [h.seen]

theorem Represents.vertices (h : b.Represents g) : b.graph.vertices = g.vertices :=
  congrArg Graph.vertices h.plain

theorem Represents.edges (h : b.Represents g) : b.graph.edges = g.edges :=
  congrArg Graph.edges h.plain

theorem Represents.length_links (h : b.Represents g) : b.graph.links.length = g.edges.length := by
  rw [← h.edges, IndexedGraph.edges, List.length_map]

/-- What a builder does about a vertex is what the plain graph does. -/
theorem Represents.addVertex (h : b.Represents g) (v : Vertex) :
    (b.addVertex v).1.Represents (g.addVertex v).1 ∧ (b.addVertex v).2 = (g.addVertex v).2 := by
  rw [GraphBuilder.addVertex, Graph.addVertex, h.places]
  cases found : g.index? v.path with
  | some i => exact ⟨h, rfl⟩
  | none =>
    dsimp only
    refine ⟨⟨?_, ?_, ?_, h.seen, h.increasing⟩, by rw [h.vertices]⟩
    · rw [IndexedGraph.plain]
      dsimp only
      rw [h.vertices, ← h.edges]
      rfl
    · intro p
      rw [Graph.index?_append, ← h.places p, index?, index?]
      dsimp only
      rw [PathMap.insert, PathMap.get?_alter, h.vertices]
      cases same : v.path.same p with
      | false => simp
      | true =>
        have absent : b.graph.places.get? p = none := by
          rw [← PathMap.get?_congr _ same]
          exact (h.places v.path).trans found
        simp [absent]
    · intro l hl
      obtain ⟨source, target⟩ := h.ends l hl
      rw [Graph.index?_append, Graph.index?_append, source, target]
      exact ⟨rfl, rfl⟩

/-- What a builder does about an edge is what the plain graph does. In particular the set of edges
is changed only after all checks. -/
theorem Represents.addEdge (h : b.Represents g) (e : Edge) :
    (b.addEdge e).1.Represents (g.addEdge e).1 ∧ (b.addEdge e).2 = (g.addEdge e).2 := by
  have refuses (refused : ¬ g.accepts e = true) : b.Represents (g.addEdge e).1 ∧
      none = (g.addEdge e).2 := by
    rw [Graph.addEdge_of_not_accepts refused]
    exact ⟨h, rfl⟩
  rw [GraphBuilder.addEdge, h.contains_seen, h.places, h.places]
  split
  next known =>
    refine refuses fun accepted => ?_
    obtain ⟨joins, new⟩ := Graph.accepts_iff.mp accepted
    rcases Bool.or_eq_true _ _ ▸ known with loop | stored
    · exact joins.no_loop loop
    · exact new stored
  next unknown =>
    obtain ⟨no_loop, new⟩ : e.source.same e.target = false ∧ g.hasEdge e = false := by
      simpa using unknown
    cases source : g.index? e.source with
    | none =>
      refine refuses fun accepted => ?_
      exact absurd (Graph.accepts_iff.mp accepted).1.source
        (by simp [Graph.index?_eq_none_iff.mp source])
    | some i =>
      cases target : g.index? e.target with
      | none =>
        refine refuses fun accepted => ?_
        exact absurd (Graph.accepts_iff.mp accepted).1.target
          (by simp [Graph.index?_eq_none_iff.mp target])
      | some j =>
        have accepted : g.accepts e = true := by
          refine Graph.accepts_iff.mpr ⟨⟨by simp [no_loop], ?_, ?_⟩, by simp [new]⟩
          · rw [← Graph.index?_isSome, source, Option.isSome_some]
          · rw [← Graph.index?_isSome, target, Option.isSome_some]
        rw [Graph.addEdge_of_accepts accepted]
        refine ⟨⟨?_, h.places, ?_, ?_, h.increasing.insert e⟩, congrArg some h.length_links⟩
        · rw [IndexedGraph.plain, IndexedGraph.edges]
          dsimp only
          rw [List.map_append, ← IndexedGraph.edges, h.edges, h.vertices]
          rfl
        · intro l hl
          rcases List.mem_append.mp hl with hl | hl
          · exact h.ends l hl
          · rw [List.mem_singleton.mp hl]
            exact ⟨source, target⟩
        · intro a
          rw [EdgeSet.mem_insert_of_not_contains ((h.contains_seen e).trans new), h.seen,
            List.mem_append, List.mem_singleton, or_comm]

def step (b : GraphBuilder) : Graph.Call → GraphBuilder
  | .vertex v => (b.addVertex v).1
  | .edge e => (b.addEdge e).1

def steps (b : GraphBuilder) (calls : List Graph.Call) : GraphBuilder :=
  calls.foldl step b

/-- The builder that calls make from nothing. -/
def run (calls : List Graph.Call) : GraphBuilder :=
  steps {} calls

theorem Represents.step (h : b.Represents g) (c : Graph.Call) :
    (b.step c).Represents (g.step c) := by
  cases c with
  | vertex v => exact (h.addVertex v).1
  | edge e => exact (h.addEdge e).1

theorem Represents.steps (h : b.Represents g) (calls : List Graph.Call) :
    (b.steps calls).Represents (g.steps calls) := by
  induction calls generalizing b g with
  | nil => exact h
  | cons c calls ih => exact ih (h.step c)

theorem represents_run (calls : List Graph.Call) : (run calls).Represents (Graph.run calls) :=
  represents_empty.steps calls

theorem Represents.addVertices (h : b.Represents g) (vs : List Vertex) :
    (b.addVertices vs).Represents (g.addVertices vs) := by
  induction vs generalizing b g with
  | nil => exact h
  | cons v vs ih => exact ih (h.addVertex v).1

theorem Represents.addEdges (h : b.Represents g) (es : List Edge) :
    (b.addEdges es).Represents (g.addEdges es) := by
  induction es generalizing b g with
  | nil => exact h
  | cons e es ih => exact ih (h.addEdge e).1

theorem plain_build (vs : List Vertex) (es : List Edge) :
    ((GraphBuilder.addVertices {} vs).addEdges es).build.plain =
      (Graph.addVertices {} vs).addEdges es :=
  ((represents_empty.addVertices vs).addEdges es).plain

/-! ## What a builder answers -/

theorem Represents.vertex? (h : b.Represents g) (p : Path) : b.build.vertex? p = g.vertex? p := by
  have place : b.build.places.get? p = g.index? p := h.places p
  have vertices : b.build.vertices = g.vertices := h.vertices
  rw [IndexedGraph.vertex?, place, vertices, Graph.vertex?, List.find?_eq_bind_findIdx?_getElem?]
  rfl

/-- Under a place there are the edges whose source has that place, and sorting leaves no trace of
the order in which they were found. -/
theorem Represents.outgoing (h : b.Represents g) (well : g.WellFormed) (p : Path) :
    b.build.outgoing p = g.outgoing p := by
  have place : b.build.places.get? p = g.index? p := h.places p
  have edges : b.build.links.map Link.edge = g.edges := h.edges
  rw [IndexedGraph.outgoing, place]
  cases found : g.index? p with
  | none =>
    symm
    refine List.eq_nil_iff_forall_not_mem.mpr fun e he => ?_
    obtain ⟨hm, hs⟩ := Graph.mem_outgoing.mp he
    have vertex := (well.edges_join e hm).source
    rw [Graph.hasVertex_congr hs, Graph.index?_eq_none_iff.mp found] at vertex
    cases vertex
  | some i =>
    dsimp only
    have selected : (b.build.links.filter fun l => l.source = i).map Link.edge =
        g.edges.filter fun e => e.source.same p := by
      rw [← edges, List.filter_map]
      congr 1
      refine List.filter_congr fun l hl => ?_
      rw [Bool.eq_iff_iff, decide_eq_true_iff]
      exact well.index?_eq_iff (h.ends l hl).1 found
    have perm : ((b.build.links.reverse.filter fun l => l.source = i).map Link.edge).Perm
        (g.edges.filter fun e => e.source.same p) := by
      rw [← selected, List.filter_reverse, List.map_reverse]
      exact List.reverse_perm _
    have distinct := (perm.pairwise_iff fun hab hba => hab (Edge.same_symm hba)).mpr
      (well.edges_distinct.filter fun e => e.source.same p)
    refine Edge.eq_of_perm_of_increasing ?_ (Edge.mergeSort_increasing distinct fun a ha c hc => ?_)
      (well.outgoing_increasing p)
    · exact (List.mergeSort_perm _ _).trans (perm.trans (List.mergeSort_perm _ _).symm)
    · have source {a : Edge}
          (ha : a ∈ (b.build.links.reverse.filter fun l => l.source = i).map Link.edge) :=
        (List.mem_filter.mp (perm.mem_iff.mp ha)).2
      exact Path.same_trans (source ha) (Path.same_symm (source hc))

theorem Represents.orderedEdges (h : b.Represents g) (well : g.WellFormed) :
    b.build.orderedEdges = g.orderedEdges := by
  have vertices : b.build.vertices = g.vertices := h.vertices
  rw [IndexedGraph.orderedEdges, vertices, Graph.orderedEdges]
  simp only [h.outgoing well]

theorem Represents.hasEdge (h : b.Represents g) (e : Edge) : b.build.hasEdge e = g.hasEdge e :=
  congrArg (fun edges => edges.any e.same) h.edges

/-! ## Every run -/

/-- A builder that refuses an edge is left as it was, in all of its parts. -/
theorem addEdge_of_none {e : Edge} (refused : (b.addEdge e).2 = none) : (b.addEdge e).1 = b := by
  unfold addEdge at refused ⊢
  split
  · rfl
  next unknown =>
    rw [if_neg unknown] at refused
    cases source : b.index? e.source with
    | none => rfl
    | some i =>
      cases target : b.index? e.target with
      | none => rfl
      | some j =>
        rw [source, target] at refused
        cases refused

/-- What is true of a builder after calls. -/
structure RunLaws (calls : List Graph.Call) (b : GraphBuilder) : Prop where
  /-- The vertices are those asked for, in order, without the later ones of a path. -/
  vertices_first : b.build.vertices = (calls.filterMap Graph.Call.vertex?).eraseDupsBy fun v w =>
    v.path.same w.path
  vertices_distinct : b.build.vertices.Pairwise fun v w => ¬ v.path.same w.path
  index_finds : ∀ p i, b.index? p = some i ↔ ∃ v, b.build.vertices[i]? = some v ∧ v.path.same p
  vertex_finds : ∀ p v, b.build.vertex? p = some v ↔ v ∈ b.build.vertices ∧ v.path.same p
  /-- A vertex of a path that is there is answered with its place, and changes nothing. -/
  addVertex_known : ∀ v i, b.index? v.path = some i → b.addVertex v = (b, i)
  addVertex_new : ∀ v, b.index? v.path = none → (b.addVertex v).2 = b.build.vertices.length ∧
    (b.addVertex v).1.build.vertices = b.build.vertices ++ [v]
  links_ends : ∀ l ∈ b.build.links,
    b.index? l.edge.source = some l.source ∧ b.index? l.edge.target = some l.target
  seen_stored : ∀ e, b.seen.contains e ↔ ∃ e' ∈ b.build.edges, e'.same e
  edges_no_loop : ∀ e ∈ b.build.edges, ¬ e.source.same e.target
  edges_ends : ∀ e ∈ b.build.edges, (b.index? e.source).isSome ∧ (b.index? e.target).isSome
  edges_distinct : b.build.edges.Pairwise fun a b => ¬ a.same b
  addEdge_answer : ∀ e i, (b.addEdge e).2 = some i ↔
    (¬ e.source.same e.target ∧ ((b.index? e.source).isSome ∧ (b.index? e.target).isSome) ∧
      ∀ e' ∈ b.build.edges, ¬ e'.same e) ∧ i = b.build.edges.length
  addEdge_stored : ∀ e i, (b.addEdge e).2 = some i →
    (b.addEdge e).1.build.vertices = b.build.vertices ∧ (b.addEdge e).1.build.edges =
      b.build.edges ++ [e]
  addEdge_refused : ∀ e, (b.addEdge e).2 = none → (b.addEdge e).1 = b
  /-- An edge refused for want of a vertex is accepted later, after any calls for other triples that
  leave both of its ends among the vertices. -/
  addEdge_again : ∀ e more, ¬ e.source.same e.target →
    ¬ ((b.index? e.source).isSome ∧ (b.index? e.target).isSome) →
    (∀ e', .edge e' ∈ more → ¬ e'.same e) →
    let later := (b.addEdge e).1.steps more
    (later.index? e.source).isSome → (later.index? e.target).isSome →
      (b.addEdge e).2 = none ∧ (later.addEdge e).2 = some later.build.edges.length
  listing_complete : b.build.orderedEdges.Perm b.build.edges
  listing_length : b.build.orderedEdges.length = b.build.edges.length
  listing_once : ∀ e ∈ b.build.edges, b.build.orderedEdges.countP e.same = 1
  /-- Edges are listed by the place of their source, and under one source by target and label. -/
  listing_increasing : b.build.orderedEdges.Pairwise fun e f =>
    ∃ i j, b.index? e.source = some i ∧ b.index? f.source = some j ∧
      (i < j ∨ i = j ∧ e.cmpTargetLabel f = .lt)
  hasEdge_stored : ∀ s t l, b.build.hasEdge ⟨s, t, l⟩ ↔
    ∃ e ∈ b.build.edges, e.source.same s ∧ e.target.same t ∧ e.label = l
  /-- An edge is there exactly when one of the calls for its triple was answered with a place. -/
  hasEdge_called : ∀ e, b.build.hasEdge e ↔ ∃ before e' after, calls = before ++ .edge e' :: after ∧
    ((run before).addEdge e').2.isSome ∧ e'.same e

theorem run_lawful (calls : List Graph.Call) : RunLaws calls (run calls) := by
  have represents := represents_run calls
  have well := Graph.wellFormed_run calls
  have vertices : (run calls).build.vertices = (Graph.run calls).vertices := represents.vertices
  have edges : (run calls).build.edges = (Graph.run calls).edges := represents.edges
  have places := represents.places
  have found {p : Path} : ((run calls).index? p).isSome = (Graph.run calls).hasVertex p := by
    rw [places, Graph.index?_isSome]
  have answer {e : Edge} : ((run calls).addEdge e).2 = ((Graph.run calls).addEdge e).2 :=
    (represents.addEdge e).2
  refine {
    vertices_first := vertices.trans (Graph.vertices_run calls)
    vertices_distinct := vertices ▸ well.vertices_distinct
    index_finds := fun p i => by rw [places, vertices, well.index?_eq_some_iff]
    vertex_finds := fun p v => by rw [represents.vertex?, vertices, well.vertex?_eq_some_iff]
    addVertex_known := fun v i known => by rw [addVertex, known]
    addVertex_new := fun v new => by
      rw [addVertex, new]
      exact ⟨rfl, rfl⟩
    links_ends := fun l hl => by
      rw [places, places]
      exact represents.ends l hl
    seen_stored := fun e => by rw [represents.contains_seen, Graph.hasEdge_iff, edges]
    edges_no_loop := fun e he => (well.edges_join e (edges ▸ he)).no_loop
    edges_ends := fun e he => by
      rw [found, found]
      exact ⟨(well.edges_join e (edges ▸ he)).source, (well.edges_join e (edges ▸ he)).target⟩
    edges_distinct := edges ▸ well.edges_distinct
    addEdge_answer := ?answer
    addEdge_stored := ?stored
    addEdge_refused := fun e => addEdge_of_none
    addEdge_again := ?again
    listing_complete := ?complete
    listing_length := ?length
    listing_once := ?once
    listing_increasing := ?increasing
    hasEdge_stored := ?has
    hasEdge_called := ?called }
  case answer =>
    intro e i
    rw [answer, found, found, edges, Graph.addEdge_eq_some_iff, Graph.hasEdge_iff]
    constructor
    · rintro ⟨⟨hl, hs, ht⟩, hn, hi⟩
      exact ⟨⟨hl, ⟨hs, ht⟩, fun e' he' hs' => hn ⟨e', he', hs'⟩⟩, hi⟩
    · rintro ⟨⟨hl, ⟨hs, ht⟩, hn⟩, hi⟩
      exact ⟨⟨hl, hs, ht⟩, fun ⟨e', he', hs'⟩ => hn e' he' hs', hi⟩
  case stored =>
    intro e i accepted
    have after := (represents.addEdge e).1
    have kept : ((run calls).addEdge e).1.build.vertices =
      ((Graph.run calls).addEdge e).1.vertices := after.vertices
    have added : ((run calls).addEdge e).1.build.edges = ((Graph.run calls).addEdge e).1.edges :=
      after.edges
    have accepts : (Graph.run calls).accepts e = true := by
      rw [← Graph.addEdge_isSome, ← answer, accepted, Option.isSome_some]
    rw [kept, added, vertices, edges, Graph.addEdge_of_accepts accepts]
    exact ⟨rfl, rfl⟩
  case again =>
    intro e more hl lacking others later hs ht
    have after : later.Represents (((Graph.run calls).addEdge e).1.steps more) :=
      (represents.addEdge e).1.steps more
    rw [found, found] at lacking
    rw [after.places, Graph.index?_isSome] at hs ht
    refine ⟨?_, ?_⟩
    · rw [answer]
      refine Option.eq_none_iff_forall_ne_some.mpr fun i hi => ?_
      have joins := (Graph.addEdge_eq_some_iff.mp hi).1
      exact lacking ⟨joins.source, joins.target⟩
    · have length : later.build.edges = (((Graph.run calls).addEdge e).1.steps more).edges :=
        after.edges
      rw [(after.addEdge e).2, length, well.addEdge_again lacking others ⟨hl, hs, ht⟩]
  case complete =>
    rw [represents.orderedEdges well, edges]
    exact well.orderedEdges_perm
  case length =>
    rw [represents.orderedEdges well, edges]
    exact well.orderedEdges_perm.length_eq
  case once =>
    intro e he
    rw [edges] at he
    rw [represents.orderedEdges well, well.countP_orderedEdges,
      if_pos (Graph.hasEdge_iff.mpr ⟨e, he, Edge.same_refl e⟩)]
  case increasing =>
    rw [represents.orderedEdges well]
    simp only [places]
    exact well.orderedEdges_increasing
  case has =>
    intro s t l
    simp only [represents.hasEdge, edges, Graph.hasEdge_iff, Edge.same_iff]
  case called =>
    intro e
    have asked {before : List Graph.Call} {e' : Edge} :
        ((run before).addEdge e').2 = ((Graph.run before).addEdge e').2 :=
      ((represents_run before).addEdge e').2
    rw [represents.hasEdge, Graph.run, Graph.hasEdge_steps]
    simp [Graph.hasEdge, asked, Graph.run]

end GraphBuilder

end CodeAtlas
