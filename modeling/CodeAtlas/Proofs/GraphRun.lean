import CodeAtlas.Graph
import CodeAtlas.Proofs.PathOrder

/-!
# Graphs that grow by calls

A graph grows by two operations. A vertex is added unless its path is a vertex already. An edge is
added when it joins two different vertices and no edge of the same ends and label is there;
otherwise the graph stays as it is. These are the operations of a builder, read off the vertices and
edges alone; that a builder does the same is shown in `CodeAtlas.Proofs.GraphBuilding`.

A run is any finite sequence of calls that add a vertex or an edge, starting from the empty graph.
One step lemma for each call carries the invariant `Graph.WellFormed` along every run: vertices are
different files, edges are different triples, and every edge joins two different vertices. The
vertices of a run are those of its calls with later ones of the same path dropped, and an edge is
there exactly when one of the calls put it there.

Lookups are stated for well-formed graphs, where what they find is the only thing to find. How edges
are listed is left to `CodeAtlas.Proofs.EdgeListing`.
-/
namespace CodeAtlas

namespace Edge

variable {a b c : Edge}

theorem same_iff : a.same b = true ↔
    a.source.same b.source = true ∧ a.target.same b.target = true ∧ a.label = b.label := by
  simp [same, and_assoc]

@[simp] theorem same_refl (a : Edge) : a.same a = true := by
  simp [same]

theorem same_symm (h : a.same b = true) : b.same a = true := by
  rw [same_iff] at h ⊢
  exact ⟨Path.same_symm h.1, Path.same_symm h.2.1, h.2.2.symm⟩

theorem same_trans (h₁ : a.same b = true) (h₂ : b.same c = true) : a.same c = true := by
  rw [same_iff] at h₁ h₂ ⊢
  exact ⟨Path.same_trans h₁.1 h₂.1, Path.same_trans h₁.2.1 h₂.2.1, h₁.2.2.trans h₂.2.2⟩

theorem same_comm (a b : Edge) : a.same b = b.same a := by
  rw [Bool.eq_iff_iff]
  exact ⟨same_symm, same_symm⟩

end Edge

namespace Graph

/-- Adds a vertex unless its path is one, and returns the place of that path. -/
def addVertex (g : Graph) (v : Vertex) : Graph × Nat :=
  match g.index? v.path with
  | some i => (g, i)
  | none => ({ g with vertices := g.vertices ++ [v] }, g.vertices.length)

/-- Whether an edge can be added. -/
def accepts (g : Graph) (e : Edge) : Bool :=
  !e.source.same e.target && !g.hasEdge e && g.hasVertex e.source && g.hasVertex e.target

/-- Adds an edge if the graph accepts it, and returns its place. -/
def addEdge (g : Graph) (e : Edge) : Graph × Option Nat :=
  if g.accepts e then ({ g with edges := g.edges ++ [e] }, some g.edges.length) else (g, none)

def addVertices (g : Graph) (vs : List Vertex) : Graph :=
  vs.foldl (fun g v => (g.addVertex v).1) g

def addEdges (g : Graph) (es : List Edge) : Graph :=
  es.foldl (fun g e => (g.addEdge e).1) g

/-- One call on a growing graph. -/
inductive Call
  | vertex (v : Vertex)
  | edge (e : Edge)
deriving DecidableEq, Repr

def Call.vertex? : Call → Option Vertex
  | .vertex v => some v
  | .edge _ => none

def step (g : Graph) : Call → Graph
  | .vertex v => (g.addVertex v).1
  | .edge e => (g.addEdge e).1

def steps (g : Graph) (calls : List Call) : Graph :=
  calls.foldl step g

/-- The graph that calls build from nothing. -/
def run (calls : List Call) : Graph :=
  steps {} calls

theorem addVertices_eq_steps (g : Graph) (vs : List Vertex) :
    g.addVertices vs = g.steps (vs.map .vertex) := by
  rw [steps, List.foldl_map]
  rfl

theorem addEdges_eq_steps (g : Graph) (es : List Edge) :
    g.addEdges es = g.steps (es.map .edge) := by
  rw [steps, List.foldl_map]
  rfl

variable {g : Graph}

/-! ## What is there -/

theorem hasVertex_iff {p : Path} : g.hasVertex p = true ↔ ∃ v ∈ g.vertices,
    v.path.same p = true := by
  simp [hasVertex]

theorem hasVertex_congr {p q : Path} (h : p.same q = true) : g.hasVertex p = g.hasVertex q := by
  unfold hasVertex
  simp only [fun v : Vertex => Path.same_congr (Path.same_refl v.path) h]

theorem hasEdge_iff {e : Edge} : g.hasEdge e = true ↔ ∃ e' ∈ g.edges, e'.same e = true := by
  simp [hasEdge, Edge.same_comm e]

theorem hasEdge_congr {a b : Edge} (h : a.same b = true) : g.hasEdge a = g.hasEdge b := by
  rw [Bool.eq_iff_iff, hasEdge_iff, hasEdge_iff]
  constructor
  · intro hh
    obtain ⟨e, he, hs⟩ := hh
    exact ⟨e, he, Edge.same_trans hs h⟩
  · intro hh
    obtain ⟨e, he, hs⟩ := hh
    exact ⟨e, he, Edge.same_trans hs (Edge.same_symm h)⟩

/-- The ends of an edge are two different vertices. -/
structure Joins (g : Graph) (e : Edge) : Prop where
  no_loop : ¬ e.source.same e.target
  source : g.hasVertex e.source
  target : g.hasVertex e.target

theorem Joins.congr {a b : Edge} (h : a.same b = true) (ha : g.Joins a) : g.Joins b := by
  rw [Edge.same_iff] at h
  refine ⟨?_, ?_, ?_⟩
  · rw [← Path.same_congr h.1 h.2.1]
    exact ha.no_loop
  · rw [← hasVertex_congr h.1]
    exact ha.source
  · rw [← hasVertex_congr h.2.1]
    exact ha.target

theorem accepts_iff {e : Edge} : g.accepts e = true ↔ g.Joins e ∧ ¬ g.hasEdge e := by
  simp only [accepts, Bool.and_eq_true, Bool.not_eq_true', Bool.not_eq_true]
  constructor
  · intro hh
    obtain ⟨⟨⟨hl, he⟩, hs⟩, ht⟩ := hh
    exact ⟨⟨by simp [hl], hs, ht⟩, he⟩
  · intro hh
    obtain ⟨⟨hl, hs, ht⟩, he⟩ := hh
    exact ⟨⟨⟨by simpa using hl, he⟩, hs⟩, ht⟩

/-! ## What one call does -/

theorem addVertex_of_hasVertex {v : Vertex} (h : g.hasVertex v.path = true) :
    (g.addVertex v).1 = g := by
  unfold addVertex
  split
  · rfl
  next hn =>
    rw [index?, List.findIdx?_eq_none_iff] at hn
    obtain ⟨w, hw, hs⟩ := hasVertex_iff.mp h
    simp [hn w hw] at hs

theorem addVertex_of_not_hasVertex {v : Vertex} (h : g.hasVertex v.path = false) :
    (g.addVertex v).1 = { g with vertices := g.vertices ++ [v] } := by
  unfold addVertex
  split
  next i hi =>
    obtain ⟨hlt, hs, -⟩ := List.findIdx?_eq_some_iff_getElem.mp hi
    have hv : g.hasVertex v.path = true := hasVertex_iff.mpr ⟨_, List.getElem_mem hlt, hs⟩
    simp [h] at hv
  · rfl

theorem addEdge_of_accepts {e : Edge} (h : g.accepts e = true) :
    g.addEdge e = ({ g with edges := g.edges ++ [e] }, some g.edges.length) :=
  if_pos h

theorem addEdge_of_not_accepts {e : Edge} (h : ¬ g.accepts e = true) : g.addEdge e = (g, none) :=
  if_neg h

theorem addEdge_isSome (e : Edge) : (g.addEdge e).2.isSome = g.accepts e := by
  unfold addEdge
  split <;> simp_all

@[simp] theorem addVertex_edges (v : Vertex) : (g.addVertex v).1.edges = g.edges := by
  unfold addVertex
  split <;> rfl

@[simp] theorem addEdge_vertices (e : Edge) : (g.addEdge e).1.vertices = g.vertices := by
  unfold addEdge
  split <;> rfl

theorem hasVertex_addVertex {v : Vertex} {p : Path} :
    (g.addVertex v).1.hasVertex p = true ↔ g.hasVertex p = true ∨ v.path.same p = true := by
  cases h : g.hasVertex v.path with
  | true =>
    rw [addVertex_of_hasVertex h]
    refine ⟨Or.inl, ?_⟩
    intro hh
    rcases hh with hp | hs
    · exact hp
    · rw [← hasVertex_congr hs]
      exact h
  | false =>
    rw [addVertex_of_not_hasVertex h]
    simp [hasVertex]

theorem hasEdge_addEdge {e e' : Edge} : (g.addEdge e').1.hasEdge e = true ↔
    g.hasEdge e = true ∨ (g.accepts e' = true ∧ e'.same e = true) := by
  by_cases h : g.accepts e' = true
  · rw [addEdge_of_accepts h]
    simp [hasEdge, h, Edge.same_comm e e']
  · rw [addEdge_of_not_accepts h]
    simp [h]

/-! ## The invariant of runs -/

/-- Vertices are different files, edges are different triples, and edges join vertices. -/
structure WellFormed (g : Graph) : Prop where
  vertices_distinct : g.vertices.Pairwise fun v w => ¬ v.path.same w.path
  edges_distinct : g.edges.Pairwise fun a b => ¬ a.same b
  edges_join : ∀ e ∈ g.edges, g.Joins e

theorem wellFormed_empty : WellFormed {} :=
  ⟨.nil, .nil, by simp⟩

theorem WellFormed.addVertex (h : g.WellFormed) (v : Vertex) : (g.addVertex v).1.WellFormed := by
  have joins : ∀ e ∈ (g.addVertex v).1.edges, (g.addVertex v).1.Joins e := by
    intro e he
    rw [addVertex_edges] at he
    obtain ⟨hl, hs, ht⟩ := h.edges_join e he
    exact ⟨hl, hasVertex_addVertex.mpr (.inl hs), hasVertex_addVertex.mpr (.inl ht)⟩
  have distinct : (g.addVertex v).1.vertices.Pairwise fun v w => ¬ v.path.same w.path := by
    cases hv : g.hasVertex v.path with
    | true =>
      rw [addVertex_of_hasVertex hv]
      exact h.vertices_distinct
    | false =>
      rw [addVertex_of_not_hasVertex hv, List.pairwise_append]
      refine ⟨h.vertices_distinct, List.pairwise_singleton .., ?_⟩
      intro w hw u hu hs
      rw [List.mem_singleton.mp hu] at hs
      have : g.hasVertex v.path = true := hasVertex_iff.mpr ⟨w, hw, hs⟩
      simp [hv] at this
  refine ⟨distinct, ?_, joins⟩
  rw [addVertex_edges]
  exact h.edges_distinct

theorem WellFormed.addEdge (h : g.WellFormed) (e : Edge) : (g.addEdge e).1.WellFormed := by
  by_cases ha : g.accepts e = true
  · obtain ⟨hj, hn⟩ := accepts_iff.mp ha
    rw [addEdge_of_accepts ha]
    refine ⟨h.vertices_distinct, ?_, ?_⟩
    · refine List.pairwise_append.mpr ⟨h.edges_distinct, List.pairwise_singleton .., ?_⟩
      intro a hm b hb hs
      rw [List.mem_singleton.mp hb] at hs
      exact hn (hasEdge_iff.mpr ⟨a, hm, hs⟩)
    · intro a hm
      rcases List.mem_append.mp hm with hm | hm
      · exact ⟨(h.edges_join a hm).no_loop, (h.edges_join a hm).source, (h.edges_join a hm).target⟩
      · rw [List.mem_singleton.mp hm]
        exact ⟨hj.no_loop, hj.source, hj.target⟩
  · rw [addEdge_of_not_accepts ha]
    exact h

theorem WellFormed.step (h : g.WellFormed) (c : Call) : (g.step c).WellFormed := by
  cases c with
  | vertex v => exact h.addVertex v
  | edge e => exact h.addEdge e

theorem WellFormed.steps (h : g.WellFormed) (calls : List Call) : (g.steps calls).WellFormed := by
  induction calls generalizing g with
  | nil => exact h
  | cons c calls ih => exact ih (h.step c)

theorem wellFormed_run (calls : List Call) : (run calls).WellFormed :=
  wellFormed_empty.steps calls

/-! ## Looking vertices up -/

theorem WellFormed.index?_eq_some_iff (h : g.WellFormed) {p : Path} {i : Nat} :
    g.index? p = some i ↔ ∃ v, g.vertices[i]? = some v ∧ v.path.same p = true := by
  rw [index?, List.findIdx?_eq_some_iff_getElem]
  constructor
  · intro hh
    obtain ⟨hlt, hs, -⟩ := hh
    exact ⟨_, List.getElem?_eq_getElem hlt, hs⟩
  · intro hh
    obtain ⟨v, hv, hs⟩ := hh
    obtain ⟨hlt, rfl⟩ := List.getElem?_eq_some_iff.mp hv
    refine ⟨hlt, hs, ?_⟩
    -- an earlier hit would be a second vertex of the same file
    intro j hj hs'
    have hd := List.pairwise_iff_getElem.mp h.vertices_distinct j i (by omega) hlt hj
    exact hd (Path.same_trans hs' (Path.same_symm hs))

theorem WellFormed.vertex?_eq_some_iff (h : g.WellFormed) {p : Path} {v : Vertex} :
    g.vertex? p = some v ↔ v ∈ g.vertices ∧ v.path.same p = true := by
  rw [vertex?, List.find?_eq_some_iff_getElem]
  constructor
  · intro hh
    obtain ⟨hs, i, hlt, rfl, -⟩ := hh
    exact ⟨List.getElem_mem hlt, hs⟩
  · intro hh
    obtain ⟨hv, hs⟩ := hh
    obtain ⟨i, hlt, rfl⟩ := List.getElem_of_mem hv
    refine ⟨hs, i, hlt, rfl, ?_⟩
    intro j hj
    have hd := List.pairwise_iff_getElem.mp h.vertices_distinct j i (by omega) hlt hj
    rw [Bool.not_eq_true']
    refine Bool.eq_false_iff.mpr fun hs' => ?_
    exact hd (Path.same_trans hs' (Path.same_symm hs))

/-! ## Where vertices and edges come from -/

theorem vertices_steps (calls : List Call) : (g.steps calls).vertices =
    List.eraseDupsBy.loop (fun v w => v.path.same w.path) (calls.filterMap Call.vertex?)
      g.vertices.reverse := by
  induction calls generalizing g with
  | nil => simp [steps, List.eraseDupsBy.loop]
  | cons c calls ih =>
    rw [steps, List.foldl_cons, ← steps, ih]
    cases c with
    | edge e =>
      rw [List.filterMap_cons_none rfl]
      simp [step]
    | vertex v =>
      have known : (g.vertices.reverse.any fun w => v.path.same w.path) = g.hasVertex v.path := by
        simp [hasVertex, Path.same_comm v.path]
      have asked : (Call.vertex v :: calls).filterMap Call.vertex? =
          v :: calls.filterMap Call.vertex? := rfl
      simp only [step, asked, List.eraseDupsBy.loop, known]
      cases h : g.hasVertex v.path with
      | true => rw [addVertex_of_hasVertex h]
      | false => simp [addVertex_of_not_hasVertex h]

/-- The vertices of a run are those it was asked for, without the later ones of a path. -/
theorem vertices_run (calls : List Call) : (run calls).vertices =
    (calls.filterMap Call.vertex?).eraseDupsBy fun v w => v.path.same w.path :=
  vertices_steps calls

theorem hasEdge_step {e : Edge} (c : Call) : (g.step c).hasEdge e = true ↔
    g.hasEdge e = true ∨
      ∃ e', c = .edge e' ∧ (g.addEdge e').2.isSome = true ∧ e'.same e = true := by
  cases c with
  | vertex v => simp [step, hasEdge]
  | edge e' =>
    rw [step, hasEdge_addEdge, ← addEdge_isSome]
    simp

/-- An edge is there if it was there before, or if a call for its triple was answered with a
place. -/
theorem hasEdge_steps {e : Edge} (calls : List Call) : (g.steps calls).hasEdge e = true ↔
    g.hasEdge e = true ∨ ∃ before e' after, calls = before ++ .edge e' :: after ∧
      ((g.steps before).addEdge e').2.isSome = true ∧ e'.same e = true := by
  induction calls generalizing g with
  | nil => simp [steps]
  | cons c calls ih =>
    rw [steps, List.foldl_cons, ← steps, ih, hasEdge_step]
    constructor
    · intro hh
      rcases hh with (h | ⟨e', rfl, h⟩) | ⟨before, e', after, rfl, h⟩
      · exact .inl h
      · exact .inr ⟨[], e', calls, rfl, h⟩
      · exact .inr ⟨c :: before, e', after, rfl, h⟩
    · intro hh
      rcases hh with h | ⟨before, e', after, hc, h⟩
      · exact .inl (.inl h)
      · cases before with
        | nil =>
          obtain ⟨rfl, rfl⟩ := List.cons_eq_cons.mp hc
          exact .inl (.inr ⟨e', rfl, h⟩)
        | cons d before =>
          obtain ⟨rfl, rfl⟩ := List.cons_eq_cons.mp hc
          exact .inr ⟨before, e', after, rfl, h⟩

/-! ## Adding many at once -/

theorem WellFormed.addVertices (h : g.WellFormed) (vs : List Vertex) :
    (g.addVertices vs).WellFormed := by
  rw [addVertices_eq_steps]
  exact h.steps _

theorem WellFormed.addEdges (h : g.WellFormed) (es : List Edge) : (g.addEdges es).WellFormed := by
  rw [addEdges_eq_steps]
  exact h.steps _

theorem hasVertex_addVertices {vs : List Vertex} {p : Path} :
    (g.addVertices vs).hasVertex p = true ↔
      g.hasVertex p = true ∨ ∃ v ∈ vs, v.path.same p = true := by
  induction vs generalizing g with
  | nil => simp [Graph.addVertices]
  | cons v vs ih =>
    rw [Graph.addVertices, List.foldl_cons, ← Graph.addVertices, ih, hasVertex_addVertex, or_assoc]
    simp

@[simp] theorem addVertices_edges (vs : List Vertex) : (g.addVertices vs).edges = g.edges := by
  induction vs generalizing g with
  | nil => rfl
  | cons v vs ih =>
    rw [Graph.addVertices, List.foldl_cons, ← Graph.addVertices, ih, addVertex_edges]

theorem addVertices_concat (vs : List Vertex) (v : Vertex) :
    g.addVertices (vs ++ [v]) = ((g.addVertices vs).addVertex v).1 :=
  List.foldl_append

/-- Vertices of different files are all stored, in their order. -/
theorem addVertices_vertices_of_distinct {vs : List Vertex}
    (distinct : (g.vertices ++ vs).Pairwise fun v w => ¬ v.path.same w.path) :
    (g.addVertices vs).vertices = g.vertices ++ vs := by
  induction vs generalizing g with
  | nil => simp [Graph.addVertices]
  | cons v vs ih =>
    have absent : g.hasVertex v.path = false := by
      refine Bool.eq_false_iff.mpr fun hv => ?_
      obtain ⟨w, hw, hs⟩ := hasVertex_iff.mp hv
      exact (List.pairwise_append.mp distinct).2.2 w hw v List.mem_cons_self hs
    have stored : (g.addVertex v).1.vertices = g.vertices ++ [v] := by
      rw [addVertex_of_not_hasVertex absent]
    rw [Graph.addVertices, List.foldl_cons, ← Graph.addVertices, ih]
    · rw [stored, List.append_assoc, List.singleton_append]
    · rw [stored, List.append_assoc, List.singleton_append]
      exact distinct

theorem addEdges_cons (e : Edge) (es : List Edge) :
    g.addEdges (e :: es) = (g.addEdge e).1.addEdges es :=
  rfl

@[simp] theorem addEdges_vertices (es : List Edge) : (g.addEdges es).vertices = g.vertices := by
  induction es generalizing g with
  | nil => rfl
  | cons e es ih => rw [addEdges_cons, ih, addEdge_vertices]

theorem hasVertex_addEdge (e : Edge) (p : Path) : (g.addEdge e).1.hasVertex p = g.hasVertex p := by
  rw [hasVertex, addEdge_vertices, hasVertex]

theorem joins_addEdge {e e' : Edge} : (g.addEdge e').1.Joins e ↔ g.Joins e := by
  constructor
  · intro hh
    obtain ⟨hl, hs, ht⟩ := hh
    rw [hasVertex_addEdge] at hs ht
    exact ⟨hl, hs, ht⟩
  · intro hh
    obtain ⟨hl, hs, ht⟩ := hh
    rw [← hasVertex_addEdge e'] at hs ht
    exact ⟨hl, hs, ht⟩

/-- Of the edges asked for, those are there that join vertices; a repeated one changes nothing. -/
theorem hasEdge_addEdges {es : List Edge} {e : Edge} : (g.addEdges es).hasEdge e = true ↔
    g.hasEdge e = true ∨ (g.Joins e ∧ ∃ e' ∈ es, e'.same e = true) := by
  induction es generalizing g with
  | nil => simp [Graph.addEdges]
  | cons a es ih =>
    rw [addEdges_cons, ih, hasEdge_addEdge, joins_addEdge, accepts_iff]
    constructor
    · intro hh
      rcases hh with (h | ⟨⟨hj, -⟩, hs⟩) | ⟨hj, e', he', hs⟩
      · exact .inl h
      · exact .inr ⟨hj.congr hs, a, List.mem_cons_self, hs⟩
      · exact .inr ⟨hj, e', List.mem_cons_of_mem _ he', hs⟩
    · intro hh
      rcases hh with h | ⟨hj, e', he', hs⟩
      · exact .inl (.inl h)
      · rcases List.mem_cons.mp he' with rfl | he'
        · by_cases hk : g.hasEdge e' = true
          · rw [hasEdge_congr hs] at hk
            exact .inl (.inl hk)
          · exact .inl (.inr ⟨⟨hj.congr (Edge.same_symm hs), hk⟩, hs⟩)
        · exact .inr ⟨hj, e', he', hs⟩

/-- Edges are stored as they were asked for, in that order, each once at most. -/
theorem addEdges_edges_sublist (es : List Edge) :
    (g.addEdges es).edges.Sublist (g.edges ++ es) := by
  induction es generalizing g with
  | nil => simp [Graph.addEdges]
  | cons e es ih =>
    rw [addEdges_cons]
    by_cases h : g.accepts e = true
    · have stored := ih (g := (g.addEdge e).1)
      rw [addEdge_of_accepts h, List.append_assoc, List.singleton_append] at stored
      rw [addEdge_of_accepts h]
      exact stored
    · rw [addEdge_of_not_accepts h]
      exact ih.trans ((List.sublist_cons_self e es).append_left g.edges)

theorem length_addEdges_le (es : List Edge) :
    (g.addEdges es).edges.length ≤ g.edges.length + es.length := by
  rw [← List.length_append]
  exact (addEdges_edges_sublist es).length_le

/-- Different triples that join vertices are all stored, in their order. -/
theorem addEdges_edges_of_joins {es : List Edge}
    (distinct : (g.edges ++ es).Pairwise fun a b => ¬ a.same b) (joins : ∀ e ∈ es, g.Joins e) :
    (g.addEdges es).edges = g.edges ++ es := by
  induction es generalizing g with
  | nil => simp [Graph.addEdges]
  | cons e es ih =>
    have accepted : g.accepts e = true := by
      refine accepts_iff.mpr ⟨joins e List.mem_cons_self, fun he => ?_⟩
      obtain ⟨a, ha, hs⟩ := hasEdge_iff.mp he
      exact (List.pairwise_append.mp distinct).2.2 a ha e List.mem_cons_self hs
    have stored : (g.addEdge e).1.edges = g.edges ++ [e] := by rw [addEdge_of_accepts accepted]
    rw [addEdges_cons, ih]
    · rw [stored, List.append_assoc, List.singleton_append]
    · rw [stored, List.append_assoc, List.singleton_append]
      exact distinct
    · intro a ha
      exact joins_addEdge.mpr (joins a (List.mem_cons_of_mem _ ha))

end Graph

end CodeAtlas
