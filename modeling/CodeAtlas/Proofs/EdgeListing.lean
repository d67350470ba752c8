import CodeAtlas.Proofs.GraphRun
import Mathlib.Data.List.Perm.Basic

/-!
# The listing of edges

`Graph.orderedEdges` goes through the vertices and lists the edges out of each by target and label.
In a well-formed graph this is a rearrangement of the stored edges, and its order is strict: no two
edges tie.
-/
namespace CodeAtlas

namespace Edge

/-- The order of edges under one source. -/
def cmpTargetLabel (a b : Edge) : Ordering :=
  (a.target.cmp b.target).then (compare a.label b.label)

theorem before_eq_isLE (a b : Edge) : a.before b = (a.cmpTargetLabel b).isLE := rfl

theorem cmpTargetLabel_eq_compareLex :
    cmpTargetLabel = compareLex (fun a b => a.target.cmp b.target) (compareOn label) := rfl

theorem cmpTargetLabel_eq_eq_iff {a b : Edge} :
    a.cmpTargetLabel b = .eq ↔ a.target.same b.target = true ∧ a.label = b.label := by
  rw [cmpTargetLabel, Ordering.then_eq_eq, Path.cmp_eq_eq_iff, Std.LawfulEqOrd.compare_eq_iff_eq]

instance : Std.TransCmp fun a b : Edge => a.target.cmp b.target where
  eq_swap := Std.OrientedCmp.eq_swap
  isLE_trans := Std.TransCmp.isLE_trans

instance : Std.TransCmp cmpTargetLabel := by
  rw [cmpTargetLabel_eq_compareLex]
  infer_instance

theorem before_trans (a b c : Edge) (h₁ : a.before b = true) (h₂ : b.before c = true) :
    a.before c = true := by
  rw [before_eq_isLE] at h₁ h₂ ⊢
  exact Std.TransCmp.isLE_trans h₁ h₂

theorem before_total (a b : Edge) : (a.before b || b.before a) = true := by
  have hs : b.cmpTargetLabel a = (a.cmpTargetLabel b).swap := Std.OrientedCmp.eq_swap
  rw [before_eq_isLE, before_eq_isLE, hs]
  cases a.cmpTargetLabel b <;> rfl

/-- Different triples with one source are put into strict order: a tie would be a repeated
triple. -/
theorem mergeSort_increasing {es : List Edge} (distinct : es.Pairwise fun a b => ¬ a.same b)
    (one_source : ∀ a ∈ es, ∀ b ∈ es, a.source.same b.source = true) :
    (es.mergeSort before).Pairwise fun a b => a.cmpTargetLabel b = .lt := by
  have sorted : (es.mergeSort before).Pairwise fun a b => a.before b = true :=
    List.pairwise_mergeSort before_trans before_total _
  have distinct : (es.mergeSort before).Pairwise fun a b => ¬ a.same b := by
    refine (List.Perm.pairwise_iff ?_ (List.mergeSort_perm _ before)).mpr distinct
    intro a b hab hba
    exact hab (same_symm hba)
  refine (sorted.and distinct).imp_of_mem ?_
  intro a b ha hb ⟨hle, hne⟩
  rw [before_eq_isLE] at hle
  cases hc : a.cmpTargetLabel b with
  | lt => rfl
  | gt => simp [hc] at hle
  | eq =>
    obtain ⟨ht, hl⟩ := cmpTargetLabel_eq_eq_iff.mp hc
    have hs := one_source a (List.mem_mergeSort.mp ha) b (List.mem_mergeSort.mp hb)
    exact absurd (same_iff.mpr ⟨hs, ht, hl⟩) hne

/-- A strict order leaves one way to list the same edges. -/
theorem eq_of_perm_of_increasing {es fs : List Edge} (perm : es.Perm fs)
    (hes : es.Pairwise fun a b => a.cmpTargetLabel b = .lt)
    (hfs : fs.Pairwise fun a b => a.cmpTargetLabel b = .lt) : es = fs := by
  refine List.Perm.eq_of_pairwise ?_ hes hfs perm
  intro a b _ _ hab hba
  have swapped : b.cmpTargetLabel a = (a.cmpTargetLabel b).swap := Std.OrientedCmp.eq_swap
  rw [hab, hba] at swapped
  cases swapped

end Edge

namespace Graph

variable {g : Graph}

/-- Whether `a` is to be listed in front of `b`: its source is an earlier vertex, or the same one
and its target and label come first. -/
def Precedes (g : Graph) (a b : Edge) : Prop :=
  ∃ i j, g.index? a.source = some i ∧ g.index? b.source = some j ∧
    (i < j ∨ i = j ∧ a.cmpTargetLabel b = .lt)

theorem mem_outgoing {p : Path} {e : Edge} :
    e ∈ g.outgoing p ↔ e ∈ g.edges ∧ e.source.same p = true := by
  simp [outgoing]

/-- Every edge falls into the group of at most one vertex, so that grouping only rearranges. -/
theorem flatMap_filter_source_perm (es : List Edge) {vs : List Vertex}
    (h : vs.Pairwise fun v w => ¬ v.path.same w.path) :
    (vs.flatMap fun v => es.filter fun e => e.source.same v.path).Perm
      (es.filter fun e => vs.any fun v => e.source.same v.path) := by
  induction vs with
  | nil => simp
  | cons v vs ih =>
    obtain ⟨hv, hvs⟩ := List.pairwise_cons.mp h
    let known := es.filter fun e => (v :: vs).any fun w => e.source.same w.path
    have head : (known.filter fun e => e.source.same v.path) =
        es.filter fun e => e.source.same v.path := by
      rw [List.filter_filter]
      apply List.filter_congr
      intro e _
      cases hs : e.source.same v.path <;> simp [hs]
    have tail : (known.filter fun e => !e.source.same v.path) =
        es.filter fun e => vs.any fun w => e.source.same w.path := by
      rw [List.filter_filter]
      apply List.filter_congr
      intro e _
      cases hs : e.source.same v.path with
      | false => simp [hs]
      | true =>
        -- the source of `e` is `v`, hence no later vertex
        have none_later : ∀ w ∈ vs, e.source.same w.path = false := by
          intro w hw
          refine Bool.eq_false_iff.mpr fun hs' => ?_
          exact hv w hw (Path.same_trans (Path.same_symm hs) hs')
        simpa [hs] using none_later
    rw [List.flatMap_cons]
    refine (List.Perm.append_left _ (ih hvs)).trans ?_
    rw [← head, ← tail]
    exact List.filter_append_perm _ known

theorem WellFormed.orderedEdges_perm (h : g.WellFormed) : g.orderedEdges.Perm g.edges := by
  have all_known : (g.edges.filter fun e => g.vertices.any fun v => e.source.same v.path) =
      g.edges := by
    rw [List.filter_eq_self]
    intro e he
    have := (h.edges_join e he).source
    simpa [hasVertex, Path.same_comm e.source] using this
  have grouped := flatMap_filter_source_perm g.edges h.vertices_distinct
  rw [all_known] at grouped
  refine List.Perm.trans (List.Perm.flatMap_left _ fun v _ => ?_) grouped
  exact List.mergeSort_perm _ _

theorem WellFormed.mem_orderedEdges (h : g.WellFormed) {e : Edge} :
    e ∈ g.orderedEdges ↔ e ∈ g.edges :=
  h.orderedEdges_perm.mem_iff

theorem WellFormed.outgoing_increasing (h : g.WellFormed) (p : Path) :
    (g.outgoing p).Pairwise fun a b => a.cmpTargetLabel b = .lt := by
  refine Edge.mergeSort_increasing (h.edges_distinct.filter _) fun a ha b hb => ?_
  exact Path.same_trans (List.mem_filter.mp ha).2 (Path.same_symm (List.mem_filter.mp hb).2)

theorem WellFormed.orderedEdges_increasing (h : g.WellFormed) :
    g.orderedEdges.Pairwise g.Precedes := by
  rw [orderedEdges, List.pairwise_flatMap]
  have place : ∀ v ∈ g.vertices, ∀ i, g.vertices[i]? = some v →
      ∀ e ∈ g.outgoing v.path, g.index? e.source = some i := by
    intro v _ i hi e he
    exact h.index?_eq_some_iff.mpr ⟨v, hi, Path.same_symm (mem_outgoing.mp he).2⟩
  constructor
  · intro v hv
    obtain ⟨i, hi⟩ := List.getElem?_of_mem hv
    refine (h.outgoing_increasing v.path).imp_of_mem ?_
    intro a b ha hb hlt
    exact ⟨i, i, place v hv i hi a ha, place v hv i hi b hb, .inr ⟨rfl, hlt⟩⟩
  · rw [List.pairwise_iff_getElem]
    intro i j hi hj hij a ha b hb
    refine ⟨i, j, ?_, ?_, .inl hij⟩
    · exact place _ (List.getElem_mem hi) i (List.getElem?_eq_getElem hi) a ha
    · exact place _ (List.getElem_mem hj) j (List.getElem?_eq_getElem hj) b hb

/-- Among different triples, at most one is that of `e`. -/
theorem countP_same {es : List Edge} (h : es.Pairwise fun a b => ¬ a.same b) (e : Edge) :
    es.countP e.same = if es.any e.same then 1 else 0 := by
  induction es with
  | nil => rfl
  | cons a es ih =>
    obtain ⟨ha, hes⟩ := List.pairwise_cons.mp h
    rw [List.countP_cons, ih hes, List.any_cons]
    cases hs : e.same a with
    | false => simp
    | true =>
      have none_later : es.any e.same = false := by
        rw [List.any_eq_false]
        intro b hb hs'
        exact ha b hb (Edge.same_trans (Edge.same_symm hs) hs')
      simp [none_later]

theorem WellFormed.countP_orderedEdges (h : g.WellFormed) (e : Edge) :
    g.orderedEdges.countP e.same = if g.hasEdge e then 1 else 0 := by
  rw [h.orderedEdges_perm.countP_eq]
  exact countP_same h.edges_distinct e

/-! ## Every run -/

theorem addEdge_eq_some_iff {e : Edge} {i : Nat} :
    (g.addEdge e).2 = some i ↔ g.Joins e ∧ ¬ g.hasEdge e ∧ i = g.edges.length := by
  by_cases h : g.accepts e = true
  · rw [addEdge_of_accepts h]
    have ⟨hj, hn⟩ := accepts_iff.mp h
    simp [hj, hn, eq_comm]
  · rw [addEdge_of_not_accepts h]
    rw [accepts_iff] at h
    simp only [reduceCtorEq, false_iff]
    intro hh
    obtain ⟨hj, hn, -⟩ := hh
    exact h ⟨hj, hn⟩

/-- A triple that lacked a vertex is stored when it is asked for again, once both of its ends are
vertices: the refused call left nothing behind that could stand in its way. -/
theorem WellFormed.addEdge_again (h : g.WellFormed) {e : Edge} {more : List Call}
    (lacking : ¬ (g.hasVertex e.source ∧ g.hasVertex e.target))
    (others : ∀ e', .edge e' ∈ more → ¬ e'.same e) (joins : ((g.addEdge e).1.steps more).Joins e) :
    ((g.addEdge e).1.steps more).addEdge e =
      ({ (g.addEdge e).1.steps more with edges := ((g.addEdge e).1.steps more).edges ++ [e] },
        some ((g.addEdge e).1.steps more).edges.length) := by
  have refused : ¬ g.accepts e = true := fun ha =>
    lacking ⟨(accepts_iff.mp ha).1.source, (accepts_iff.mp ha).1.target⟩
  rw [addEdge_of_not_accepts refused] at joins ⊢
  apply addEdge_of_accepts
  refine accepts_iff.mpr ⟨joins, fun he => ?_⟩
  rcases (hasEdge_steps more).mp he with he | ⟨before, e', after, rfl, -, hs⟩
  · -- a stored triple would have its ends among the vertices
    obtain ⟨e', hm, hs⟩ := hasEdge_iff.mp he
    have hj := (h.edges_join e' hm).congr hs
    exact lacking ⟨hj.source, hj.target⟩
  · exact others e' (by simp) hs

end Graph

end CodeAtlas
