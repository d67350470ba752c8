import CodeAtlas.Proofs.ResolutionCount
import Mathlib.Data.List.Pairwise

/-!
# The order of units

Two runs over the same units in different orders. What a unit refers to and what it declares do not
depend on the order, so each run has the same references and resolves the same ones among them. The
order only decides which of the units that declare a name owns it, and so where the edges for that
name lead.
-/
namespace CodeAtlas

namespace SymbolTable

variable {patterns : PatternSet} {us vs : List SourceUnit}

/-- Which units there are decides what a path declares, whatever their order. -/
theorem isDeclaredIn_build_congr (same : ∀ u, u ∈ us ↔ u ∈ vs) (name : String) (path : Path) :
    (build patterns us).isDeclaredIn name path = (build patterns vs).isDeclaredIn name path := by
  rw [Bool.eq_iff_iff, isDeclaredIn_build, isDeclaredIn_build]
  simp only [same]

/-- Which units there are decides what has an owner, but not which. -/
theorem owner?_build_isNone_congr (same : ∀ u, u ∈ us ↔ u ∈ vs) (name : String) :
    ((build patterns us).owner? name).isNone = ((build patterns vs).owner? name).isNone := by
  rw [← Option.not_isSome, ← Option.not_isSome, Bool.not_inj_iff,
    Bool.eq_iff_iff, owner?_build_isSome, owner?_build_isSome]
  simp only [same]

end SymbolTable

namespace Corpus

variable {patterns : PatternSet} {us vs : List SourceUnit}

theorem collect_build_congr (same : ∀ u, u ∈ us ↔ u ∈ vs) (u : SourceUnit) :
    ReferenceSet.collect patterns (.build patterns us) u =
      ReferenceSet.collect patterns (.build patterns vs) u := by
  simp only [ReferenceSet.collect, SymbolTable.isDeclaredIn_build_congr same]

theorem references_perm (patterns : PatternSet) (perm : us.Perm vs) :
    (Analysis.ofCorpus patterns (ofUnits us)).references.Perm
      (Analysis.ofCorpus patterns (ofUnits vs)).references := by
  have same : ∀ u, u ∈ us ↔ u ∈ vs := fun _ => perm.mem_iff
  have collected : ReferenceSet.collect patterns (.build patterns us) =
      ReferenceSet.collect patterns (.build patterns vs) := funext (collect_build_congr same)
  simp only [Analysis.ofCorpus, ofUnits, collected]
  exact perm.map _

theorem tally_unresolved_perm (patterns : PatternSet) (perm : us.Perm vs) :
    (Analysis.ofCorpus patterns (ofUnits us)).tally.unresolved =
      (Analysis.ofCorpus patterns (ofUnits vs)).tally.unresolved := by
  have same : ∀ u, u ∈ us ↔ u ∈ vs := fun _ => perm.mem_iff
  have each : ∀ r : ReferenceSet, (r.tally (.build patterns us)).unresolved =
      (r.tally (.build patterns vs)).unresolved := by
    intro r
    simp only [ReferenceSet.tally_unresolved, SymbolTable.owner?_build_isNone_congr same]
  rw [tally_ofCorpus, tally_ofCorpus]
  refine Eq.trans ?_ ((references_perm patterns perm).map _).sum_nat
  simp only [Analysis.ofCorpus, ofUnits, each]

theorem tally_perm (patterns : PatternSet) (perm : us.Perm vs) :
    (Analysis.ofCorpus patterns (ofUnits us)).tally =
      (Analysis.ofCorpus patterns (ofUnits vs)).tally := by
  have unresolved := tally_unresolved_perm patterns perm
  have sizes := ((references_perm patterns perm).map ReferenceSet.size).sum_nat
  rw [← tally_total, ← tally_total] at sizes
  ext
  · omega
  · exact unresolved
  · rw [tally_reflexive, tally_reflexive]

/-! ## Edges -/

theorem mem_orderedEdges_of_separate {corpus : Corpus} (h : corpus.Separate) {e : Edge} :
    e ∈ (Analysis.ofCorpus patterns corpus).graph.orderedEdges ↔
      ∃ u ∈ corpus.units, e.source = u.path ∧ u.refersTo patterns e.label ∧
        (∀ w ∈ corpus.units, w.path.same u.path → ¬ w.declares patterns e.label) ∧
        ∃ o, corpus.units.find? (·.declares patterns e.label) = some o ∧ o.path = e.target := by
  rw [(wellFormed_graph patterns corpus).mem_orderedEdges, edges_of_separate h, mem_foundEdges]

/-- Whether a file has an edge for a name is a matter of which units there are. -/
theorem exists_orderedEdges_of_separate {corpus : Corpus} (h : corpus.Separate)
    {s : Path} {n : String} :
    (∃ e ∈ (Analysis.ofCorpus patterns corpus).graph.orderedEdges, e.source = s ∧ e.label = n) ↔
      ∃ u ∈ corpus.units, s = u.path ∧ u.refersTo patterns n ∧
        (∀ w ∈ corpus.units, w.path.same u.path → ¬ w.declares patterns n) ∧
        ∃ o ∈ corpus.units, o.declares patterns n := by
  simp only [mem_orderedEdges_of_separate h]
  constructor
  · intro hh
    obtain ⟨e, ⟨u, hu, hs, hr, hf, o, ho, -⟩, rfl, rfl⟩ := hh
    exact ⟨u, hu, hs, hr, hf, o, List.mem_of_find?_eq_some ho, List.find?_some ho⟩
  · intro hh
    obtain ⟨u, hu, rfl, hr, hf, o, ho, hd⟩ := hh
    have found : (corpus.units.find? (·.declares patterns n)).isSome = true :=
      List.find?_isSome.mpr ⟨o, ho, hd⟩
    obtain ⟨first, hfirst⟩ := Option.isSome_iff_exists.mp found
    exact ⟨⟨u.path, first.path, n⟩, ⟨u, hu, rfl, hr, hf, first, hfirst, rfl⟩, rfl, rfl⟩

/-- The target of an edge is a unit that declares its label. -/
theorem exists_declares_of_mem {corpus : Corpus} (h : corpus.Separate) {e : Edge}
    (he : e ∈ (Analysis.ofCorpus patterns corpus).graph.orderedEdges) :
    ∃ o ∈ corpus.units, o.declares patterns e.label ∧ o.path = e.target := by
  obtain ⟨u, -, -, -, -, o, ho, ht⟩ := (mem_orderedEdges_of_separate h).mp he
  exact ⟨o, List.mem_of_find?_eq_some ho, List.find?_some ho, ht⟩

instance : Std.Symm fun u w : SourceUnit => ¬ u.path.same w.path where
  symm _ _ h hs := h (Path.same_symm hs)

theorem separate_ofUnits_perm (distinct : us.Pairwise fun u w => ¬ u.path.same w.path)
    (perm : us.Perm vs) : (ofUnits vs).Separate :=
  separate_ofUnits ((perm.pairwise_iff fun {_ _} h hs => h (Path.same_symm hs)).mp distinct)

/-- The same files have edges for the same names. -/
theorem exists_orderedEdges_perm (patterns : PatternSet)
    (distinct : us.Pairwise fun u w => ¬ u.path.same w.path)
    (perm : us.Perm vs) (s : Path) (n : String) :
    (∃ e ∈ (Analysis.ofCorpus patterns (ofUnits us)).graph.orderedEdges,
      e.source = s ∧ e.label = n) ↔
      ∃ e ∈ (Analysis.ofCorpus patterns (ofUnits vs)).graph.orderedEdges,
      e.source = s ∧ e.label = n := by
  have mem : ∀ u, u ∈ us ↔ u ∈ vs := fun _ => perm.mem_iff
  rw [exists_orderedEdges_of_separate (separate_ofUnits distinct),
    exists_orderedEdges_of_separate (separate_ofUnits_perm distinct perm)]
  simp only [ofUnits, mem]

/-- Edges for one name that lead to different files show two units that declare the name. -/
theorem declared_twice_of_target_ne (distinct : us.Pairwise fun u w => ¬ u.path.same w.path)
    (perm : us.Perm vs) {e e' : Edge}
    (he : e ∈ (Analysis.ofCorpus patterns (ofUnits us)).graph.orderedEdges)
    (he' : e' ∈ (Analysis.ofCorpus patterns (ofUnits vs)).graph.orderedEdges)
    (hl : e.label = e'.label) (ht : e.target ≠ e'.target) :
    ∃ u ∈ us, ∃ w ∈ us, ¬ u.path.same w.path ∧
      u.declares patterns e.label ∧ w.declares patterns e.label := by
  obtain ⟨o, ho, hd, hp⟩ := exists_declares_of_mem (separate_ofUnits distinct) he
  obtain ⟨o', ho', hd', hp'⟩ := exists_declares_of_mem (separate_ofUnits_perm distinct perm) he'
  have ho' : o' ∈ us := perm.mem_iff.mpr ho'
  have ne : o ≠ o' := by
    intro heq
    subst heq
    exact ht (hp.symm.trans hp')
  exact ⟨o, ho, o', ho', distinct.forall ho ho' ne, hd, hl ▸ hd'⟩

/-- With one declaring unit for each name, an edge of one run is determined by its source and label
in the other. -/
theorem edge_eq_of_declared_once (distinct : us.Pairwise fun u w => ¬ u.path.same w.path)
    (perm : us.Perm vs)
    (once : ∀ name, ∀ u ∈ us, ∀ w ∈ us, u.declares patterns name → w.declares patterns name → u = w)
    {e e' : Edge} (he : e ∈ (Analysis.ofCorpus patterns (ofUnits us)).graph.orderedEdges)
    (he' : e' ∈ (Analysis.ofCorpus patterns (ofUnits vs)).graph.orderedEdges)
    (hs : e.source = e'.source) (hl : e.label = e'.label) : e = e' := by
  have ht : e.target = e'.target := by
    refine Decidable.byContradiction fun ht => ?_
    obtain ⟨u, hu, w, hw, hd, hdu, hdw⟩ := declared_twice_of_target_ne distinct perm he he' hl ht
    rw [once _ u hu w hw hdu hdw] at hd
    exact hd (Path.same_refl _)
  cases e
  cases e'
  simp_all

/-- Only the owners of names declared more than once depend on the order of units. -/
theorem analysis_perm (patterns : PatternSet) (us vs : List SourceUnit)
    (distinct : us.Pairwise fun u w => ¬ u.path.same w.path) (perm : us.Perm vs) :
    let a := Analysis.ofCorpus patterns (ofUnits us)
    let b := Analysis.ofCorpus patterns (ofUnits vs)
    a.tally = b.tally ∧
      (∀ s n, (∃ e ∈ a.graph.orderedEdges, e.source = s ∧ e.label = n) ↔
        ∃ e ∈ b.graph.orderedEdges, e.source = s ∧ e.label = n) ∧
      (∀ e ∈ a.graph.orderedEdges, ∀ e' ∈ b.graph.orderedEdges,
        e.label = e'.label → e.target ≠ e'.target →
          ∃ u ∈ us, ∃ w ∈ us, ¬ u.path.same w.path ∧
            u.declares patterns e.label ∧ w.declares patterns e.label) ∧
      ((∀ name, ∀ u ∈ us, ∀ w ∈ us, u.declares patterns name → w.declares patterns name → u = w) →
        ∀ e, e ∈ a.graph.orderedEdges ↔ e ∈ b.graph.orderedEdges) := by
  intro a b
  have pairs := exists_orderedEdges_perm patterns distinct perm
  refine ⟨tally_perm patterns perm, pairs, ?_, ?_⟩
  · intro e he e' he' hl ht
    exact declared_twice_of_target_ne distinct perm he he' hl ht
  · intro once e
    constructor
    · intro he
      obtain ⟨e', he', hs, hl⟩ := (pairs e.source e.label).mp ⟨e, he, rfl, rfl⟩
      exact edge_eq_of_declared_once distinct perm once he he' hs.symm hl.symm ▸ he'
    · intro he
      obtain ⟨e', he', hs, hl⟩ := (pairs e.source e.label).mpr ⟨e, he, rfl, rfl⟩
      exact edge_eq_of_declared_once distinct perm once he' he hs hl ▸ he'

/-- Two units declare `A`, and the one that comes first owns it. -/
theorem analysis_perm_of_two_declarers :
    let patterns : PatternSet := ⟨PatternSet.declarationShape, PatternSet.referenceShape {}⟩
    let first : SourceUnit := ⟨.ofText "a.gs", "class A {}"⟩
    let second : SourceUnit := ⟨.ofText "b.gs", "class A {}"⟩
    let user : SourceUnit := ⟨.ofText "c.gs", "new A()"⟩
    let a := Analysis.ofCorpus patterns (ofUnits [first, second, user])
    let b := Analysis.ofCorpus patterns (ofUnits [second, first, user])
    (⟨.ofText "c.gs", .ofText "a.gs", "A"⟩ : Edge) ∈ a.graph.orderedEdges ∧
      (⟨.ofText "c.gs", .ofText "b.gs", "A"⟩ : Edge) ∈ b.graph.orderedEdges ∧ a.tally = b.tally ∧
      ∃ u ∈ [first, second, user], ∃ w ∈ [first, second, user], ¬ u.path.same w.path ∧
        u.declares patterns "A" ∧ w.declares patterns "A" := by
  intro patterns first second user a b
  have h := analysis_perm patterns [first, second, user] [second, first, user]
    (by decide) (.swap ..)
  have ha : (⟨.ofText "c.gs", .ofText "a.gs", "A"⟩ : Edge) ∈ a.graph.orderedEdges := by
    decide +kernel
  have hb : (⟨.ofText "c.gs", .ofText "b.gs", "A"⟩ : Edge) ∈ b.graph.orderedEdges := by
    decide +kernel
  exact ⟨ha, hb, h.1, h.2.2.1 _ ha _ hb rfl (by decide)⟩

end Corpus

end CodeAtlas
