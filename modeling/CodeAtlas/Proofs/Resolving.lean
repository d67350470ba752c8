import CodeAtlas.Proofs.Ownership
import CodeAtlas.Resolution
import Mathlib.Algebra.GroupWithZero.Nat

/-!
# What a file's references come to

The names that a file is found to refer to, the edges that these give, and the count of those that
give none. Each name of a reference set has exactly one end, so the counts of a tally add up to the
size of the set. With the symbol table of the units the file is one of, no end is reflexive: a name
that the file owns is one it declares, and such names were left out before.
-/
namespace CodeAtlas

theorem ReferenceKind.mem_all (kind : ReferenceKind) : kind ∈ ReferenceKind.all := by
  cases kind <;> decide

namespace ReferenceSet

theorem mem_names_insert {set : ReferenceSet} {name other : String} {kind : ReferenceKind} :
    other ∈ (set.insert name kind).names ↔ other = name ∨ other ∈ set.names :=
  NameMap.mem_keys_alter

/-- Adding names in one way keeps the path and adds just these names. -/
theorem foldl_insert (kind : ReferenceKind) (names : List String) (set : ReferenceSet) :
    let added := names.foldl (fun set name => set.insert name kind) set
    added.path = set.path ∧ ∀ other, other ∈ added.names ↔ other ∈ names ∨ other ∈ set.names := by
  induction names generalizing set with
  | nil => simp
  | cons name names ih =>
    obtain ⟨hpath, hnames⟩ := ih (set.insert name kind)
    refine ⟨hpath, fun other => ?_⟩
    rw [List.foldl_cons, hnames, mem_names_insert, List.mem_cons, or_left_comm, or_assoc]

theorem foldl_kinds (found : ReferenceKind → List String) (kinds : List ReferenceKind)
    (set : ReferenceSet) :
    let added := kinds.foldl
      (fun set kind => (found kind).foldl (fun set name => set.insert name kind) set) set
    added.path = set.path ∧ ∀ other, other ∈ added.names ↔
      (∃ kind ∈ kinds, other ∈ found kind) ∨ other ∈ set.names := by
  induction kinds generalizing set with
  | nil => simp
  | cons kind kinds ih =>
    obtain ⟨hpath, hnames⟩ := foldl_insert kind (found kind) set
    obtain ⟨ihpath, ihnames⟩ := ih ((found kind).foldl (fun set name => set.insert name kind) set)
    refine ⟨ihpath.trans hpath, fun other => ?_⟩
    rw [List.foldl_cons, ihnames, hnames]
    simp only [List.mem_cons, exists_eq_or_imp]
    rw [or_left_comm, or_assoc]

variable {patterns : PatternSet} {table : SymbolTable} {unit : SourceUnit}

@[simp] theorem collect_path : (collect patterns table unit).path = unit.path :=
  (foldl_kinds _ _ _).1

theorem mem_names_collect {name : String} : name ∈ (collect patterns table unit).names ↔
    unit.refersTo patterns name ∧ table.isDeclaredIn name unit.path = false := by
  rw [collect, (foldl_kinds _ _ _).2]
  simp [names, NameMap.keys, NameMap.empty, SourceUnit.refersTo, ReferenceKind.mem_all]

theorem names_nodup (set : ReferenceSet) : set.names.Nodup :=
  set.uses.keys_nodup

/-! ## Edges -/

theorem mem_edges {set : ReferenceSet} {e : Edge} : e ∈ set.edges table ↔
    e.source = set.path ∧ e.label ∈ set.names ∧ table.owner? e.label = some e.target ∧
      ¬ e.target.same set.path := by
  simp only [edges, resolutions, List.mem_filterMap, List.mem_map]
  constructor
  · intro hh
    obtain ⟨r, ⟨name, hn, rfl⟩, hr⟩ := hh
    unfold Resolution.ofName at hr
    split at hr
    · cases hr
    next owner ho =>
      split at hr
      · cases hr
      next hs =>
        cases hr
        exact ⟨rfl, hn, ho, hs⟩
  · intro hh
    obtain ⟨hp, hn, ho, hs⟩ := hh
    refine ⟨.edge e, ⟨e.label, hn, ?_⟩, rfl⟩
    rw [← hp] at hs ⊢
    simp [Resolution.ofName, ho, hs]

/-- No two edges of one set have a label in common. -/
theorem edges_labels_distinct (table : SymbolTable) (set : ReferenceSet) :
    (set.edges table).Pairwise fun a b => a.label ≠ b.label := by
  have label_of : ∀ name e, (Resolution.ofName table set.path name).edge? = some e →
      e.label = name := by
    intro name e he
    unfold Resolution.ofName at he
    split at he
    · cases he
    · split at he <;> cases he
      rfl
  rw [edges, resolutions, List.filterMap_map]
  refine List.Pairwise.filterMap _ ?_ set.names_nodup
  intro a b hne e he e' he' heq
  rw [← label_of a e he, ← label_of b e' he'] at hne
  exact hne heq

end ReferenceSet

/-! ## Tallies -/

namespace Tally

@[simp] theorem add_resolved (a b : Tally) : (a + b).resolved = a.resolved + b.resolved := rfl
@[simp] theorem add_unresolved (a b : Tally) : (a + b).unresolved = a.unresolved + b.unresolved :=
  rfl
@[simp] theorem add_reflexive (a b : Tally) : (a + b).reflexive = a.reflexive + b.reflexive := rfl

@[ext] theorem ext {a b : Tally} (h₁ : a.resolved = b.resolved) (h₂ : a.unresolved = b.unresolved)
    (h₃ : a.reflexive = b.reflexive) : a = b := by
  cases a; cases b; cases h₁; cases h₂; cases h₃; rfl

/-- Adding up the tallies of a list adds up each count. -/
theorem foldl_add {α : Type} (f : α → Tally) (xs : List α) (t : Tally) :
    xs.foldl (fun t x => t + f x) t =
      t + ⟨(xs.map fun x => (f x).resolved).sum, (xs.map fun x => (f x).unresolved).sum,
        (xs.map fun x => (f x).reflexive).sum⟩ := by
  induction xs generalizing t with
  | nil => rfl
  | cons x xs ih =>
    rw [List.foldl_cons, ih]
    ext <;> simp [Nat.add_assoc]

end Tally

namespace Resolution

/-- A tally counts the ends of each kind. -/
theorem foldl_tally (rs : List Resolution) (t : Tally) :
    rs.foldl (fun t r => t + r.tally) t =
      t + ⟨(rs.filterMap edge?).length, rs.count .unresolved, rs.count .reflexive⟩ := by
  induction rs generalizing t with
  | nil => rfl
  | cons r rs ih =>
    rw [List.foldl_cons, ih]
    cases r <;> ext <;> simp [tally, edge?, List.filterMap_cons] <;> omega

theorem length_eq_ends (rs : List Resolution) :
    (rs.filterMap edge?).length + rs.count .unresolved + rs.count .reflexive = rs.length := by
  induction rs with
  | nil => rfl
  | cons r rs ih => cases r <;> simp [edge?, List.filterMap_cons] <;> omega

theorem ofName_eq_unresolved_iff {table : SymbolTable} {path : Path} {name : String} :
    ofName table path name = .unresolved ↔ table.owner? name = none := by
  unfold ofName
  split
  next ho => simp [ho]
  next owner ho => split <;> simp [ho]

theorem ofName_eq_reflexive_iff {table : SymbolTable} {path : Path} {name : String} :
    ofName table path name = .reflexive ↔ ∃ owner, table.owner? name = some owner ∧
    owner.same path := by
  unfold ofName
  split
  next ho => simp [ho]
  next owner ho => split <;> simp_all

end Resolution

namespace ReferenceSet

variable {patterns : PatternSet} {table : SymbolTable}

theorem tally_eq (table : SymbolTable) (set : ReferenceSet) : set.tally table =
    ⟨(set.edges table).length, (set.resolutions table).count .unresolved,
      (set.resolutions table).count .reflexive⟩ := by
  rw [tally, Resolution.foldl_tally]
  ext <;> simp [edges]

theorem tally_total (table : SymbolTable) (set : ReferenceSet) :
    (set.tally table).resolved + (set.tally table).unresolved + (set.tally table).reflexive =
      set.size := by
  rw [tally_eq, edges, Resolution.length_eq_ends, resolutions, List.length_map]
  exact set.uses.length_keys

theorem sum_tally_total (table : SymbolTable) (sets : List ReferenceSet) :
    (sets.map fun r => (r.tally table).resolved).sum +
      (sets.map fun r => (r.tally table).unresolved).sum +
      (sets.map fun r => (r.tally table).reflexive).sum = (sets.map size).sum := by
  induction sets with
  | nil => rfl
  | cons set sets ih =>
    have := set.tally_total table
    simp only [List.map_cons, List.sum_cons]
    omega

theorem tally_unresolved (table : SymbolTable) (set : ReferenceSet) :
    (set.tally table).unresolved = set.names.countP fun name => (table.owner? name).isNone := by
  rw [tally_eq, List.count, resolutions, List.countP_map]
  refine List.countP_congr fun name _ => ?_
  simp [Resolution.ofName_eq_unresolved_iff]

/-- What a unit refers to is never its own, for the table of units among which it is. -/
theorem tally_collect_reflexive (units : List SourceUnit) (unit : SourceUnit) :
    ((collect patterns (.build patterns units) unit).tally (.build patterns units)).reflexive =
      0 := by
  rw [tally_eq, List.count_eq_zero]
  intro h
  obtain ⟨name, hn, hr⟩ := List.mem_map.mp h
  obtain ⟨owner, ho, hs⟩ := Resolution.ofName_eq_reflexive_iff.mp hr
  rw [collect_path] at hs
  have declared := SymbolTable.isDeclaredIn_of_owner? ho
  rw [SymbolTable.isDeclaredIn_congr hs, (mem_names_collect.mp hn).2] at declared
  cases declared

end ReferenceSet

end CodeAtlas
