import CodeAtlas.Proofs.AppendedUnit
import CodeAtlas.Proofs.ByteOrder
import Mathlib.Data.Finset.Card
import Mathlib.Data.List.Forall2

/-!
# What a symbol table says of its units

A table is built one unit at a time, and shadowings are recorded against the table so far. A name
that has an owner keeps it, and a name that a unit declares has one from then on, so that the
recorded owners are those of the finished table. The shadowings are then a block for each unit, read
off the finished table.

If the paths of the units are different, each name that a unit declares either gets its owner there
or is shadowed there. So the names that units declare, counted unit by unit, are the owned names and
the shadowings together.
-/
namespace CodeAtlas

namespace NameMap

variable {β : Type}

theorem keys_bytesLt (m : NameMap β) : m.keys.Pairwise BytesLt :=
  m.keys_increasing.imp bytesLt_of_lt

theorem card_keys (m : NameMap β) : m.keys.toFinset.card = m.size := by
  rw [List.toFinset_card_of_nodup m.keys_nodup, length_keys]

end NameMap

namespace SourceUnit

variable {patterns : PatternSet} {unit : SourceUnit}

/-- The names that a unit declares, in order and once each. -/
def declaredNames (patterns : PatternSet) (unit : SourceUnit) : List String :=
  (NameSet.ofNames (patterns.declarations unit.text)).toList

theorem mem_declaredNames {name : String} :
    name ∈ unit.declaredNames patterns ↔ unit.declares patterns name = true := by
  rw [declaredNames, NameSet.mem_toList_ofNames, declares, decide_eq_true_iff]

theorem declaredNames_toFinset (patterns : PatternSet) (unit : SourceUnit) :
    (unit.declaredNames patterns).toFinset = (patterns.declarations unit.text).toFinset := by
  ext name
  rw [List.mem_toFinset, List.mem_toFinset, declaredNames, NameSet.mem_toList_ofNames]

end SourceUnit

namespace SymbolTable

variable {patterns : PatternSet} {table : SymbolTable} {unit : SourceUnit}

/-! ## Names under a path -/

theorem mem_declaredIn {path : Path} {name : String} :
    name ∈ (table.declaredIn path).toList ↔ table.isDeclaredIn name path = true := by
  unfold declaredIn isDeclaredIn
  cases table.declared.get? path with
  | none => simp [NameSet.toList, NameMap.keys, NameMap.empty]
  | some names => exact NameMap.mem_keys_iff

/-! ## Shadowings -/

theorem shadowing?_eq_some_iff {path : Path} {name : String} {s : Shadowing} :
    table.shadowing? path name = some s ↔
      s.name = name ∧ table.owner? name = some s.owner ∧ ¬ s.owner.same path ∧
      s.ignored = path := by
  unfold shadowing? owner?
  cases table.owners.get? name with
  | none => simp
  | some first =>
    dsimp only
    constructor
    · intro h
      split at h
      · cases h
      next different =>
        cases h
        exact ⟨rfl, rfl, different, rfl⟩
    · rintro ⟨rfl, owner, different, rfl⟩
      cases owner
      rw [if_neg different]

/-- What a table says of a name depends on its owner only. -/
theorem shadowing?_congr {table table' : SymbolTable} {name : String}
    (h : table.owner? name = table'.owner? name) (path : Path) :
    table.shadowing? path name = table'.shadowing? path name := by
  unfold owner? at h
  unfold shadowing?
  rw [h]

/-- A unit does not shadow itself: to the names it declares the table says the same after it as
before it. -/
theorem shadowing?_add_self {name : String} (h : unit.declares patterns name = true) :
    (table.add patterns unit).shadowing? unit.path name = table.shadowing? unit.path name := by
  cases owned : table.owner? name with
  | some owner =>
    apply shadowing?_congr
    rw [owner?_add_of_some owned, owned]
  | none =>
    have own : (table.add patterns unit).owner? name = some unit.path := by
      rw [owner?_add, owned, h]
      rfl
    unfold owner? at owned own
    unfold shadowing?
    simp [owned, own, Path.same_refl]

/-- The shadowings that a table has for the names of a unit. -/
def shadowings (patterns : PatternSet) (table : SymbolTable) (unit : SourceUnit) : List Shadowing :=
  (unit.declaredNames patterns).filterMap (table.shadowing? unit.path)

theorem shadowed_add (table : SymbolTable) (unit : SourceUnit) :
    (table.add patterns unit).shadowed = table.shadowed ++ shadowings patterns table unit :=
  rfl

theorem shadowings_add_self (table : SymbolTable) (unit : SourceUnit) :
    shadowings patterns (table.add patterns unit) unit = shadowings patterns table unit :=
  List.filterMap_congr fun _ declared =>
    shadowing?_add_self (SourceUnit.mem_declaredNames.mp declared)

theorem shadowings_add_of_owned {w : SourceUnit}
    (owned : ∀ name, unit.declares patterns name = true → (table.owner? name).isSome = true) :
    shadowings patterns (table.add patterns w) unit = shadowings patterns table unit := by
  refine List.filterMap_congr fun name declared => ?_
  obtain ⟨owner, found⟩ :=
    Option.isSome_iff_exists.mp (owned name (SourceUnit.mem_declaredNames.mp declared))
  apply shadowing?_congr
  rw [owner?_add_of_some found, found]

/-- The shadowings of a table are those that the table has, when it is finished, for one unit after
the other. -/
theorem shadowed_build (units : List SourceUnit) :
    (build patterns units).shadowed =
      units.flatMap (shadowings patterns (build patterns units)) := by
  induction units using List.reverseRecOn with
  | nil => rfl
  | append_singleton us w ih =>
    have earlier : us.flatMap (shadowings patterns ((build patterns us).add patterns w)) =
        us.flatMap (shadowings patterns (build patterns us)) := by
      refine List.flatMap_congr fun u hu => shadowings_add_of_owned fun name declared => ?_
      exact owner?_build_isSome.mpr ⟨u, hu, declared⟩
    rw [build_concat, shadowed_add, List.flatMap_append, List.flatMap_singleton, earlier,
      shadowings_add_self, ih]

/-- The shadowings of one unit, as they are found in a table: in the order of their names, and one
for each name that the unit declares and another file owns. -/
structure IsShadowedBy (patterns : PatternSet) (table : SymbolTable) (unit : SourceUnit)
    (block : List Shadowing) :
    Prop where
  increasing : (block.map (·.name)).Pairwise BytesLt
  mem_iff : ∀ s, s ∈ block ↔ unit.declares patterns s.name = true ∧
      table.owner? s.name = some s.owner ∧
    ¬ s.owner.same unit.path ∧ s.ignored = unit.path

theorem isShadowedBy_shadowings (patterns : PatternSet) (table : SymbolTable) (unit : SourceUnit) :
    IsShadowedBy patterns table unit (shadowings patterns table unit) where
  increasing := by
    rw [List.pairwise_map]
    refine List.Pairwise.filterMap _ ?_ (NameMap.keys_bytesLt _)
    intro a b before s hs t ht
    rw [(shadowing?_eq_some_iff.mp hs).1, (shadowing?_eq_some_iff.mp ht).1]
    exact before
  mem_iff s := by
    unfold shadowings
    simp only [List.mem_filterMap, shadowing?_eq_some_iff, SourceUnit.mem_declaredNames]
    constructor
    · rintro ⟨name, declared, rfl, rest⟩
      exact ⟨declared, rest⟩
    · rintro ⟨declared, rest⟩
      exact ⟨s.name, declared, rfl, rest⟩

/-! ## Counting declared names -/

theorem owned_add (patterns : PatternSet) (table : SymbolTable) (unit : SourceUnit) :
    (table.add patterns unit).owners.keys.toFinset =
      (patterns.declarations unit.text).toFinset ∪ table.owners.keys.toFinset := by
  ext name
  have owner : (table.add patterns unit).owners.get? name = _ := owner?_add table unit name
  rw [List.mem_toFinset, Finset.mem_union, List.mem_toFinset, List.mem_toFinset,
    NameMap.mem_keys_iff, NameMap.mem_keys_iff, owner, owner?]
  by_cases declared : name ∈ patterns.declarations unit.text
  · simp [SourceUnit.declares, declared]
  · simp [SourceUnit.declares, declared]

/-- If the owners so far are other files, a unit is shadowed in each name that it declares and that
has an owner. -/
theorem length_shadowings (owners : ∀ name owner, table.owner? name = some owner →
    ¬ owner.same unit.path) :
    (shadowings patterns table unit).length =
      ((patterns.declarations unit.text).toFinset ∩ table.owners.keys.toFinset).card := by
  have owned : ∀ name, (table.shadowing? unit.path name).isSome =
      decide (name ∈ table.owners.keys) := by
    intro name
    rw [Bool.eq_iff_iff, decide_eq_true_iff, NameMap.mem_keys_iff]
    unfold shadowing?
    cases found : table.owners.get? name with
    | none => simp
    | some owner => simp [owners name owner found]
  have distinct :
      ((unit.declaredNames patterns).filter fun name => decide (name ∈ table.owners.keys)).Nodup :=
    (NameMap.keys_nodup _).filter _
  rw [shadowings, List.length_filterMap_eq_countP]
  simp only [owned]
  rw [List.countP_eq_length_filter, ← List.toFinset_card_of_nodup distinct, List.toFinset_filter,
    SourceUnit.declaredNames_toFinset]
  congr 1
  ext name
  simp

/-- One more unit, under a path of its own, adds as many names and shadowings as it declares
names. -/
theorem size_add_length_shadowed (owners : ∀ name owner, table.owner? name = some owner →
    ¬ owner.same unit.path) :
    (table.add patterns unit).size + (table.add patterns unit).shadowed.length =
      table.size + table.shadowed.length + (patterns.declarations unit.text).toFinset.card := by
  have cards := Finset.card_union_add_card_inter (patterns.declarations unit.text).toFinset
    table.owners.keys.toFinset
  rw [← owned_add, ← length_shadowings owners, NameMap.card_keys, NameMap.card_keys] at cards
  rw [shadowed_add, List.length_append, size, size]
  omega

theorem sum_card_declarations (patterns : PatternSet) {units : List SourceUnit}
    (distinct : units.Pairwise fun u v => ¬ u.path.same v.path) :
    (units.map fun u => (patterns.declarations u.text).toFinset.card).sum =
      (build patterns units).size + (build patterns units).shadowed.length := by
  induction units using List.reverseRecOn with
  | nil => rfl
  | append_singleton us w ih =>
    obtain ⟨earlier, _, fresh⟩ := List.pairwise_append.mp distinct
    have owners : ∀ name owner, (build patterns us).owner? name = some owner →
        ¬ owner.same w.path := by
      intro name owner found
      obtain ⟨u, hu, rfl⟩ := exists_mem_of_owner? found
      exact fresh u hu w (List.mem_singleton_self w)
    rw [List.map_append, List.sum_append, ih earlier, build_concat, size_add_length_shadowed owners]
    simp

/-! ## The content of a table -/

/-- What a table answers, said of its units; paths may be repeated among them, except in the last
part. -/
theorem build_content (patterns : PatternSet) (units : List SourceUnit) :
    let table := build patterns units
    (∀ name, table.owner? name = (units.find? (·.declares patterns name)).map (·.path) ∧
      (table.owner? name = none ↔ ∀ u ∈ units, name ∉ patterns.declarations u.text)) ∧
    (∀ path, (table.declaredIn path).toList.Pairwise BytesLt ∧
      ∀ name, name ∈ (table.declaredIn path).toList ↔
        ∃ u ∈ units, u.path.same path = true ∧ name ∈ patterns.declarations u.text) ∧
    ((table.toList.map (·.1)).Pairwise BytesLt ∧ ∀ e, e ∈ table.toList ↔
      table.owner? e.1 = some e.2) ∧
    (∃ blocks, table.shadowed = blocks.flatten ∧
      List.Forall₂ (IsShadowedBy patterns table) units blocks) ∧
    (units.Pairwise (fun u v => ¬ u.path.same v.path) →
      (units.map fun u => (patterns.declarations u.text).toFinset.card).sum =
        table.size + table.shadowed.length) := by
  intro table
  refine ⟨fun name => ⟨owner?_build units name, ?_⟩, fun path =>
    ⟨NameMap.keys_bytesLt _, fun name => ?_⟩,
    ⟨NameMap.keys_bytesLt _, fun e => NameMap.mem_entries_iff⟩, ?_, sum_card_declarations patterns⟩
  · rw [owner?_build, Option.map_eq_none_iff, List.find?_eq_none]
    simp only [SourceUnit.declares, decide_eq_true_iff]
  · rw [mem_declaredIn, isDeclaredIn_build]
    simp only [SourceUnit.declares, decide_eq_true_iff]
  · refine ⟨units.map (shadowings patterns table), shadowed_build units, ?_⟩
    rw [List.forall₂_map_right_iff, List.forall₂_same]
    exact fun u _ => isShadowedBy_shadowings patterns table u

/-- Three files, with a name declared twice in the first and names of the first declared again in
the others. -/
theorem build_content_of_three_files :
    let patterns : PatternSet := ⟨PatternSet.declarationShape, PatternSet.referenceShape {}⟩
    let units : List SourceUnit :=
      [⟨.ofText "a.gs", "class B {} class A {} class B {}"⟩,
        ⟨.ofText "b.gs", "class C {} class B {}"⟩,
      ⟨.ofText "c.gs", "class B {} class A {}"⟩]
    let table := build patterns units
    units.Pairwise (fun u v => ¬ u.path.same v.path) ∧
      table.toList = [("A", .ofText "a.gs"), ("B", .ofText "a.gs"), ("C", .ofText "b.gs")] ∧
      table.shadowed = [⟨"B", .ofText "a.gs", .ofText "b.gs"⟩,
        ⟨"A", .ofText "a.gs", .ofText "c.gs"⟩, ⟨"B", .ofText "a.gs", .ofText "c.gs"⟩] ∧
      (units.map fun u => (patterns.declarations u.text).toFinset.card).sum =
        table.size + table.shadowed.length := by
  intro patterns units table
  have distinct : units.Pairwise (fun u v => ¬ u.path.same v.path) := by decide
  exact ⟨distinct, by decide +kernel, by decide +kernel,
    (build_content patterns units).2.2.2.2 distinct⟩

end SymbolTable

end CodeAtlas
