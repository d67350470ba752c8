import CodeAtlas.Proofs.NameMapLookup
import CodeAtlas.Proofs.PathOrder
import CodeAtlas.SymbolTable

/-!
# Who owns a name

The symbol table of a list of units, read off the list: the owner of a name is the path of the first
unit that declares it, and a path declares a name when one of the units under it does. The two are
linked: an owner declares what it owns, which is why a file is never found to depend on itself.
-/
namespace CodeAtlas

/-- Whether a unit declares a name. -/
def SourceUnit.declares (patterns : PatternSet) (name : String) (unit : SourceUnit) : Bool :=
  name ∈ patterns.declarations unit.text

/-- Whether a unit refers to a name, in whatever way. -/
def SourceUnit.refersTo (patterns : PatternSet) (name : String) (unit : SourceUnit) : Prop :=
  ∃ kind, name ∈ patterns.references kind unit.text

namespace SymbolTable

variable {patterns : PatternSet}

theorem owner?_add (table : SymbolTable) (unit : SourceUnit) (name : String) :
    (table.add patterns unit).owner? name =
      (table.owner? name).or (if unit.declares patterns name then some unit.path else none) := by
  rw [owner?, add, NameMap.get?_foldl_insertNew]
  simp [NameSet.mem_toList_ofNames, SourceUnit.declares, owner?]

/-- The table so far comes first, then the units in their order. -/
theorem owner?_foldl_add (units : List SourceUnit) (table : SymbolTable) (name : String) :
    (units.foldl (add patterns) table).owner? name =
      (table.owner? name).or ((units.find? (·.declares patterns name)).map (·.path)) := by
  induction units generalizing table with
  | nil => simp
  | cons unit units ih =>
    rw [List.foldl_cons, ih, owner?_add, List.find?_cons]
    cases unit.declares patterns name <;> cases table.owner? name <;> simp

theorem owner?_build (units : List SourceUnit) (name : String) :
    (build patterns units).owner? name =
      (units.find? (·.declares patterns name)).map (·.path) := by
  rw [build, owner?_foldl_add]
  rfl

theorem isDeclaredIn_add (table : SymbolTable) (unit : SourceUnit) (name : String) (path : Path) :
    (table.add patterns unit).isDeclaredIn name path = true ↔
      table.isDeclaredIn name path = true ∨
        (unit.path.same path = true ∧ unit.declares patterns name = true) := by
  unfold isDeclaredIn
  rw [add]
  dsimp only
  rw [PathMap.get?_alter]
  cases same : unit.path.same path with
  | false => simp
  | true =>
    rw [if_pos rfl, table.declared.get?_congr same, Option.any_some, NameSet.contains_union,
      NameSet.contains_ofNames]
    cases table.declared.get? path with
    | none => simp [SourceUnit.declares, NameMap.contains, NameMap.get?, NameMap.empty]
    | some names => simp [SourceUnit.declares]

theorem isDeclaredIn_foldl_add (units : List SourceUnit) (table : SymbolTable) (name : String)
    (path : Path) : (units.foldl (add patterns) table).isDeclaredIn name path = true ↔
      table.isDeclaredIn name path = true ∨
        ∃ unit ∈ units, unit.path.same path = true ∧ unit.declares patterns name = true := by
  induction units generalizing table with
  | nil => simp
  | cons unit units ih =>
    rw [List.foldl_cons, ih, isDeclaredIn_add, or_assoc]
    simp

theorem isDeclaredIn_build {units : List SourceUnit} {name : String} {path : Path} :
    (build patterns units).isDeclaredIn name path = true ↔
      ∃ unit ∈ units, unit.path.same path = true ∧ unit.declares patterns name = true := by
  rw [build, isDeclaredIn_foldl_add]
  simp [isDeclaredIn, PathMap.get?, PathMap.empty]

theorem owner?_build_isSome {units : List SourceUnit} {name : String} :
    ((build patterns units).owner? name).isSome = true ↔
      ∃ unit ∈ units, unit.declares patterns name = true := by
  rw [owner?_build, Option.isSome_map, List.find?_isSome]

/-- An owner declares what it owns. -/
theorem isDeclaredIn_of_owner? {units : List SourceUnit} {name : String} {path : Path}
    (h : (build patterns units).owner? name = some path) :
    (build patterns units).isDeclaredIn name path = true := by
  rw [owner?_build] at h
  obtain ⟨unit, hf, rfl⟩ := Option.map_eq_some_iff.mp h
  refine isDeclaredIn_build.mpr ⟨unit, List.mem_of_find?_eq_some hf, Path.same_refl _, ?_⟩
  exact List.find?_some hf

theorem isDeclaredIn_congr {table : SymbolTable} {name : String} {p q : Path}
    (h : p.same q = true) :
    table.isDeclaredIn name p = table.isDeclaredIn name q := by
  rw [isDeclaredIn, isDeclaredIn, table.declared.get?_congr h]

end SymbolTable

end CodeAtlas
