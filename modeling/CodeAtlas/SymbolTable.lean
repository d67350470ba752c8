import CodeAtlas.NameMap
import CodeAtlas.PathMap
import CodeAtlas.Pattern
import CodeAtlas.SourceUnit

/-!
# Symbol tables

The units of a program are read in order. The first unit that declares a name owns it; a later unit
under another path that declares it too is shadowed, which the table records. For every path the
table also keeps the names declared there, so that a file is never said to depend on another for a
name of its own. Units under the same path count as one file.
-/
namespace CodeAtlas

/-- A declaration that came too late: `owner` had declared the name before `ignored` did. -/
structure Shadowing where
  name : String
  owner : Path
  ignored : Path
deriving DecidableEq, Repr

structure SymbolTable where
  owners : NameMap Path := .empty
  declared : PathMap NameSet := .empty
  shadowed : List Shadowing := []

namespace SymbolTable

def shadowing? (table : SymbolTable) (path : Path) (name : String) : Option Shadowing :=
  match table.owners.get? name with
  | none => none
  | some owner => if owner.same path then none else some ⟨name, owner, path⟩

def add (patterns : PatternSet) (table : SymbolTable) (unit : SourceUnit) : SymbolTable :=
  let names := NameSet.ofNames (patterns.declarations unit.text)
  { owners := names.toList.foldl (fun owners name => owners.insertNew name unit.path) table.owners
    declared := table.declared.alter unit.path fun old => (old.getD .empty).union names
    shadowed := table.shadowed ++ names.toList.filterMap (table.shadowing? unit.path) }

def build (patterns : PatternSet) (units : List SourceUnit) : SymbolTable :=
  units.foldl (add patterns) {}

def owner? (table : SymbolTable) (name : String) : Option Path :=
  table.owners.get? name

/-- Whether some unit under this path declares the name. -/
def isDeclaredIn (table : SymbolTable) (name : String) (path : Path) : Bool :=
  (table.declared.get? path).any fun names => names.contains name

def declaredIn (table : SymbolTable) (path : Path) : NameSet :=
  (table.declared.get? path).getD .empty

def toList (table : SymbolTable) : List (String × Path) :=
  table.owners.entries

def size (table : SymbolTable) : Nat :=
  table.owners.size

def isEmpty (table : SymbolTable) : Bool :=
  table.owners.isEmpty

end SymbolTable

end CodeAtlas
