import CodeAtlas.SymbolTable

/-!
# Reference sets

The names that a file refers to, each with the ways in which it does. A name that the file declares
itself is not among them.
-/
namespace CodeAtlas

structure ReferenceSet where
  path : Path
  uses : NameMap (List ReferenceKind) := .empty

namespace ReferenceSet

/-- Adds a kind to a list of kinds that is kept in the order of `ReferenceKind.all`. -/
def addKind (kind : ReferenceKind) (kinds : List ReferenceKind) : List ReferenceKind :=
  ReferenceKind.all.filter fun k => k = kind ∨ k ∈ kinds

def insert (set : ReferenceSet) (name : String) (kind : ReferenceKind) : ReferenceSet :=
  { set with uses := set.uses.alter name fun old => addKind kind (old.getD []) }

def contains (set : ReferenceSet) (name : String) : Bool :=
  set.uses.contains name

def kinds? (set : ReferenceSet) (name : String) : Option (List ReferenceKind) :=
  set.uses.get? name

def names (set : ReferenceSet) : List String :=
  set.uses.keys

def size (set : ReferenceSet) : Nat :=
  set.uses.size

def isEmpty (set : ReferenceSet) : Bool :=
  set.uses.isEmpty

/-- The references of a unit, for a table that covers it. -/
def collect (patterns : PatternSet) (table : SymbolTable) (unit : SourceUnit) : ReferenceSet :=
  ReferenceKind.all.foldl
    (fun set kind =>
      ((patterns.references kind unit.text).filter fun name =>
        !table.isDeclaredIn name unit.path).foldl
        (fun set name => set.insert name kind) set)
    { path := unit.path }

end ReferenceSet

end CodeAtlas
