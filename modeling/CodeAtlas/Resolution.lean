import CodeAtlas.Graph
import CodeAtlas.ReferenceSet

/-!
# Resolution

A reference is resolved by asking the symbol table who owns its name. A name without an owner is
unresolved, a name that the referring file owns is reflexive, and any other name gives an edge.
-/
namespace CodeAtlas

/-- How many references came to which end. -/
structure Tally where
  resolved : Nat := 0
  unresolved : Nat := 0
  reflexive : Nat := 0
deriving DecidableEq, Repr

namespace Tally

def add (a b : Tally) : Tally :=
  ⟨a.resolved + b.resolved, a.unresolved + b.unresolved, a.reflexive + b.reflexive⟩

instance : Add Tally := ⟨add⟩

end Tally

/-- What becomes of one reference. -/
inductive Resolution
  | unresolved
  | reflexive
  | edge (e : Edge)
deriving DecidableEq, Repr

namespace Resolution

def ofName (table : SymbolTable) (path : Path) (name : String) : Resolution :=
  match table.owner? name with
  | none => .unresolved
  | some owner => if owner.same path then .reflexive else .edge ⟨path, owner, name⟩

def edge? : Resolution → Option Edge
  | .edge e => some e
  | _ => none

def tally : Resolution → Tally
  | .unresolved => { unresolved := 1 }
  | .reflexive => { reflexive := 1 }
  | .edge _ => { resolved := 1 }

end Resolution

namespace ReferenceSet

/-- The ends of the references of a set, in order of names. -/
def resolutions (table : SymbolTable) (set : ReferenceSet) : List Resolution :=
  set.names.map (Resolution.ofName table set.path)

def edges (table : SymbolTable) (set : ReferenceSet) : List Edge :=
  (set.resolutions table).filterMap Resolution.edge?

def tally (table : SymbolTable) (set : ReferenceSet) : Tally :=
  (set.resolutions table).foldl (fun t r => t + r.tally) {}

end ReferenceSet

end CodeAtlas
