import CodeAtlas.Text.Utf8

/-!
# Paths

A path is a row of bytes, which need not be a text, and what it stands for is the list of its
components: a leading slash, a leading dot, steps up, and names. Empty components, and dots that do
not lead a relative path, stand for nothing, so `a//b`, `a/./b` and `a/b/` have the components of
`a/b`, while `./a` differs from `a`. A step up is never resolved against the name before it.

Two paths are the same when their components are, however they are spelled, and paths are ordered by
their components. Operations keep the spelling they are given: joining only puts a slash in between,
and taking a base off a path returns a piece of its bytes, without what stands for nothing at its
ends.
-/
namespace CodeAtlas

abbrev Bytes := List UInt8

inductive Component
  | root
  | here
  | up
  | name (bytes : Bytes)
deriving DecidableEq, Repr

namespace Component

def name? : Component → Option Bytes
  | .name bytes => some bytes
  | _ => none

def rank : Component → Nat
  | .root => 0
  | .here => 1
  | .up => 2
  | .name _ => 3

/-- Slash, dot, step up, then names in the order of their bytes. -/
def cmp : Component → Component → Ordering
  | .name a, .name b => compare a b
  | a, b => compare a.rank b.rank

end Component

structure Path where
  bytes : Bytes
deriving DecidableEq, Repr

namespace Path

instance : Inhabited Path := ⟨⟨[]⟩⟩

def ofText (text : String) : Path :=
  ⟨Text.encode text⟩

/-- The path as it is shown, and as it is kept where only a text can be. -/
def text (p : Path) : String :=
  Text.lossy p.bytes

def slash : UInt8 := 47

def dot : UInt8 := 46

def atEnd (rest : Bytes) : Bool :=
  rest.head?.all (· = slash)

/-- What leads a path, a slash or a dot that is a whole component, and the bytes after it. -/
def splitLead : Bytes → Option Component × Bytes
  | [] => (none, [])
  | c :: body =>
    if c = slash then (some .root, body)
    else if c = dot ∧ atEnd body then (some .here, body)
    else (none, c :: body)

def leadBytes : Option Component → Bytes
  | some .root => [slash]
  | some .here => [dot]
  | _ => []

/-- The pieces between slashes, empty ones included. -/
def pieces (body : Bytes) : List Bytes :=
  let split := body.foldr
    (fun c (first, others) => if c = slash then ([], first :: others) else (c :: first, others))
    (([] : Bytes), ([] : List Bytes))
  split.1 :: split.2

/-- An empty piece and a dot stand for nothing. -/
def pieceComponent? (piece : Bytes) : Option Component :=
  if piece = [] ∨ piece = [dot] then none
  else if piece = [dot, dot] then some .up
  else some (.name piece)

def components (p : Path) : List Component :=
  let (lead, body) := splitLead p.bytes
  lead.toList ++ (pieces body).filterMap pieceComponent?

/-- Whether two spellings stand for the same path. -/
def same (p q : Path) : Bool :=
  p.components == q.components

/-- Component by component, and a path before its extensions. -/
def cmpComponents : List Component → List Component → Ordering
  | [], [] => .eq
  | [], _ :: _ => .lt
  | _ :: _, [] => .gt
  | a :: as, b :: bs => (a.cmp b).then (cmpComponents as bs)

def cmp (p q : Path) : Ordering :=
  cmpComponents p.components q.components

def isAbsolute (p : Path) : Bool :=
  p.bytes.head? == some slash

/-- `q` seen from `p`: with a slash in between where one is wanted, and alone if it is absolute. -/
def join (p q : Path) : Path :=
  if q.isAbsolute then q
  else if p.bytes.isEmpty || p.bytes.getLast? == some slash then ⟨p.bytes ++ q.bytes⟩
  else ⟨p.bytes ++ slash :: q.bytes⟩

def descend (p : Path) (names : List Bytes) : Path :=
  names.foldl (fun path name => path.join ⟨name⟩) p

def trimStart : Bytes → Bytes
  | [] => []
  | c :: body => if c = slash ∨ (c = dot ∧ atEnd body) then trimStart body else c :: body

def trimEnd (body : Bytes) : Bytes :=
  (trimStart body.reverse).reverse

/-- The path without its last component; a slash alone and the empty path have none. -/
def parent? (p : Path) : Option Path :=
  let (lead, body) := splitLead p.bytes
  match (trimEnd body).reverse with
  | [] => if lead = some .here then some ⟨[]⟩ else none
  | rest => some ⟨leadBytes lead ++ trimEnd ((rest.dropWhile (· ≠ slash)).drop 1).reverse⟩

def dropPieces : Nat → Bytes → Bytes
  | 0, body => body
  | n + 1, body => dropPieces n (((trimStart body).dropWhile (· ≠ slash)).drop 1)

/-- The bytes of a path after its first `n` components, when there is at least one to leave out. -/
def dropComponents (n : Nat) (cs : Bytes) : Bytes :=
  let (lead, body) := splitLead cs
  trimEnd (trimStart (dropPieces (n - lead.toList.length) body))

def below? (p base : Path) : Option Path :=
  if base.components.isPrefixOf p.components then
    if base.components.isEmpty then
      let (lead, body) := splitLead p.bytes
      some ⟨leadBytes lead ++ trimEnd body⟩
    else
      some ⟨dropComponents base.components.length p.bytes⟩
  else none

/-- The path as seen from a base, or the path itself when it does not lie below it. -/
def relativeTo (p base : Path) : Path :=
  (p.below? base).getD p

/-- The part of a file name after its last dot; a name has none whose only dot leads it. -/
def nameExtension? (name : Bytes) : Option Bytes :=
  let reversed := name.reverse
  match reversed.dropWhile (· ≠ dot) with
  | _ :: _ :: _ => some (reversed.takeWhile (· ≠ dot)).reverse
  | _ => none

def fileName? (p : Path) : Option Bytes :=
  p.components.getLast?.bind Component.name?

def extension? (p : Path) : Option Bytes :=
  p.fileName?.bind nameExtension?

end Path

end CodeAtlas
