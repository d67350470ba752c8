import CodeAtlas.Text.Space
import CodeAtlas.Text.Word

/-!
# Shapes of source text

A shape is a sequence of pieces that must be read one after the other. Every piece takes as much of
the text as it can. No two neighbouring pieces of the shapes in this library compete for a
character, so reading never has to go back: it misses no way of sharing a text out among the pieces,
as `Shape.isSome_read?_iff_of_apart` says. One piece of a shape is its name: the text that an
occurrence of the shape is about.

`Shape.names` lists the names of the occurrences from left to right. An occurrence starts at the
first place, at or after the end of the one before, where the shape can be read; occurrences never
overlap.
-/
namespace CodeAtlas

inductive Piece
  /-- a word boundary; takes nothing -/
  | boundary
  | literal (text : List Char)
  /-- white space, perhaps none -/
  | spaces
  /-- at least one character of white space -/
  | gap
  /-- a single or a double quotation mark -/
  | quote
  /-- a capital letter of ASCII and all letters, digits and underscores after it -/
  | name
  /-- a run of letters, digits and underscores of ASCII, not empty -/
  | key
  /-- a run of word characters, not empty -/
  | word
  /-- everything before the next closing parenthesis -/
  | arguments
deriving DecidableEq, Repr

namespace Piece

def run (p : Char → Bool) (cs : List Char) : List Char × List Char :=
  (cs.takeWhile p, cs.dropWhile p)

/-- The longest run, refused when it is empty. -/
def run? (p : Char → Bool) (cs : List Char) : Option (List Char × List Char) :=
  if (cs.takeWhile p).isEmpty then none else some (run p cs)

/-- Reads a piece at the start of a text, `before` being the character in front of it. The answer is
what the piece takes and what it leaves. -/
def read? (before : Option Char) (cs : List Char) : Piece → Option (List Char × List Char)
  | .boundary => if Text.isBoundary before cs.head? then some ([], cs) else none
  | .literal text => if text.isPrefixOf cs then some (text, cs.drop text.length) else none
  | .spaces => some (run Text.isSpace cs)
  | .gap => run? Text.isSpace cs
  | .quote =>
    match cs with
    | c :: rest => if c = '\'' ∨ c = '"' then some ([c], rest) else none
    | [] => none
  | .name =>
    match cs with
    | c :: _ => if c.isUpper then some (run Text.isIdentifier cs) else none
    | [] => none
  | .key => run? Text.isIdentifier cs
  | .word => run? Text.isWord cs
  | .arguments => some (run (· ≠ ')') cs)

def readAll? : List Piece → Option Char → List Char → Option (List Char × List Char)
  | [], _, cs => some ([], cs)
  | piece :: pieces, before, cs => do
    let (taken, rest) ← piece.read? before cs
    let (more, rest) ← readAll? pieces (taken.getLast?.or before) rest
    return (taken ++ more, rest)

def literalSize : Piece → Nat
  | .literal text => (String.ofList text).utf8ByteSize
  | _ => 0

end Piece

/-- The pieces before the name, the name, and the pieces after it. -/
structure Shape where
  lead : List Piece
  name : Piece
  trail : List Piece
deriving DecidableEq, Repr

namespace Shape

def pieces (s : Shape) : List Piece :=
  s.lead ++ s.name :: s.trail

/-- Reads a shape at the start of a text: its name, and the number of characters it takes. -/
def read? (s : Shape) (before : Option Char) (cs : List Char) : Option (List Char × Nat) := do
  let (lead, rest) ← Piece.readAll? s.lead before cs
  let before := lead.getLast?.or before
  let (name, rest) ← s.name.read? before rest
  let (trail, _) ← Piece.readAll? s.trail (name.getLast?.or before) rest
  return (name, lead.length + name.length + trail.length)

/-- The names found so far, in reverse, are `found`; `skip` characters still belong to the last
occurrence. -/
def namesFrom (s : Shape) (found : List String) :
    Nat → Option Char → List Char → List String
  | _, _, [] => found.reverse
  | skip + 1, _, c :: cs => namesFrom s found skip (some c) cs
  | 0, before, c :: cs =>
    match s.read? before (c :: cs) with
    | some (name, taken) => namesFrom s (String.ofList name :: found) (taken - 1) (some c) cs
    | none => namesFrom s found 0 (some c) cs

def names (s : Shape) (text : String) : List String :=
  s.namesFrom [] 0 none text.toList

def nameAtStart? (s : Shape) (text : String) : Option String :=
  (s.read? none text.toList).map fun r => String.ofList r.1

end Shape

def Piece.occur (pieces : List Piece) : Option Char → List Char → Bool
  | before, [] => (Piece.readAll? pieces before []).isSome
  | before, c :: cs =>
    (Piece.readAll? pieces before (c :: cs)).isSome || Piece.occur pieces (some c) cs

end CodeAtlas
