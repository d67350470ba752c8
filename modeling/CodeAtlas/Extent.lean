/-!
# Extents of functions

How far a function reaches is found by counting braces. The search looks at a window of the lines:
from the one where the function is declared to five hundred lines further on. The count begins with
the first line that holds an opening brace, and stops, at the second line counted or later, where as
many braces have been closed as opened, or at the end of the window.

The extent keeps the place where the window starts and the number of lines counted. Lines before the
first brace are not counted but the body is taken from the start, so it ends that much early.
-/
namespace CodeAtlas

structure Extent where
  start : Nat
  length : Nat
deriving DecidableEq, Repr

namespace Extent

/-- How many lines after the first one the search looks at. -/
def reach : Nat := 500

def opens (line : String) : Bool :=
  line.toList.contains '{'

/-- Opening braces less closing ones. -/
def balance (line : String) : Int :=
  (line.toList.count '{' : Int) - (line.toList.count '}' : Int)

/-- The lines to look at for a function declared at `line`, the first line being 1. -/
def window (lines : List String) (line : Nat) : List String :=
  (lines.take (line + reach)).drop (line - 1)

/-- The number of lines up to the one that closes what was opened; `taken` lines with balance
`depth` came before. -/
def closing (depth : Int) (taken : Nat) : List String → Nat
  | [] => taken
  | line :: rest =>
    if depth + balance line = 0 ∧ 0 < taken then taken + 1
    else closing (depth + balance line) (taken + 1) rest

def count (window : List String) : Nat :=
  closing 0 0 (window.dropWhile fun line => !opens line)

def ofLine (lines : List String) (line : Nat) : Extent :=
  ⟨line - 1, count (window lines line)⟩

/-- `ofLine` where line numbers are words of sixty-four bits and the end of the window wraps
around. -/
def ofWord (lines : List String) (line : UInt64) : Extent :=
  let start := if line = 0 then 0 else line - 1
  let stop := min (line + UInt64.ofNat reach).toNat lines.length
  ⟨start.toNat, count ((lines.take stop).drop start.toNat)⟩

def body (e : Extent) (lines : List String) : List String :=
  (lines.take (e.start + e.length)).drop e.start

end Extent

end CodeAtlas
