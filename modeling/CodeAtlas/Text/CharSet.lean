/-!
# Sets of characters

A set of characters is kept as the increasing list of code points at which membership changes: the
first bound opens a range, the second closes it before that code point, and so on. Membership is
then a question of parity, and one binary search answers it. Nothing here asks that the bounds
increase; the tables of the modules that use this type do.
-/
namespace CodeAtlas

structure CharSet where
  bounds : Array Nat
deriving DecidableEq, Repr

namespace CharSet

/-- The number of bounds at or below `n`, looked for between positions `lo` and `hi`; `steps` bounds
the number of halvings. -/
def rank (s : CharSet) (n : Nat) : Nat → Nat → Nat → Nat
  | 0, lo, _ => lo
  | steps + 1, lo, hi =>
    if lo < hi then
      let mid := (lo + hi) / 2
      if s.bounds.getD mid 0 ≤ n then rank s n steps (mid + 1) hi else rank s n steps lo mid
    else lo

/-- A character belongs to the set when an odd number of bounds lies at or below its code point. -/
def contains (s : CharSet) (c : Char) : Bool :=
  s.rank c.toNat s.bounds.size 0 s.bounds.size % 2 == 1

end CharSet

end CodeAtlas
