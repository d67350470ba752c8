/-!
# Lines

A text is cut at every newline. A line that a newline ends loses one carriage return before it; the
piece after the last newline is a line of its own when it is not empty, and keeps what it has.
-/
namespace CodeAtlas.Text

def segments (cs : List Char) : List Char × List (List Char) :=
  cs.foldr
    (fun c (first, others) => if c = '\n' then ([], first :: others) else (c :: first, others))
    ([], [])

/-- A line as a newline ends it: one carriage return at its end is not part of it. -/
def dropReturn (cs : List Char) : List Char :=
  if cs.getLast? = some '\r' then cs.dropLast else cs

/-- The pieces that newlines end, and what follows the last newline if there is anything. -/
def lineChars (cs : List Char) : List (List Char) :=
  let pieces := (segments cs).1 :: (segments cs).2
  pieces.dropLast.map dropReturn ++ pieces.getLast?.toList.filter fun last => !last.isEmpty

def lines (text : String) : List String :=
  (lineChars text.toList).map String.ofList

end CodeAtlas.Text
