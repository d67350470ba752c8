import CodeAtlas.NameMap
import CodeAtlas.Pattern
import CodeAtlas.SourceUnit
import CodeAtlas.Text.Line

/-!
# Call sites

A line calls a name where the name stands behind a word boundary, followed by an opening
parenthesis, perhaps with white space in between. Lines are counted, not calls, over all files of an
index.

The index remembers the counts it has given. A name too long for a pattern has no count, and nothing
is remembered of it.
-/
namespace CodeAtlas

inductive CallSiteError
  | nameTooLong
deriving DecidableEq, Repr

def CallSiteError.message : CallSiteError → String
  | .nameTooLong => patternTooBig

structure CallSiteIndex where
  files : List SourceUnit
  known : NameMap Nat := .empty

namespace CallSiteIndex

def callPieces (name : String) : List Piece :=
  [.boundary, .literal name.toList, .spaces, .literal ['(']]

def nameFits [PatternLimit] (name : String) : Bool :=
  PatternLimit.fits (callPieces name)

def calls (name line : String) : Bool :=
  Piece.occur (callPieces name) none line.toList

def countLines (pieces : List Piece) (text : String) : Nat :=
  (Text.lines text).countP fun line => Piece.occur pieces none line.toList

def total (files : List SourceUnit) (name : String) : Nat :=
  let pieces := callPieces name
  files.foldl (fun n file => n + countLines pieces file.text) 0

/-- The number of lines that call a name, and the index that remembers it. -/
def count [PatternLimit] (index : CallSiteIndex) (name : String) :
    Except CallSiteError Nat × CallSiteIndex :=
  match index.known.get? name with
  | some n => (.ok n, index)
  | none =>
    if nameFits name then
      let n := total index.files name
      (.ok n, { index with known := index.known.insert name n })
    else (.error .nameTooLong, index)

end CallSiteIndex

end CodeAtlas
