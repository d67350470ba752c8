import CodeAtlas.Path

/-!
# Source units

One file of source text, under the path by which it was asked for.
-/
namespace CodeAtlas

structure SourceUnit where
  path : Path
  text : String
deriving DecidableEq, Repr

end CodeAtlas
