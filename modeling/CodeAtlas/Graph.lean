import CodeAtlas.Path

/-!
# Dependency graphs

The vertices of a graph are files, each with what became of it when it was loaded. An edge says that
its source refers to the name on its label and that its target owns that name. Paths are compared by
their components, so a file is a vertex once, however it is spelled.

Edges are listed by source, in the order of the vertices, and under one source by target and label.
How a graph is built is left to `CodeAtlas.Graph.Builder`.
-/
namespace CodeAtlas

inductive FileStatus
  | loaded
  | missing
  | failed
deriving DecidableEq, Repr

namespace FileStatus

def label : FileStatus → String
  | .loaded => "loaded"
  | .missing => "missing"
  | .failed => "failed"

def ofLabel? (s : String) : Option FileStatus :=
  [loaded, missing, failed].find? fun status => status.label == s

end FileStatus

structure Vertex where
  path : Path
  status : FileStatus
deriving DecidableEq, Repr

structure Edge where
  source : Path
  target : Path
  label : String
deriving DecidableEq, Repr

/-- Whether two edges join the same files under the same label. -/
def Edge.same (a b : Edge) : Bool :=
  a.source.same b.source && a.target.same b.target && a.label == b.label

/-- The order of edges under one source: by target, then by label. -/
def Edge.before (a b : Edge) : Bool :=
  ((a.target.cmp b.target).then (compare a.label b.label)).isLE

structure Graph where
  vertices : List Vertex := []
  edges : List Edge := []
deriving DecidableEq, Repr

namespace Graph

def index? (g : Graph) (path : Path) : Option Nat :=
  g.vertices.findIdx? fun v => v.path.same path

def vertex? (g : Graph) (path : Path) : Option Vertex :=
  g.vertices.find? fun v => v.path.same path

def hasVertex (g : Graph) (path : Path) : Bool :=
  g.vertices.any fun v => v.path.same path

def hasEdge (g : Graph) (e : Edge) : Bool :=
  g.edges.any e.same

/-- The edges out of a file, by target and label; none if it is not a vertex. -/
def outgoing (g : Graph) (path : Path) : List Edge :=
  (g.edges.filter fun e => e.source.same path).mergeSort Edge.before

/-- All edges, by source in the order of the vertices, then by target and label. -/
def orderedEdges (g : Graph) : List Edge :=
  g.vertices.flatMap fun v => g.outgoing v.path

end Graph

end CodeAtlas
