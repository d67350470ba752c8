import CodeAtlas.Graph
import CodeAtlas.PathMap

/-!
# Building a graph

While a graph is built it is kept four times over: its vertices, its edges with the places of their
ends, a map from paths to places, and the set of the edges so far, by which a repeated one is found.
A call that adds a vertex or an edge has to keep the four in step. What has been built is an
`IndexedGraph`, which answers by the map and the places; `IndexedGraph.plain` is the graph that it
stands for.
-/
namespace CodeAtlas

/-- The order of edges in a set: by source, then by target, then by label. -/
def Edge.cmp (a b : Edge) : Ordering :=
  (a.source.cmp b.source).then ((a.target.cmp b.target).then (compare a.label b.label))

/-- A set of edges, listed in increasing order. -/
abbrev EdgeSet := List Edge

namespace EdgeSet

def contains (e : Edge) : EdgeSet → Bool
  | [] => false
  | a :: rest =>
    match e.cmp a with
    | .lt => false
    | .eq => true
    | .gt => contains e rest

def insert (e : Edge) : EdgeSet → EdgeSet
  | [] => [e]
  | a :: rest =>
    match e.cmp a with
    | .lt => e :: a :: rest
    | .eq => a :: rest
    | .gt => a :: insert e rest

end EdgeSet

/-- A stored edge, with the places of its ends among the vertices. -/
structure Link where
  source : Nat
  target : Nat
  edge : Edge
deriving DecidableEq, Repr

structure IndexedGraph where
  vertices : List Vertex := []
  links : List Link := []
  places : PathMap Nat := .empty

namespace IndexedGraph

def edges (g : IndexedGraph) : List Edge :=
  g.links.map Link.edge

def plain (g : IndexedGraph) : Graph :=
  ⟨g.vertices, g.edges⟩

def vertex? (g : IndexedGraph) (path : Path) : Option Vertex := do
  let i ← g.places.get? path
  g.vertices[i]?

/-- The edges out of a file, by target and label; they are found from the latest to the earliest. -/
def outgoing (g : IndexedGraph) (path : Path) : List Edge :=
  match g.places.get? path with
  | none => []
  | some i => ((g.links.reverse.filter fun l => l.source = i).map Link.edge).mergeSort Edge.before

def orderedEdges (g : IndexedGraph) : List Edge :=
  g.vertices.flatMap fun v => g.outgoing v.path

def hasEdge (g : IndexedGraph) (e : Edge) : Bool :=
  g.edges.any e.same

end IndexedGraph

structure GraphBuilder where
  graph : IndexedGraph := {}
  seen : EdgeSet := []

namespace GraphBuilder

def index? (b : GraphBuilder) (path : Path) : Option Nat :=
  b.graph.places.get? path

/-- Adds a vertex unless its path has a place, and returns the place of that path. -/
def addVertex (b : GraphBuilder) (v : Vertex) : GraphBuilder × Nat :=
  match b.index? v.path with
  | some i => (b, i)
  | none =>
    let i := b.graph.vertices.length
    let vertices := b.graph.vertices ++ [v]
    let places := b.graph.places.insert v.path i
    ({ b with graph := { b.graph with vertices, places } }, i)

/-- Adds an edge that is no loop and has not been seen, if both of its ends have places, and returns
the place of the edge. -/
def addEdge (b : GraphBuilder) (e : Edge) : GraphBuilder × Option Nat :=
  if e.source.same e.target || b.seen.contains e then (b, none)
  else
    match b.index? e.source with
    | none => (b, none)
    | some source =>
      match b.index? e.target with
      | none => (b, none)
      | some target =>
        let b := { b with seen := b.seen.insert e }
        let links := b.graph.links ++ [⟨source, target, e⟩]
        ({ b with graph := { b.graph with links } }, some b.graph.links.length)

def addVertices (b : GraphBuilder) (vs : List Vertex) : GraphBuilder :=
  vs.foldl (fun b v => (b.addVertex v).1) b

def addEdges (b : GraphBuilder) (es : List Edge) : GraphBuilder :=
  es.foldl (fun b e => (b.addEdge e).1) b

def build (b : GraphBuilder) : IndexedGraph :=
  b.graph

end GraphBuilder

end CodeAtlas
