import CodeAtlas.Graph
import CodeAtlas.Json

/-!
# Graphs as compact JSON

The document lists the files once and refers to them by place: an edge is the place of its source,
the place of its target, and its label. In the full form every file comes with its status.
-/
namespace CodeAtlas.Graph

def edgeItem? (g : Graph) (e : Edge) : Option (Nat × Nat × String) := do
  let source ← g.index? e.source
  let target ← g.index? e.target
  return (source, target, e.label)

def edgeItems (g : Graph) : List (Nat × Nat × String) :=
  g.orderedEdges.filterMap g.edgeItem?

def fileText (full : Bool) (v : Vertex) : String :=
  if full then Json.object [("path", Json.text v.path.text), ("status", Json.text v.status.label)]
  else Json.text v.path.text

def itemText (item : Nat × Nat × String) : String :=
  Json.array [Json.number item.1, Json.number item.2.1, Json.text item.2.2]

/-- The document, with the status of every file if `full`. -/
def compactJson (g : Graph) (full : Bool := false) : String :=
  Json.object [
    ("meta", Json.object [
      ("files", Json.number g.vertices.length),
      ("edges", Json.number g.edges.length),
      ("format", Json.text (if full then "full" else "compact"))]),
    ("files", Json.array (g.vertices.map (fileText full))),
    ("edges", Json.array (g.edgeItems.map itemText))]

end CodeAtlas.Graph
