import CodeAtlas.Graph

/-!
# Graphs as DOT text

One line for every edge, in the order of `Graph.orderedEdges`. Inside quotation marks a quotation
mark and a backslash are written with a backslash in front; line ends are kept as they are. The name
of the graph is written as it is given.
-/
namespace CodeAtlas.Graph

def isDotSpecial (c : Char) : Bool :=
  c = '"' || c = '\\'

def dotEscape (c : Char) : List Char :=
  if isDotSpecial c then ['\\', c] else [c]

/-- A text in which nothing is to be escaped is taken as it is. -/
def dotEscaped (cs : List Char) : List Char :=
  if cs.any isDotSpecial then cs.flatMap dotEscape else cs

def dotText (s : String) : String :=
  String.ofList ('"' :: dotEscaped s.toList ++ ['"'])

def dotEdge (e : Edge) : String :=
  "  " ++ dotText e.source.text ++ " -> " ++ dotText e.target.text ++ " [label=" ++
    dotText e.label ++ "];\n"

def dot (g : Graph) (name : String := "dependency_map") : String :=
  "digraph " ++ name ++ " \x7b\n" ++ String.join (g.orderedEdges.map dotEdge) ++ "\x7d\n"

end CodeAtlas.Graph
