import CodeAtlas.Corpus
import CodeAtlas.Graph.Builder
import CodeAtlas.Resolution

/-!
# Analysis

From a corpus to its dependency graph: the symbol table of all units, the references of each, the
resolution of these, and a graph whose vertices are the paths of the corpus in order. An edge whose
ends are not both vertices is left out.
-/
namespace CodeAtlas

structure Analysis where
  graph : Graph
  symbols : SymbolTable
  references : List ReferenceSet
  tally : Tally
  missing : List Path
  failures : List LoadFailure

/-- What became of a path: missing if the corpus says so, otherwise failed, otherwise loaded. -/
def Corpus.status (corpus : Corpus) (path : Path) : FileStatus :=
  if corpus.missing.any fun p => p.same path then .missing
  else if corpus.failures.any fun f => f.path.same path then .failed
  else .loaded

def Corpus.vertices (corpus : Corpus) : List Vertex :=
  corpus.order.map fun path => ⟨path, corpus.status path⟩

namespace Analysis

def ofCorpus (patterns : PatternSet) (corpus : Corpus) : Analysis :=
  let symbols := SymbolTable.build patterns corpus.units
  let references := corpus.units.map (ReferenceSet.collect patterns symbols)
  let builder := GraphBuilder.addVertices {} corpus.vertices
  { graph := (builder.addEdges (references.flatMap fun r => r.edges symbols)).build.plain
    symbols
    references
    tally := references.foldl (fun t r => t + r.tally symbols) {}
    missing := corpus.missing
    failures := corpus.failures }

end Analysis

end CodeAtlas
