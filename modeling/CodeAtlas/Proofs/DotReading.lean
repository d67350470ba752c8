import CodeAtlas.Graph.Dot
import CodeAtlas.Proofs.LossyDecoding
import CodeAtlas.Proofs.Reading

/-!
# DOT text read back

Every edge of a graph can be read off its DOT text. A quotation mark or a backslash inside a path or
a label is written behind a backslash, so that nothing which stands in one can end it early, or look
like an arrow, a label or a line of its own. The name of the graph is not escaped and may hold
anything; it has to be known to the reader.
-/
namespace CodeAtlas

namespace Edge

/-- An edge as it is shown: its source, its target and its label. -/
def shown (e : Edge) : String × String × String :=
  (e.source.text, e.target.text, e.label)

def ofShown : String × String × String → Edge
  | (source, target, label) => ⟨.ofText source, .ofText target, label⟩

/-- An edge between paths that are texts. -/
def IsText (e : Edge) : Prop :=
  Text.IsText e.source.bytes ∧ Text.IsText e.target.bytes

theorem ofShown_shown {e : Edge} (h : e.IsText) : ofShown e.shown = e := by
  rw [shown, ofShown, Path.ofText_text h.1, Path.ofText_text h.2]

theorem map_ofShown {es : List Edge} (texts : ∀ e ∈ es, e.IsText) :
    (es.map shown).map ofShown = es := by
  rw [List.map_map]
  exact (List.map_congr_left fun e he => ofShown_shown (texts e he)).trans (List.map_id es)

end Edge

namespace Graph

open Reader

/-- The characters that a text written by `dotEscape` stands for. -/
def dotUnescape : List Char → List Char
  | [] => []
  | '\\' :: c :: rest => c :: dotUnescape rest
  | c :: rest => c :: dotUnescape rest

def dotQuoted : Reader String :=
  quoted fun cs => some (dotUnescape cs)

/-- Takes the line of one edge: its source, its target and its label. -/
def dotEdgeReader : Reader (String × String × String) := do
  expect "  "
  let source ← dotQuoted
  expect " -> "
  let target ← dotQuoted
  expect " [label="
  let label ← dotQuoted
  expect "];\n"
  return (source, target, label)

/-- Takes the text of a graph with this name. -/
def dotReader (name : String) : Reader (List (String × String × String)) := do
  expect ("digraph " ++ name ++ " \x7b\n")
  manyUntil dotEdgeReader "\x7d\n"

/-- The source, target and label of every edge of a DOT text, in its order. -/
def readDot? (name text : String) : Option (List (String × String × String)) :=
  (dotReader name).whole? text

theorem isDotSpecial_iff {c : Char} : isDotSpecial c = true ↔ c = '"' ∨ c = '\\' := by
  simp [isDotSpecial]

/-- Taking a text as it is agrees with escaping it character by character. -/
theorem dotEscaped_eq_flatMap (cs : List Char) : dotEscaped cs = cs.flatMap dotEscape := by
  unfold dotEscaped
  split
  · rfl
  next plain =>
    have each : ∀ c ∈ cs, dotEscape c = [c] := by
      intro c hc
      exact if_neg fun special => plain (List.any_eq_true.mpr ⟨c, hc, special⟩)
    rw [List.flatMap_def, List.map_congr_left each]
    exact (List.flatMap_singleton' cs).symm

theorem seals_dotEscape : Seals dotEscape := by
  intro c rest
  unfold dotEscape
  split
  next special =>
    simp only [List.cons_append, List.nil_append, enclosedFrom]
  next plain =>
    obtain ⟨notQuote, notBackslash⟩ := not_or.mp (mt isDotSpecial_iff.mpr plain)
    exact enclosedFrom_plain notQuote notBackslash rest

theorem dotUnescape_dotEscape_append (c : Char) (rest : List Char) :
    dotUnescape (dotEscape c ++ rest) = c :: dotUnescape rest := by
  unfold dotEscape
  split
  · rfl
  next plain =>
    have notBackslash : c ≠ '\\' := fun h => plain (isDotSpecial_iff.mpr (.inr h))
    rw [List.singleton_append, dotUnescape.eq_def]
    split <;> simp_all

theorem dotUnescape_flatMap (cs : List Char) : dotUnescape (cs.flatMap dotEscape) = cs := by
  induction cs with
  | nil => rfl
  | cons c cs ih => rw [List.flatMap_cons, dotUnescape_dotEscape_append, ih]

theorem reads_dotText (s : String) : Reads dotQuoted (dotText s) s := by
  rw [dotText, dotEscaped_eq_flatMap]
  apply seals_dotEscape.reads_quoted
  intro cs
  rw [dotUnescape_flatMap]

theorem reads_dotEdge (e : Edge) :
    Reads dotEdgeReader (dotEdge e) e.shown := by
  have ends := (reads_expect "];\n").map fun _ => e.shown
  unfold dotEdge dotEdgeReader
  simp only [String.append_assoc]
  exact (reads_expect _).bind <| (reads_dotText _).bind <| (reads_expect _).bind <|
    (reads_dotText _).bind <| (reads_expect _).bind <| (reads_dotText _).bind ends

/-- The line after the last edge is not that of an edge. -/
theorem dotEdgeReader_refuses_end (rest : List Char) :
    dotEdgeReader.run ("\x7d\n".toList ++ rest) = none := by
  apply run_bind_of_refused
  apply expect_refuses
  simp

theorem dotEdge_ne_empty (e : Edge) : dotEdge e ≠ "" := by
  intro h
  have chars := congrArg String.toList h
  simp [dotEdge] at chars

theorem reads_dot (name : String) (g : Graph) :
    Reads (dotReader name) (g.dot name)
      (g.orderedEdges.map Edge.shown) := by
  have lines : Reads (manyUntil dotEdgeReader "\x7d\n")
      (String.join (g.orderedEdges.map dotEdge) ++ "\x7d\n")
      (g.orderedEdges.map Edge.shown) :=
    reads_manyUntil (fun e _ => reads_dotEdge e) (fun e _ => dotEdge_ne_empty e)
      dotEdgeReader_refuses_end
  rw [dot, String.append_assoc]
  exact (reads_expect _).bind lines

/-- The text of a graph can be read back: it determines the edges as they are shown, and their
order. Between paths that are texts these are the edges. -/
theorem dot_determines_edges (name : String) (g : Graph) :
    readDot? name (g.dot name) = some (g.orderedEdges.map Edge.shown) ∧
      ∀ h : Graph, g.dot name = h.dot name →
        g.orderedEdges.map Edge.shown = h.orderedEdges.map Edge.shown ∧
        ((∀ e ∈ g.orderedEdges ++ h.orderedEdges, e.IsText) → g.orderedEdges = h.orderedEdges) := by
  refine ⟨(reads_dot name g).whole, fun h same => ?_⟩
  have read := (reads_dot name g).whole
  rw [same, (reads_dot name h).whole, Option.some.injEq] at read
  refine ⟨read.symm, fun texts => ?_⟩
  obtain ⟨here, there⟩ := List.forall_mem_append.mp texts
  rw [← Edge.map_ofShown here, ← read, Edge.map_ofShown there]

end Graph

end CodeAtlas
