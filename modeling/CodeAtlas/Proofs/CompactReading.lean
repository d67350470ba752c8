import CodeAtlas.Graph.Compact
import CodeAtlas.Proofs.GraphBuilding
import CodeAtlas.Proofs.JsonReading
import CodeAtlas.Proofs.LossyDecoding
import Mathlib.Data.List.Forall2

/-!
# The compact document read back

The text of a graph's compact document is read into a `CompactDocument`, both in the short form and
in the full one. For the graph of a run the document is consistent: its two counts are the lengths
of its two lists, and its edges are those of the graph, in their order, by the places of files in
its own list. No edge is lost on the way, although one whose ends were not vertices would be left
out: the invariant of runs excludes it.

Paths are given back as they are shown in the list of files. An edge has no other spelling in the
document. A path that is a text is found again from how it is shown.
-/
namespace CodeAtlas

open Reader Json

/-- What a compact document says. -/
structure CompactDocument where
  fileCount : Nat
  edgeCount : Nat
  format : String
  files : List (String × Option FileStatus)
  edges : List (Nat × Nat × String)
deriving DecidableEq, Repr

namespace CompactDocument

/-- Takes the two counts and the name of the form. -/
def metaReader : Reader (Nat × Nat × String) := do
  expect "\x7b"
  let files ← field "files" numberComma
  let edges ← field "edges" numberComma
  let format ← field "format" quotedText
  expect "\x7d"
  return (files, edges, format)

/-- Takes a file, with its status in the full form. -/
def fileReader (full : Bool) : Reader (String × Option FileStatus) :=
  if full then do
    expect "\x7b"
    let path ← field "path" quotedText
    expect ","
    let label ← field "status" quotedText
    expect "\x7d"
    let status ← liftM (FileStatus.ofLabel? label)
    return (path, some status)
  else do
    let path ← quotedText
    return (path, none)

/-- Takes an edge: two places and a label. -/
def itemReader : Reader (Nat × Nat × String) := do
  expect "["
  let source ← numberComma
  let target ← numberComma
  let label ← quotedText
  expect "]"
  return (source, target, label)

def reader : Reader CompactDocument := do
  expect "\x7b"
  let (fileCount, edgeCount, format) ← field "meta" metaReader
  expect ","
  let files ← field "files" (arrayOf (fileReader (format == "full")))
  expect ","
  let edges ← field "edges" (arrayOf itemReader)
  expect "\x7d"
  return { fileCount, edgeCount, format, files, edges }

/-- The document that a text writes. -/
def ofText? (s : String) : Option CompactDocument :=
  reader.whole? s

/-- What the document of a graph says. -/
def ofGraph (g : Graph) (full : Bool) : CompactDocument where
  fileCount := g.vertices.length
  edgeCount := g.edges.length
  format := if full then "full" else "compact"
  files := g.vertices.map fun v => (v.path.text, if full then some v.status else none)
  edges := g.edgeItems

/-! ## Every part is read back -/

theorem reads_metaText (files edges : Nat) (format : String) :
    Reads metaReader
      (object [("files", number files), ("edges", number edges), ("format", Json.text format)])
        (files, edges, format) := by
  have parts :
      object [("files", number files), ("edges", number edges), ("format", Json.text format)] =
      "\x7b" ++ ((Json.text "files" ++ ":" ++ (number files ++ ",")) ++
        ((Json.text "edges" ++ ":" ++ (number edges ++ ",")) ++
          ((Json.text "format" ++ ":" ++ Json.text format) ++ "\x7d"))) := by
    simp [object, String.intercalate_cons_cons, String.append_assoc]
  have ends := (reads_expect "\x7d").map fun _ => (files, edges, format)
  rw [parts]
  unfold metaReader
  exact (reads_expect _).bind <| (reads_field _ (reads_number_comma files)).bind <|
    (reads_field _ (reads_number_comma edges)).bind <| (reads_field _ (reads_text format)).bind ends

theorem reads_fileText (full : Bool) (v : Vertex) :
    Reads (fileReader full) (Graph.fileText full v) (v.path.text, if full then some v.status
      else none) := by
  cases full with
  | false => exact (reads_text v.path.text).map fun path =>
    ((path, none) : String × Option FileStatus)
  | true =>
    have parts : Graph.fileText true v =
        "\x7b" ++ ((Json.text "path" ++ ":" ++ Json.text v.path.text) ++ ("," ++
          ((Json.text "status" ++ ":" ++ Json.text v.status.label) ++ ("\x7d" ++ "")))) := by
      simp [Graph.fileText, object, String.intercalate_cons_cons, String.append_assoc]
    have status : FileStatus.ofLabel? v.status.label = some v.status := by
      cases v.status <;> rfl
    have ends : Reads (liftM (FileStatus.ofLabel? v.status.label) >>= fun status =>
        pure (v.path.text, some status) : Reader (String × Option FileStatus)) ""
          (v.path.text, some v.status) := by
      rw [status]
      exact reads_pure (v.path.text, some v.status)
    rw [parts]
    unfold fileReader
    exact (reads_expect _).bind <| (reads_field _ (reads_text _)).bind <| (reads_expect _).bind <|
      (reads_field _ (reads_text _)).bind <| (reads_expect _).bind ends

theorem reads_itemText (item : Nat × Nat × String) :
    Reads itemReader (Graph.itemText item) item := by
  obtain ⟨source, target, label⟩ := item
  have parts : Graph.itemText (source, target, label) =
      "[" ++ ((number source ++ ",") ++ ((number target ++ ",") ++ (Json.text label ++ "]"))) := by
    simp [Graph.itemText, array, String.intercalate_cons_cons, String.append_assoc]
  have ends := (reads_expect "]").map fun _ => (source, target, label)
  rw [parts]
  unfold itemReader
  exact (reads_expect _).bind <| (reads_number_comma _).bind <| (reads_number_comma _).bind <|
    (reads_text _).bind ends

theorem fileReader_refuses_end (full : Bool) (rest : List Char) :
    (fileReader full).run (']' :: rest) = none := by
  cases full with
  | false =>
    apply run_bind_of_refused
    apply run_bind_of_refused
    apply expect_refuses
    simp
  | true =>
    apply run_bind_of_refused
    apply expect_refuses
    simp

theorem itemReader_refuses_end (rest : List Char) : itemReader.run (']' :: rest) = none := by
  apply run_bind_of_refused
  apply expect_refuses
  simp

theorem reads_compactJson (g : Graph) (full : Bool) :
    Reads reader (g.compactJson full) (ofGraph g full) := by
  have format : ((if full then "full" else "compact") == "full") = full := by
    cases full <;> rfl
  have files : Reads (arrayOf (fileReader ((if full then "full" else "compact") == "full")))
      (array (g.vertices.map (Graph.fileText full)))
      (g.vertices.map fun v => (v.path.text, if full then some v.status else none)) := by
    rw [format]
    exact reads_array (fun v _ => reads_fileText full v) (fileReader_refuses_end full)
  have edges : Reads (arrayOf itemReader) (array (g.edgeItems.map Graph.itemText))
      (g.edgeItems.map id) :=
    reads_array (fun item _ => reads_itemText item) itemReader_refuses_end
  rw [List.map_id] at edges
  have ends := (reads_expect "\x7d").map fun _ => ofGraph g full
  have parts : g.compactJson full =
      "\x7b" ++ ((Json.text "meta" ++ ":" ++ object [("files", number g.vertices.length),
          ("edges", number g.edges.length),
          ("format", Json.text (if full then "full" else "compact"))]) ++
        ("," ++ ((Json.text "files" ++ ":" ++ array (g.vertices.map (Graph.fileText full))) ++
          ("," ++ ((Json.text "edges" ++ ":" ++ array (g.edgeItems.map Graph.itemText)) ++
            "\x7d"))))) := by
    rw [Graph.compactJson, object]
    simp only [List.map_cons, List.map_nil, String.intercalate_cons_cons,
      String.intercalate_singleton, String.append_assoc]
  rw [parts]
  unfold reader
  exact (reads_expect _).bind <| (reads_field _ (reads_metaText _ _ _)).bind <|
    (reads_expect _).bind <|
    (reads_field _ files).bind <| (reads_expect _).bind <| (reads_field _ edges).bind ends

end CompactDocument

/-! ## Edges by place -/

namespace Graph

variable {g : Graph}

theorem WellFormed.index?_of_hasVertex (h : g.WellFormed) {p : Path} (hp : g.hasVertex p = true) :
    ∃ i v, g.index? p = some i ∧ g.vertices[i]? = some v ∧ v.path.same p = true := by
  obtain ⟨v, hv, hs⟩ := hasVertex_iff.mp hp
  obtain ⟨i, hi⟩ := List.getElem?_of_mem hv
  exact ⟨i, v, h.index?_eq_some_iff.mpr ⟨v, hi, hs⟩, hi, hs⟩

/-- The places of an item are those of the ends of an edge in a list of files, and its label is that
of the edge. -/
def ItemDenotes (files : List Path) (item : Nat × Nat × String) (e : Edge) : Prop :=
  (∃ p, files[item.1]? = some p ∧ p.same e.source) ∧
    (∃ p, files[item.2.1]? = some p ∧ p.same e.target) ∧
    item.2.2 = e.label

theorem WellFormed.edgeItem?_denotes (h : g.WellFormed) {e : Edge} (he : e ∈ g.orderedEdges) :
    ∃ item, g.edgeItem? e = some item ∧ ItemDenotes (g.vertices.map (·.path)) item e := by
  have joins := h.edges_join e (h.mem_orderedEdges.mp he)
  obtain ⟨i, v, hi, hv, hs⟩ := h.index?_of_hasVertex joins.source
  obtain ⟨j, w, hj, hw, ht⟩ := h.index?_of_hasVertex joins.target
  refine ⟨(i, j, e.label), ?_, ⟨v.path, ?_, hs⟩, ⟨w.path, ?_, ht⟩, rfl⟩
  · simp [edgeItem?, hi, hj]
  · simp [hv]
  · simp [hw]

/-- In a well-formed graph every edge has an item: none is left out. -/
theorem WellFormed.edgeItems_denote (h : g.WellFormed) :
    List.Forall₂ (ItemDenotes (g.vertices.map (·.path))) g.edgeItems g.orderedEdges := by
  have each := fun e (he : e ∈ g.orderedEdges) => h.edgeItem?_denotes he
  unfold edgeItems
  generalize g.orderedEdges = es at each ⊢
  induction es with
  | nil => exact .nil
  | cons e es ih =>
    obtain ⟨item, hitem, denotes⟩ := each e List.mem_cons_self
    rw [List.filterMap_cons_some hitem]
    exact .cons denotes (ih fun e he => each e (List.mem_cons_of_mem _ he))

theorem WellFormed.denotes_of_mem_edgeItems (h : g.WellFormed) {item : Nat × Nat × String}
    (hitem : item ∈ g.edgeItems) : ∃ e, ItemDenotes (g.vertices.map (·.path)) item e := by
  obtain ⟨e, he, of_edge⟩ := List.mem_filterMap.mp hitem
  obtain ⟨item', of_edge', denotes⟩ := h.edgeItem?_denotes he
  rw [of_edge, Option.some.injEq] at of_edge'
  exact ⟨e, of_edge' ▸ denotes⟩

theorem ItemDenotes.below {files : List Path} {item : Nat × Nat × String} {e : Edge}
    (h : ItemDenotes files item e) : item.1 < files.length ∧ item.2.1 < files.length := by
  obtain ⟨⟨p, hp, -⟩, ⟨q, hq, -⟩, -⟩ := h
  exact ⟨(List.getElem?_eq_some_iff.mp hp).1, (List.getElem?_eq_some_iff.mp hq).1⟩

theorem WellFormed.length_edgeItems (h : g.WellFormed) : g.edgeItems.length = g.edges.length := by
  rw [h.edgeItems_denote.length_eq, h.orderedEdges_perm.length_eq]

end Graph

/-- The vertices stand under paths that are texts. -/
def Graph.IsText (g : Graph) : Prop :=
  ∀ v ∈ g.vertices, Text.IsText v.path.bytes

/-- How a document agrees with itself and with a graph. -/
structure CompactDocument.Represents (doc : CompactDocument) (g : Graph) (full : Bool) : Prop where
  files_counted : doc.fileCount = doc.files.length
  edges_counted : doc.edgeCount = doc.edges.length
  files_listed : doc.files = g.vertices.map fun v =>
    (v.path.text, if full then some v.status else none)
  places_below : ∀ item ∈ doc.edges, item.1 < doc.fileCount ∧ item.2.1 < doc.fileCount
  /-- Item by item these are the edges of the graph, in their order. -/
  edges_listed : List.Forall₂ (Graph.ItemDenotes (g.vertices.map (·.path))) doc.edges g.orderedEdges
  /-- So they are by the files of the document, where these are the paths. -/
  edges_found : g.IsText →
    List.Forall₂ (Graph.ItemDenotes (doc.files.map fun file => .ofText file.1))
      doc.edges g.orderedEdges

theorem CompactDocument.files_of_isText {g : Graph} (texts : g.IsText) (full : Bool) :
    (ofGraph g full).files.map (fun file => .ofText file.1) = g.vertices.map (·.path) := by
  simp only [ofGraph, List.map_map]
  exact List.map_congr_left fun v hv => Path.ofText_text (texts v hv)

theorem CompactDocument.represents_ofGraph {g : Graph} (h : g.WellFormed) (full : Bool) :
    (ofGraph g full).Represents g full := by
  refine {
    files_counted := by simp [ofGraph]
    edges_counted := h.length_edgeItems.symm
    files_listed := rfl
    places_below := ?below
    edges_listed := h.edgeItems_denote
    edges_found := fun texts => files_of_isText texts full ▸ h.edgeItems_denote }
  case below =>
    intro item hitem
    obtain ⟨e, denotes⟩ := h.denotes_of_mem_edgeItems hitem
    have below := denotes.below
    rw [List.length_map] at below
    exact below

/-- The full document shows the vertices, with their status, and the items. -/
theorem CompactDocument.ofGraph_inj {g h : Graph} (same : ofGraph g true = ofGraph h true) :
    (g.vertices.map fun v => (v.path.text, v.status)) =
      (h.vertices.map fun v => (v.path.text, v.status)) ∧
      g.edgeItems = h.edgeItems := by
  have files := congrArg CompactDocument.files same
  have edges := congrArg CompactDocument.edges same
  have inj : ∀ v w : String × FileStatus, Prod.map id some v = Prod.map id some w → v = w := by simp
  refine ⟨(List.map_inj_right inj).mp ?_, edges⟩
  rw [List.map_map, List.map_map]
  exact files

theorem Graph.vertices_eq_of_shown {g h : Graph} (here : g.IsText) (there : h.IsText)
    (shown : (g.vertices.map fun v => (v.path.text, v.status)) =
      (h.vertices.map fun v => (v.path.text, v.status))) :
    g.vertices = h.vertices := by
  have back : ∀ {k : Graph}, k.IsText →
      (k.vertices.map fun v => (v.path.text, v.status)).map (fun v => ⟨.ofText v.1, v.2⟩) =
        k.vertices := by
    intro k texts
    rw [List.map_map]
    refine (List.map_congr_left fun v hv => ?_).trans (List.map_id _)
    simp [Path.ofText_text (texts v hv)]
  rw [← back here, shown, back there]

/-- The document of every run can be read off its text, and represents the graph. With the status of
files the text determines the vertices as they are shown, and the items of the edges; where paths
are texts it determines the vertices. -/
theorem Graph.compactJson_lossless (calls : List Graph.Call) :
    let built := fun calls => (GraphBuilder.run calls).build.plain
    (∀ full, ∃ doc, CompactDocument.ofText? ((built calls).compactJson full) = some doc ∧
      doc.Represents (built calls) full) ∧
    ∀ others, (built calls).compactJson true = (built others).compactJson true →
      ((built calls).vertices.map fun v => (v.path.text, v.status)) =
          ((built others).vertices.map fun v => (v.path.text, v.status)) ∧
        (built calls).edgeItems = (built others).edgeItems ∧
        ((built calls).IsText → (built others).IsText →
          (built calls).vertices = (built others).vertices) := by
  intro built
  have read : ∀ calls full, CompactDocument.ofText? ((built calls).compactJson full) =
      some (.ofGraph (built calls) full) :=
    fun calls full => (CompactDocument.reads_compactJson (built calls) full).whole
  have wellFormed : ∀ calls, (built calls).WellFormed := by
    intro calls
    have plain : built calls = run calls := (GraphBuilder.represents_run calls).plain
    exact plain ▸ wellFormed_run calls
  refine ⟨fun full => ?_, fun others same => ?_⟩
  · exact ⟨_, read calls full, CompactDocument.represents_ofGraph (wellFormed calls) full⟩
  · have documents := read calls true
    rw [same, read others true, Option.some.injEq] at documents
    obtain ⟨shown, items⟩ := CompactDocument.ofGraph_inj documents.symm
    exact ⟨shown, items, fun here there => vertices_eq_of_shown here there shown⟩

end CodeAtlas
