import CodeAtlas.Audit.Markdown
import CodeAtlas.Proofs.AuditTraversal

/-!
# The lines of a Markdown audit

Nothing in a document is escaped, so a name or a signature stands there as it is. What keeps the
lines apart is how they begin: a line is empty or has one of the leads of `LineKind`, and no lead
begins with another. As long as nothing that is shown has a newline of its own, the text cut at its
newlines is `AuditReport.documentLines`, and the lines that begin with a lead are those that were
written with it, whatever follows.
-/
namespace CodeAtlas

/-! ## Lines of a text -/

namespace Text

/-- A text without newlines. -/
def OneLine (text : String) : Prop :=
  '\n' ∉ text.toList

instance (text : String) : Decidable (OneLine text) :=
  inferInstanceAs (Decidable ('\n' ∉ text.toList))

theorem oneLine_append {a b : String} : OneLine (a ++ b) ↔ OneLine a ∧ OneLine b := by
  rw [OneLine, String.toList_append, List.mem_append, not_or]
  rfl

theorem oneLine_intercalate {separator : String} (h : OneLine separator) {pieces : List String}
    (plain : ∀ piece ∈ pieces, OneLine piece) : OneLine (separator.intercalate pieces) := by
  induction pieces with
  | nil =>
    rw [String.intercalate_nil]
    decide
  | cons piece pieces ih =>
    rw [List.forall_mem_cons] at plain
    cases pieces with
    | nil =>
      rw [String.intercalate_singleton]
      exact plain.1
    | cons next pieces =>
      rw [String.intercalate_cons_cons, oneLine_append, oneLine_append]
      exact ⟨⟨plain.1, h⟩, ih plain.2⟩

/-- A text cut at every newline. -/
def splitLines (text : String) : List String :=
  (text.toList.splitOn '\n').map String.ofList

theorem splitLines_intercalate {lines : List String} (filled : lines ≠ [])
    (plain : ∀ line ∈ lines, OneLine line) : splitLines ("\n".intercalate lines) = lines := by
  have joined : ("\n".intercalate lines).toList = ['\n'].intercalate (lines.map String.toList) :=
    String.toList_intercalate
  rw [splitLines, joined, List.splitOn_intercalate, List.map_map]
  · simp [Function.comp_def]
  · intro chars hchars
    obtain ⟨line, hline, rfl⟩ := List.mem_map.mp hchars
    exact plain line hline
  · simpa using filled

/-- Whether a line begins with a lead. -/
def begins (lead line : String) : Bool :=
  lead.toList.isPrefixOf line.toList

theorem begins_iff {lead line : String} : begins lead line = true ↔ lead.toList <+: line.toList :=
  List.isPrefixOf_iff_prefix

@[simp] theorem begins_empty (line : String) : begins "" line = true :=
  rfl

theorem begins_append (lead more rest : String) : begins (lead ++ more) (lead ++ rest) =
    begins more rest := by
  rw [Bool.eq_iff_iff, begins_iff, begins_iff, String.toList_append, String.toList_append,
    List.prefix_append_right_inj]

/-- The lines of a text that begin with a lead. -/
def linesBeginning (lead text : String) : List String :=
  (splitLines text).filter (begins lead)

end Text

/-! ## Numbers -/

theorem Decimal.isDigit_of_mem_padded {n m : Nat} {c : Char}
    (h : c ∈ List.replicate n '0' ++ digitsOf m) :
    c.isDigit = true := by
  rcases List.mem_append.mp h with zero | digit
  · rw [List.eq_of_mem_replicate zero]
    decide
  · exact Nat.isDigit_of_mem_toDigits (by decide) (by decide) digit

theorem Decimal.mem_fixed {places num den : Nat} {c : Char} (h : c ∈ fixed places num den) :
    c.isDigit = true ∨ c = '.' := by
  unfold fixed at h
  simp only [List.mem_append, List.mem_singleton] at h
  rcases h with (whole | point) | fraction
  · exact .inl (isDigit_of_mem_padded (List.mem_of_mem_take whole))
  · exact .inr point
  · exact .inl (isDigit_of_mem_padded (List.mem_of_mem_drop fraction))

theorem Text.oneLine_percentText (part whole : Nat) : OneLine (percentText part whole) := by
  rw [percentText, OneLine, String.toList_ofList]
  intro newline
  rcases Decimal.mem_fixed newline with digit | point
  · exact absurd digit (by decide)
  · exact absurd point (by decide)

theorem Text.oneLine_toString (n : Nat) : OneLine (toString n) := by
  have digits : (toString n).toList = Nat.toDigits 10 n := String.toList_ofList
  rw [OneLine, digits]
  intro newline
  exact absurd (Nat.isDigit_of_mem_toDigits (by decide) (by decide) newline) (by decide)

/-! ## Leads -/

namespace Markdown

open Text

/-- How the lines of a document begin. -/
inductive LineKind
  | heading
  | columns
  | rule
  | filesAudited
  | totalFunctions
  | orphaned
  | flagged
  | note
  | file
  | lines
  | records
  | function
  | signature
  | wiredUp
  | healthFlags
deriving DecidableEq

namespace LineKind

def lead : LineKind → String
  | .heading => "## "
  | .columns => "| Metric | Count |"
  | .rule => "|--------|-------|"
  | .filesAudited => "| **Total Files Audited** | "
  | .totalFunctions => "| **Total Functions Analyzed** | "
  | .orphaned => "| **Orphaned Functions** | "
  | .flagged => "| **Functions with Health Flags** | "
  | .note => "**NOTE:** "
  | .file => "### FILE: "
  | .lines => "**LINES:** "
  | .records => "**FUNCTIONS:** "
  | .function => "#### FUNCTION: "
  | .signature => "**SIGNATURE:** `"
  | .wiredUp => "**WIRED-UP:** "
  | .healthFlags => "**HEALTH FLAGS:** "

def all : List LineKind :=
  [.heading, .columns, .rule, .filesAudited, .totalFunctions, .orphaned, .flagged, .note,
    .file, .lines, .records, .function, .signature, .wiredUp, .healthFlags]

theorem mem_all (kind : LineKind) : kind ∈ all := by
  cases kind <;> decide

/-- No lead is empty or broken, and none begins with another. -/
theorem leads_apart : ∀ kind ∈ all, OneLine kind.lead ∧ kind.lead.toList ≠ [] ∧
    ∀ other ∈ all, kind.lead.toList <+: other.lead.toList → kind = other := by
  decide +kernel

theorem oneLine_lead (kind : LineKind) : OneLine kind.lead :=
  (leads_apart kind kind.mem_all).1

theorem lead_ne_nil (kind : LineKind) : kind.lead.toList ≠ [] :=
  (leads_apart kind kind.mem_all).2.1

theorem eq_of_lead_isPrefix {kind other : LineKind} (h : kind.lead.toList <+: other.lead.toList) :
    kind = other :=
  (leads_apart kind kind.mem_all).2.2 other other.mem_all h

/-- Whatever follows two leads, a line with one of them does not begin with the other. -/
theorem eq_of_begins {kind other : LineKind} {more rest : String}
    (h : begins (kind.lead ++ more) (other.lead ++ rest) = true) : kind = other := by
  rw [begins_iff, String.toList_append, String.toList_append] at h
  have first := (List.prefix_append kind.lead.toList more.toList).trans h
  have second := List.prefix_append other.lead.toList rest.toList
  rcases List.prefix_or_prefix_of_prefix first second with shorter | longer
  · exact eq_of_lead_isPrefix shorter
  · exact (eq_of_lead_isPrefix longer).symm

end LineKind

/-- A line of a document: empty, or what stands behind a lead. -/
inductive Line
  | blank
  | headed (kind : LineKind) (content : String)

namespace Line

def text : Line → String
  | .blank => ""
  | .headed kind content => kind.lead ++ content

def content : Line → String
  | .blank => ""
  | .headed _ content => content

/-- What stands behind a lead on this line. -/
def behind? (kind : LineKind) : Line → Option String
  | .blank => none
  | .headed other content => if other = kind then some content else none

theorem oneLine_text {line : Line} (h : OneLine line.content) : OneLine line.text := by
  cases line with
  | blank => exact h
  | headed kind content => exact oneLine_append.mpr ⟨kind.oneLine_lead, h⟩

/-- A line begins with a lead exactly when it was written with it. -/
theorem begins_text (line : Line) (kind : LineKind) (more : String) :
    begins (kind.lead ++ more) line.text = (line.behind? kind).any (begins more) := by
  cases line with
  | blank =>
    rw [behind?, Option.any_none, ← Bool.not_eq_true, begins_iff, String.toList_append]
    intro h
    have empty := List.append_eq_nil_iff.mp (List.prefix_nil.mp h)
    exact kind.lead_ne_nil empty.1
  | headed other content =>
    rw [text, behind?]
    by_cases same : other = kind
    · rw [if_pos same, same, begins_append, Option.any_some]
    · rw [if_neg same, Option.any_none, ← Bool.not_eq_true]
      intro h
      exact same (LineKind.eq_of_begins h).symm

theorem text_of_behind {line : Line} {kind : LineKind} {content : String}
    (h : line.behind? kind = some content) :
    line.text = kind.lead ++ content := by
  cases line with
  | blank => cases h
  | headed other rest =>
    rw [behind?] at h
    split at h
    next same => rw [text, same, Option.some.inj h]
    next => cases h

theorem text_eq_iff {line : Line} {kind : LineKind} {content : String} :
    line.text = kind.lead ++ content ↔ line.behind? kind = some content := by
  refine ⟨fun h => ?_, text_of_behind⟩
  have first : begins (kind.lead ++ "") line.text = true := by
    rw [h, begins_append, begins_empty]
  rw [begins_text] at first
  cases found : line.behind? kind with
  | none =>
    rw [found] at first
    cases first
  | some rest =>
    have spelled := (text_of_behind found).symm.trans h
    rw [← String.toList_inj, String.toList_append, String.toList_append, List.append_cancel_left_eq,
      String.toList_inj] at spelled
    rw [spelled]

end Line

/-- What stands behind a lead, line by line. -/
def contents (kind : LineKind) (lines : List Line) : List String :=
  lines.filterMap (Line.behind? kind)

@[simp] theorem contents_nil (kind : LineKind) : contents kind [] = [] :=
  rfl

@[simp] theorem contents_cons_blank (kind : LineKind) (lines : List Line) :
    contents kind (.blank :: lines) = contents kind lines :=
  rfl

@[simp] theorem contents_cons_headed (kind other : LineKind) (content : String)
    (lines : List Line) :
    contents kind (.headed other content :: lines) =
      if other = kind then content :: contents kind lines else contents kind lines := by
  unfold contents
  by_cases same : other = kind <;> simp [Line.behind?, same]

@[simp] theorem contents_append (kind : LineKind) (first second : List Line) :
    contents kind (first ++ second) = contents kind first ++ contents kind second :=
  List.filterMap_append

@[simp] theorem contents_flatMap {α : Type} (kind : LineKind) (items : List α)
    (lines : α → List Line) :
    contents kind (items.flatMap lines) = items.flatMap fun a => contents kind (lines a) := by
  induction items with
  | nil => rfl
  | cons a items ih => rw [List.flatMap_cons, List.flatMap_cons, contents_append, ih]

/-- The lines that begin with a lead, and with more behind it, are those that have the lead and the
rest. -/
theorem filter_begins (kind : LineKind) (more : String) (lines : List Line) :
    (lines.map Line.text).filter (begins (kind.lead ++ more)) =
      ((contents kind lines).filter (begins more)).map (kind.lead ++ ·) := by
  induction lines with
  | nil => rfl
  | cons line lines ih =>
    have tail : contents kind (line :: lines) = (line.behind? kind).toList ++
        contents kind lines := by
      rw [contents, List.filterMap_cons]
      cases line.behind? kind <;> rfl
    rw [List.map_cons, List.filter_cons, ih, Line.begins_text, tail]
    cases found : line.behind? kind with
    | none => rfl
    | some content =>
      rw [Line.text_of_behind found, Option.any_some, Option.toList_some, List.singleton_append,
        List.filter_cons]
      split <;> rfl

/-- The lines that are a given text are those that have its lead and its rest. -/
theorem count_text (kind : LineKind) (content : String) (lines : List Line) :
    (lines.map Line.text).count (kind.lead ++ content) = (contents kind lines).count content := by
  rw [contents, List.count_filterMap, List.count, List.countP_map]
  apply List.countP_congr
  intro line _
  rw [Function.comp_apply, beq_iff_eq, beq_iff_eq, Line.text_eq_iff]

/-! ## Blocks -/

/-- Blocks that are joined by newlines make up these lines. -/
structure Spells (blocks : List String) (lines : List Line) : Prop where
  nil_iff : blocks = [] ↔ lines = []
  text_eq : "\n".intercalate blocks = "\n".intercalate (lines.map Line.text)

theorem Spells.append {first second : List String} {lines lines' : List Line}
    (h : Spells first lines) (h' : Spells second lines') :
    Spells (first ++ second) (lines ++ lines') := by
  -- a newline stands between the two unless one of them is empty
  by_cases empty : first = []
  · rw [empty, h.nil_iff.mp empty]
    exact h'
  by_cases empty' : second = []
  · rw [empty', h'.nil_iff.mp empty', List.append_nil, List.append_nil]
    exact h
  refine ⟨iff_of_false (by simp [empty]) (by simp [mt h.nil_iff.mpr empty]), ?_⟩
  rw [List.map_append, String.intercalate_append_of_ne_nil empty empty',
    String.intercalate_append_of_ne_nil (by simpa using mt h.nil_iff.mpr empty)
      (by simpa using mt h'.nil_iff.mpr empty'), h.text_eq, h'.text_eq]

theorem spells_nil : Spells [] [] :=
  ⟨by simp, rfl⟩

theorem spells_flatMap {α : Type} {blocks : α → List String} {lines : α → List Line}
    (h : ∀ a, Spells (blocks a) (lines a)) (items : List α) :
    Spells (items.flatMap blocks) (items.flatMap lines) := by
  induction items with
  | nil => exact spells_nil
  | cons a items ih =>
    rw [List.flatMap_cons, List.flatMap_cons]
    exact (h a).append ih

def summaryLines (s : AuditSummary) : List Line :=
  [ .blank,
    .headed .heading "AUDIT SUMMARY",
    .blank,
    .headed .columns "",
    .headed .rule "",
    .headed .filesAudited (toString s.filesAudited ++ " |"),
    .headed .totalFunctions (toString s.totalFunctions ++ " |"),
    .headed .orphaned (toString s.orphaned ++ " (" ++ s.orphanedPercent ++ "%) |"),
    .headed .flagged (toString s.flagged ++ " (" ++ s.flaggedPercent ++ "%) |"),
    .blank,
    .headed .note ("This automated audit provides high-level analysis. " ++
      "Manual code review recommended for critical functions."),
    .blank ]

/-- What is said of the calls of a function. -/
def wiring (f : FunctionAudit) : String :=
  if f.isOrphaned then "ORPHANED - no references found"
    else toString f.callSites ++ " call site(s) found"

/-- What is said of the health of a function. -/
def health (f : FunctionAudit) : String :=
  if f.flags.isEmpty then "None" else "; ".intercalate f.flags

def functionLines (f : FunctionAudit) : List Line :=
  [ .blank,
    .headed .function f.name,
    .headed .lines (toString f.line ++ "+"),
    .headed .signature (f.signature ++ "`"),
    .headed .wiredUp (wiring f),
    .headed .healthFlags (health f),
    .blank ]

def fileLines (file : FileAudit) : List Line :=
  [ .blank,
    .headed .file file.path,
    .headed .lines (toString file.lineCount),
    .headed .records (toString file.recordCount),
    .blank ] ++
  file.functions.flatMap functionLines

def folderLines (folder : String) (files : List FileAudit) : List Line :=
  if files.isEmpty then []
  else [.blank, .headed .heading (Text.upperCase folder ++ " FOLDER"), .blank] ++
    files.flatMap fileLines

theorem spells_function (f : FunctionAudit) :
    Spells (AuditReport.functionBlocks f) (functionLines f) := by
  refine ⟨by simp [AuditReport.functionBlocks, functionLines], ?_⟩
  have lead : "\n#### FUNCTION: " = "\n" ++ "#### FUNCTION: " := by decide
  have wired : (if f.isOrphaned then "**WIRED-UP:** ORPHANED - no references found"
      else "**WIRED-UP:** " ++ toString f.callSites ++ " call site(s) found") =
        "**WIRED-UP:** " ++ wiring f := by
    unfold wiring
    split
    · decide
    · rw [String.append_assoc]
  have flags : (if f.flags.isEmpty then "**HEALTH FLAGS:** None"
      else "**HEALTH FLAGS:** " ++ "; ".intercalate f.flags) =
        "**HEALTH FLAGS:** " ++ health f := by
    unfold health
    split
    · decide
    · rfl
  rw [AuditReport.functionBlocks, wired, flags, lead]
  simp only [functionLines, List.map_cons, List.map_nil, Line.text, LineKind.lead,
    String.intercalate_cons_cons, String.intercalate_singleton, String.append_assoc,
    String.empty_append, String.append_empty]

theorem spells_file (file : FileAudit) : Spells (AuditReport.fileBlocks file) (fileLines file) := by
  refine Spells.append ⟨by simp, ?_⟩ (spells_flatMap spells_function file.functions)
  have lead : "\n### FILE: " = "\n" ++ "### FILE: " := by decide
  rw [lead]
  simp only [List.map_cons, List.map_nil, Line.text, LineKind.lead, String.intercalate_cons_cons,
    String.intercalate_singleton, String.append_assoc, String.empty_append, String.append_empty]

theorem spells_folder (folder : String) (files : List FileAudit) :
    Spells (AuditReport.folderBlocks folder files) (folderLines folder files) := by
  unfold AuditReport.folderBlocks folderLines
  split
  · exact spells_nil
  · rw [← List.singleton_append]
    refine Spells.append ⟨by simp, ?_⟩ (spells_flatMap spells_file files)
    have lead : "\n## " = "\n" ++ "## " := by decide
    have last : " FOLDER\n" = " FOLDER" ++ "\n" := by decide
    rw [lead, last]
    simp only [List.map_cons, List.map_nil, Line.text, LineKind.lead, String.intercalate_cons_cons,
      String.intercalate_singleton, String.append_assoc, String.empty_append, String.append_empty]

theorem spells_summary (s : AuditSummary) :
    Spells [AuditReport.summaryBlock s] (summaryLines s) := by
  refine ⟨by simp [summaryLines], ?_⟩
  have opening : "\n## AUDIT SUMMARY\n\n| Metric | Count |\n|--------|-------|\n" =
      "\n" ++ ("## " ++ ("AUDIT SUMMARY" ++ ("\n" ++ ("\n" ++ ("| Metric | Count |" ++ ("\n" ++
        ("|--------|-------|" ++ "\n"))))))) := by decide +kernel
  have cell : " |\n" = " |" ++ "\n" := by decide
  have share : "%) |\n" = "%) |" ++ "\n" := by decide
  have note : "\n**NOTE:** This automated audit provides high-level analysis. " =
      "\n" ++ ("**NOTE:** " ++ "This automated audit provides high-level analysis. ") := by
        decide +kernel
  have closing : "Manual code review recommended for critical functions.\n" =
      "Manual code review recommended for critical functions." ++ "\n" := by decide +kernel
  unfold AuditReport.summaryBlock
  simp only [opening, cell, share, note, closing, summaryLines, List.map_cons,
    List.map_nil, Line.text, LineKind.lead, String.intercalate_cons_cons,
    String.intercalate_singleton, String.append_assoc, String.empty_append, String.append_empty]

end Markdown

namespace AuditReport

open Text Markdown

/-- The document line by line. -/
def documentLines (report : AuditReport) : List Line :=
  summaryLines report.summary ++ report.folders.entries.flatMap fun (folder, files) =>
    folderLines folder files

theorem markdown_eq (report : AuditReport) :
    report.markdown = "\n".intercalate (report.documentLines.map Line.text) := by
  have folders :=
    spells_flatMap (fun entry : String × List FileAudit => spells_folder entry.1 entry.2)
    report.folders.entries
  exact ((spells_summary report.summary).append folders).text_eq

/-- Nothing that is shown of a report has a newline in it. -/
structure Unbroken (report : AuditReport) : Prop where
  folders : ∀ folder ∈ report.folders.keys, OneLine (Text.upperCase folder)
  paths : ∀ file ∈ report.files, OneLine file.path
  names : ∀ f ∈ report.functions, OneLine f.name
  signatures : ∀ f ∈ report.functions, OneLine f.signature
  flags : ∀ f ∈ report.functions, ∀ flag ∈ f.flags, OneLine flag

end AuditReport

namespace Markdown

open Text

theorem oneLine_summaryLines (s : AuditSummary) : ∀ line ∈ summaryLines s,
    OneLine line.content := by
  have cell (n : Nat) : OneLine (toString n ++ " |") :=
    oneLine_append.mpr ⟨oneLine_toString n, by decide⟩
  have share (n part whole : Nat) :
      OneLine (toString n ++ " (" ++ percentText part whole ++ "%) |") := by
    simp only [oneLine_append]
    exact ⟨⟨⟨oneLine_toString n, by decide⟩, oneLine_percentText part whole⟩, by decide⟩
  simp only [summaryLines, List.forall_mem_cons, Line.content]
  exact ⟨by decide, by decide, by decide, by decide, by decide, cell _, cell _, share _ _ _,
    share _ _ _, by decide, oneLine_append.mpr ⟨by decide +kernel, by decide +kernel⟩, by decide,
    by simp⟩

theorem oneLine_functionLines {f : FunctionAudit} (name : OneLine f.name)
    (signature : OneLine f.signature) (flags : ∀ flag ∈ f.flags, OneLine flag) :
    ∀ line ∈ functionLines f, OneLine line.content := by
  have wired : OneLine (wiring f) := by
    unfold wiring
    split
    · decide
    · exact oneLine_append.mpr ⟨oneLine_toString _, by decide⟩
  have healthy : OneLine (health f) := by
    unfold health
    split
    · decide
    · exact oneLine_intercalate (by decide) flags
  simp only [functionLines, List.forall_mem_cons, Line.content]
  exact ⟨by decide, name, oneLine_append.mpr ⟨oneLine_toString _, by decide⟩,
    oneLine_append.mpr ⟨signature, by decide⟩, wired, healthy, by decide, by simp⟩

end Markdown

namespace AuditReport

open Text Markdown

theorem Unbroken.oneLine_fileLines {report : AuditReport} (h : report.Unbroken) {file : FileAudit}
    (hfile : file ∈ report.files) : ∀ line ∈ fileLines file, OneLine line.content := by
  rw [fileLines, List.forall_mem_append]
  constructor
  · simp only [List.forall_mem_cons, Line.content]
    exact ⟨by decide, h.paths file hfile, oneLine_toString _, oneLine_toString _,
      by decide, by simp⟩
  · intro line hline
    obtain ⟨f, hf, hline⟩ := List.mem_flatMap.mp hline
    have shown : f ∈ report.functions := List.mem_flatMap.mpr ⟨file, hfile, hf⟩
    exact oneLine_functionLines (h.names f shown) (h.signatures f shown)
      (h.flags f shown) line hline

theorem Unbroken.oneLine_documentLines {report : AuditReport} (h : report.Unbroken) :
    ∀ line ∈ report.documentLines, OneLine line.content := by
  rw [documentLines, List.forall_mem_append]
  refine ⟨oneLine_summaryLines report.summary, ?_⟩
  intro line hline
  obtain ⟨⟨folder, files⟩, hentry, hline⟩ := List.mem_flatMap.mp hline
  dsimp only [folderLines] at hline
  split at hline
  · cases hline
  · rcases List.mem_append.mp hline with heading | below
    · have name : folder ∈ report.folders.keys := List.mem_map.mpr ⟨_, hentry, rfl⟩
      have all : ∀ line ∈ [Line.blank, .headed .heading (Text.upperCase folder ++ " FOLDER"),
          .blank], OneLine line.content := by
        simp only [List.forall_mem_cons, Line.content]
        exact ⟨by decide, oneLine_append.mpr ⟨h.folders folder name, by decide⟩, by decide, by simp⟩
      exact all line heading
    · obtain ⟨file, hfile, hline⟩ := List.mem_flatMap.mp below
      have values : files ∈ report.folders.values := List.mem_map.mpr ⟨_, hentry, rfl⟩
      exact h.oneLine_fileLines (List.mem_flatten.mpr ⟨files, values, hfile⟩) line hline

theorem Unbroken.splitLines_markdown {report : AuditReport} (h : report.Unbroken) :
    splitLines report.markdown = report.documentLines.map Line.text := by
  rw [markdown_eq, splitLines_intercalate]
  · simp [documentLines, summaryLines]
  · intro text htext
    obtain ⟨line, hline, rfl⟩ := List.mem_map.mp htext
    exact Line.oneLine_text (h.oneLine_documentLines line hline)

/-! ## What stands behind the leads -/

/-- Below the summary, folder names stand in headings only. -/
theorem contents_documentLines (report : AuditReport) {kind : LineKind} (other : kind ≠ .heading) :
    contents kind report.documentLines = contents kind (summaryLines report.summary) ++
      report.files.flatMap fun file => contents kind (fileLines file) := by
  have folder (entry : String × List FileAudit) : contents kind (folderLines entry.1 entry.2) =
      entry.2.flatMap fun file => contents kind (fileLines file) := by
    unfold folderLines
    split
    next empty => simp [List.isEmpty_iff.mp empty]
    next => simp [other.symm]
  have listed : report.files = report.folders.entries.flatMap Prod.snd := List.flatMap_def.symm
  rw [documentLines, contents_append, contents_flatMap, listed, List.flatMap_assoc]
  simp only [folder]

/-- A line that every function has and that stands nowhere else. -/
theorem contents_of_function {kind : LineKind} {shown : FunctionAudit → String}
    (summary : ∀ s, contents kind (summaryLines s) = [])
    (lines : ∀ file, contents kind (fileLines file) = file.functions.map shown)
    (other : kind ≠ .heading) (report : AuditReport) : contents kind report.documentLines =
      report.functions.map shown := by
  rw [contents_documentLines report other, summary, List.nil_append, functions, List.map_flatMap]
  simp only [lines]

/-- A line of the summary that stands nowhere else. -/
theorem contents_of_summary {kind : LineKind} (lines : ∀ file, contents kind (fileLines file) = [])
    (other : kind ≠ .heading) (report : AuditReport) :
    contents kind report.documentLines = contents kind (summaryLines report.summary) := by
  rw [contents_documentLines report other]
  simp [lines]

theorem contents_file (report : AuditReport) :
    contents .file report.documentLines = report.files.map FileAudit.path := by
  have lines (file : FileAudit) : contents .file (fileLines file) = [file.path] := by
    simp [fileLines, functionLines]
  rw [contents_documentLines report (by decide), List.map_eq_flatMap]
  simp [lines, summaryLines]

theorem contents_function : ∀ report : AuditReport,
    contents .function report.documentLines = report.functions.map FunctionAudit.name :=
  contents_of_function (by simp [summaryLines])
    (by simp [fileLines, functionLines, List.map_eq_flatMap]) (by decide)

theorem contents_wiredUp : ∀ report : AuditReport,
    contents .wiredUp report.documentLines = report.functions.map wiring :=
  contents_of_function (by simp [summaryLines])
    (by simp [fileLines, functionLines, List.map_eq_flatMap]) (by decide)

theorem contents_healthFlags : ∀ report : AuditReport,
    contents .healthFlags report.documentLines = report.functions.map health :=
  contents_of_function (by simp [summaryLines])
    (by simp [fileLines, functionLines, List.map_eq_flatMap]) (by decide)

namespace Unbroken

variable {report : AuditReport}

/-- The lines of the document that begin with a lead, and with more behind it. -/
theorem linesBeginning_append (h : report.Unbroken) (kind : LineKind) (more : String) :
    linesBeginning (kind.lead ++ more) report.markdown =
      ((contents kind report.documentLines).filter (begins more)).map (kind.lead ++ ·) := by
  rw [linesBeginning, h.splitLines_markdown, filter_begins]

theorem linesBeginning_lead (h : report.Unbroken) (kind : LineKind) :
    linesBeginning kind.lead report.markdown = (contents kind report.documentLines).map
      (kind.lead ++ ·) := by
  have all := h.linesBeginning_append kind ""
  rw [String.append_empty] at all
  rw [all, List.filter_eq_self.mpr fun content _ => begins_empty content]

theorem count_splitLines (h : report.Unbroken) (kind : LineKind) (content : String) :
    (splitLines report.markdown).count (kind.lead ++ content) =
      (contents kind report.documentLines).count content := by
  rw [h.splitLines_markdown, count_text]

end Unbroken

end AuditReport

end CodeAtlas
