import CodeAtlas.Audit
import CodeAtlas.Proofs.CallSiteCount

/-!
# The report as a traversal

An audit goes through the inventory once, with one index of call sites that it hands on and one
report that it adds to. Since the index always answers for the same files, the audit of a file does
not depend on which files came before, and the report is the sequence of `Audit.placedFiles`, each
put under its folder. A folder holds the files that were put there, in their order, and the figures
of the summary are those that a walk through the folders counts.
-/
namespace CodeAtlas

theorem AuditCorpus.keyedRecords?_eq_some {root : Path} {unit : SourceUnit}
    {entry : String × List Record} :
    keyedRecords? root unit = some entry ↔
      Inventory.extract unit.text ≠ [] ∧
        (Inventory.key root unit.path, Inventory.extract unit.text) = entry := by
  simp [keyedRecords?]

/-- The audit of the function of a record, in a file of these lines and called from these files. -/
def FunctionAudit.ofRecord [PatternLimit] (rules : HealthRules) (files : List SourceUnit)
    (lines : List String) (record : Record) : FunctionAudit :=
  match CallSiteIndex.answer files record.simpleName with
  | .ok n => ⟨record.name, record.line, record.signature, n,
      (rules.check lines record.line).map HealthFlag.message⟩
  | .error e =>
    ⟨record.name, record.line, record.signature, 0, [(HealthFlag.analysisError e.message).message]⟩

namespace Audit

open CallSiteIndex

variable {index : CallSiteIndex} {files : List SourceUnit}

theorem auditFunction_eq [PatternLimit] (h : index.Serves files) (rules : HealthRules)
    (lines : List String) (record : Record) : auditFunction rules lines record index =
      (.ofRecord rules files lines record, (index.count record.simpleName).2) := by
  have counted := h.count_eq record.simpleName
  unfold auditFunction FunctionAudit.ofRecord
  rw [← counted]
  obtain ⟨answer, after⟩ := index.count record.simpleName
  cases answer <;> rfl

theorem foldl_auditFunction [PatternLimit] (h : index.Serves files) (rules : HealthRules)
    (lines : List String) (records : List Record) (audits : List FunctionAudit) :
    ∃ index' : CallSiteIndex, index'.Serves files ∧
      records.foldl (fun (audits, index) record =>
        let (audit, index) := auditFunction rules lines record index
        (audits ++ [audit], index)) (audits, index) =
      (audits ++ records.map (.ofRecord rules files lines), index') := by
  induction records generalizing index audits with
  | nil => exact ⟨index, h, by simp⟩
  | cons record records ih =>
    obtain ⟨index', serves, rest⟩ :=
      ih (h.count record.simpleName) (audits ++ [.ofRecord rules files lines record])
    refine ⟨index', serves, ?_⟩
    rw [List.append_assoc, List.singleton_append, ← List.map_cons] at rest
    have first : (match auditFunction rules lines record index with
        | (audit, index) => (audits ++ [audit], index)) =
        (audits ++ [.ofRecord rules files lines record], (index.count record.simpleName).2) := by
      rw [auditFunction_eq h]
    rw [← first] at rest
    exact rest

theorem auditFunctions_eq [PatternLimit] (h : index.Serves files) (rules : HealthRules)
    (lines : List String) (records : List Record) : ∃ index' : CallSiteIndex, index'.Serves files ∧
      auditFunctions rules lines records index =
        (records.map (.ofRecord rules files lines), index') := by
  obtain ⟨index', serves, audits⟩ := foldl_auditFunction h rules lines records []
  rw [List.nil_append] at audits
  refine ⟨index', serves, ?_⟩
  unfold auditFunctions
  exact audits

/-- The folder of the file that has a key. -/
def folderOfKey (root sourceDir : Path) (key : String) : String :=
  folderOf sourceDir (root.join (.ofText key))

end Audit

/-- The audit of a file that has these records under its key. -/
def FileAudit.ofEntry [PatternLimit] (rules : HealthRules) (files : List SourceUnit)
    (texts : NameMap String) (entry : String × List Record) : FileAudit :=
  let lines := Text.lines ((texts.get? entry.1).getD "")
  ⟨entry.1, lines.length, entry.2.length,
    (entry.2.filter fun r => r.kind ≠ .classDecl).map (.ofRecord rules files lines)⟩

namespace AuditReport

/-- The files under a folder. -/
def filesIn (report : AuditReport) (folder : String) : List FileAudit :=
  (report.folders.get? folder).getD []

/-- The files of all folders, folder by folder. -/
def files (report : AuditReport) : List FileAudit :=
  report.folders.values.flatten

/-- The functions of all files. -/
def functions (report : AuditReport) : List FunctionAudit :=
  report.files.flatMap (·.functions)

def addFiles (report : AuditReport) (placed : List (String × FileAudit)) : AuditReport :=
  placed.foldl (fun report p => report.addFile p.1 p.2) report

theorem addFiles_append (report : AuditReport) (first second : List (String × FileAudit)) :
    report.addFiles (first ++ second) = (report.addFiles first).addFiles second :=
  List.foldl_append

end AuditReport

namespace Audit

open CallSiteIndex

variable {index : CallSiteIndex} {files : List SourceUnit}

/-- The audit of an entry with its folder, unless that is skipped. -/
def placed? [PatternLimit] (config : AuditConfig) (root sourceDir : Path) (files : List SourceUnit)
    (texts : NameMap String) (entry : String × List Record) : Option (String × FileAudit) :=
  let folder := folderOfKey root sourceDir entry.1
  if config.skipDirs.contains folder then none
  else some (folder, .ofEntry ⟨config.largeFunctionLines⟩ files texts entry)

theorem placed?_eq_some [PatternLimit] {config : AuditConfig} {root sourceDir : Path}
    {files : List SourceUnit} {texts : NameMap String} {entry : String × List Record}
    {p : String × FileAudit} :
    placed? config root sourceDir files texts entry = some p ↔
      p.1 ∉ config.skipDirs ∧ p.1 = folderOfKey root sourceDir entry.1 ∧
        p.2 = .ofEntry ⟨config.largeFunctionLines⟩ files texts entry := by
  obtain ⟨folder, file⟩ := p
  unfold placed?
  generalize folderOfKey root sourceDir entry.1 = own
  by_cases same : own = folder
  · subst same
    by_cases kept : own ∈ config.skipDirs <;> simp [kept, eq_comm]
  · by_cases kept : own ∈ config.skipDirs <;> simp [kept, same, Ne.symm same]

/-- The audits that make up the report on a corpus, in the order in which they are added. -/
def placedFiles [PatternLimit] (config : AuditConfig) (root : Path) (corpus : AuditCorpus) :
    List (String × FileAudit) :=
  corpus.inventory.entries.filterMap
    (placed? config root corpus.sourceDir corpus.files (textsByKey root corpus.files))

theorem auditFile_eq [PatternLimit] (h : index.Serves files) (config : AuditConfig)
    (root sourceDir : Path) (texts : NameMap String) (report : AuditReport)
    (entry : String × List Record) :
    ∃ index' : CallSiteIndex, index'.Serves files ∧
      auditFile config root sourceDir texts (report, index) entry =
        (report.addFiles (placed? config root sourceDir files texts entry).toList, index') := by
  obtain ⟨key, records⟩ := entry
  unfold auditFile placed? folderOfKey
  dsimp only
  split
  · exact ⟨index, h, rfl⟩
  · obtain ⟨index', serves, audits⟩ := auditFunctions_eq h ⟨config.largeFunctionLines⟩
      (Text.lines ((texts.get? key).getD "")) (records.filter fun r => r.kind ≠ .classDecl)
    refine ⟨index', serves, ?_⟩
    rw [audits]
    rfl

theorem foldl_auditFile [PatternLimit] (h : index.Serves files) (config : AuditConfig)
    (root sourceDir : Path) (texts : NameMap String) (report : AuditReport)
    (entries : List (String × List Record)) :
    (entries.foldl (auditFile config root sourceDir texts) (report, index)).1 =
      report.addFiles (entries.filterMap (placed? config root sourceDir files texts)) := by
  induction entries generalizing index report with
  | nil => rfl
  | cons entry entries ih =>
    obtain ⟨index', serves, first⟩ := auditFile_eq h config root sourceDir texts report entry
    rw [List.foldl_cons, first, ih serves, ← AuditReport.addFiles_append]
    cases hp : placed? config root sourceDir files texts entry with
    | none => rw [List.filterMap_cons_none hp, Option.toList_none, List.nil_append]
    | some p => rw [List.filterMap_cons_some hp, Option.toList_some, List.singleton_append]

theorem report_eq [PatternLimit] (config : AuditConfig) (root : Path) (corpus : AuditCorpus) :
    report config root corpus = ({} : AuditReport).addFiles (placedFiles config root corpus) :=
  foldl_auditFile (serves_fresh corpus.files) config root corpus.sourceDir
    (textsByKey root corpus.files) {} corpus.inventory.entries

end Audit

/-! ## Folders -/

/-- Putting a value behind those of a key puts it among all values, and moves nothing else. -/
theorem NameMap.flatten_values_alter_perm {α : Type} (m : NameMap (List α))
    (name : String) (a : α) :
    (m.alter name fun old => old.getD [] ++ [a]).values.flatten.Perm (m.values.flatten ++ [a]) := by
  obtain ⟨entries, increasing⟩ := m
  unfold alter values
  dsimp only
  clear increasing
  induction entries with
  | nil => exact .refl _
  | cons head rest ih =>
    obtain ⟨other, v⟩ := head
    simp only [alterEntries]
    split
    · exact List.perm_append_comm
    · split
      · simp only [List.map_cons, List.flatten_cons, Option.getD_some, List.append_assoc]
        exact List.perm_append_comm.append_left v
      · simp only [List.map_cons, List.flatten_cons, List.append_assoc]
        exact ih.append_left v

namespace AuditReport

variable {report : AuditReport}

theorem filesIn_addFile (folder other : String) (file : FileAudit) :
    (report.addFile folder file).filesIn other =
      report.filesIn other ++ if folder = other then [file] else [] := by
  unfold filesIn addFile
  dsimp only
  rw [NameMap.get?_alter]
  by_cases h : other = folder
  · simp [h]
  · simp [h, Ne.symm h]

theorem filesIn_addFiles (placed : List (String × FileAudit)) (folder : String) :
    (report.addFiles placed).filesIn folder =
      report.filesIn folder ++ (placed.filter fun p => p.1 = folder).map Prod.snd := by
  induction placed generalizing report with
  | nil => simp [addFiles]
  | cons p placed ih =>
    rw [addFiles, List.foldl_cons, ← addFiles, ih, filesIn_addFile]
    by_cases h : p.1 = folder <;> simp [h]

theorem mem_folders_addFiles (placed : List (String × FileAudit)) (folder : String) :
    folder ∈ (report.addFiles placed).folders.keys ↔
      folder ∈ report.folders.keys ∨ ∃ p ∈ placed, p.1 = folder := by
  induction placed generalizing report with
  | nil => simp [addFiles]
  | cons p placed ih =>
    rw [addFiles, List.foldl_cons, ← addFiles, ih, addFile, NameMap.mem_keys_alter]
    constructor
    · intro h
      rcases h with (rfl | h) | ⟨q, hq, h⟩
      · exact .inr ⟨p, List.mem_cons_self, rfl⟩
      · exact .inl h
      · exact .inr ⟨q, List.mem_cons_of_mem _ hq, h⟩
    · intro h
      rcases h with h | ⟨q, hq, h⟩
      · exact .inl (.inr h)
      · rcases List.mem_cons.mp hq with rfl | hq
        · exact .inl (.inl h.symm)
        · exact .inr ⟨q, hq, h⟩

theorem files_addFile_perm (folder : String) (file : FileAudit) :
    (report.addFile folder file).files.Perm (report.files ++ [file]) :=
  NameMap.flatten_values_alter_perm report.folders folder file

theorem files_addFiles_perm (placed : List (String × FileAudit)) :
    (report.addFiles placed).files.Perm (report.files ++ placed.map Prod.snd) := by
  induction placed generalizing report with
  | nil => simp [addFiles]
  | cons p placed ih =>
    rw [addFiles, List.foldl_cons, ← addFiles, List.map_cons]
    refine ih.trans ?_
    rw [← List.singleton_append, ← List.append_assoc]
    exact (files_addFile_perm p.1 p.2).append_right _

/-- Every file of a report is the audit of an entry of the inventory. -/
theorem exists_entry_of_mem_files [PatternLimit] {config : AuditConfig} {root : Path}
    {corpus : AuditCorpus} {file : FileAudit} (h : file ∈ (Audit.report config root corpus).files) :
    ∃ entry ∈ corpus.inventory.entries, file = .ofEntry ⟨config.largeFunctionLines⟩ corpus.files
      (Audit.textsByKey root corpus.files) entry := by
  rw [Audit.report_eq, (files_addFiles_perm _).mem_iff] at h
  obtain ⟨p, hp, rfl⟩ := List.mem_map.mp h
  rw [Audit.placedFiles] at hp
  obtain ⟨entry, hentry, hplaced⟩ := List.mem_filterMap.mp hp
  exact ⟨entry, hentry, (Audit.placed?_eq_some.mp hplaced).2.2⟩

/-- Every folder of a report is that of an entry of the inventory. -/
theorem exists_entry_of_mem_folders [PatternLimit] {config : AuditConfig} {root : Path}
    {corpus : AuditCorpus} {folder : String}
    (h : folder ∈ (Audit.report config root corpus).folders.keys) :
    ∃ entry ∈ corpus.inventory.entries,
    folder = Audit.folderOfKey root corpus.sourceDir entry.1 := by
  rw [Audit.report_eq, mem_folders_addFiles] at h
  rcases h with none | ⟨p, hp, rfl⟩
  · cases none
  · rw [Audit.placedFiles] at hp
    obtain ⟨entry, hentry, hplaced⟩ := List.mem_filterMap.mp hp
    exact ⟨entry, hentry, (Audit.placed?_eq_some.mp hplaced).2.1⟩

/-- Every function of a report is that of a record under an entry of the inventory. -/
theorem exists_record_of_mem_functions [PatternLimit] {config : AuditConfig} {root : Path}
    {corpus : AuditCorpus} {f : FunctionAudit}
    (h : f ∈ (Audit.report config root corpus).functions) :
    ∃ entry ∈ corpus.inventory.entries, ∃ record ∈ entry.2, record.kind ≠ .classDecl ∧
      ∃ rules lines, f = .ofRecord rules corpus.files lines record := by
  obtain ⟨file, hfile, hf⟩ := List.mem_flatMap.mp h
  obtain ⟨entry, hentry, rfl⟩ := exists_entry_of_mem_files hfile
  dsimp only [FileAudit.ofEntry] at hf
  obtain ⟨record, hrecord, rfl⟩ := List.mem_map.mp hf
  obtain ⟨hrecord, member⟩ := List.mem_filter.mp hrecord
  exact ⟨entry, hentry, record, hrecord, of_decide_eq_true member, _, _, rfl⟩

/-! ## Figures -/

/-- The summary gives the figures that a walk through the folders counts. -/
structure Counted (report : AuditReport) : Prop where
  files : report.summary.filesAudited = report.files.length
  functions : report.summary.totalFunctions = report.functions.length
  orphaned : report.summary.orphaned = report.functions.countP FunctionAudit.isOrphaned
  flagged : report.summary.flagged = report.functions.countP fun f => !f.flags.isEmpty

theorem counted_empty : Counted {} :=
  ⟨rfl, rfl, rfl, rfl⟩

end AuditReport

theorem AuditSummary.foldl_addFunction (s : AuditSummary) (functions : List FunctionAudit) :
    functions.foldl addFunction s =
      { filesAudited := s.filesAudited
        totalFunctions := s.totalFunctions + functions.length
        orphaned := s.orphaned + functions.countP FunctionAudit.isOrphaned
        flagged := s.flagged + functions.countP fun f => !f.flags.isEmpty } := by
  induction functions generalizing s with
  | nil => rfl
  | cons f functions ih =>
    rw [List.foldl_cons, ih, List.countP_cons, List.countP_cons, List.length_cons]
    unfold addFunction
    cases f.isOrphaned <;> cases f.flags.isEmpty <;> simp <;> omega

theorem AuditReport.Counted.addFile {report : AuditReport} (h : report.Counted) (folder : String)
    (file : FileAudit) : (report.addFile folder file).Counted := by
  have files : (report.addFile folder file).files.Perm (report.files ++ [file]) :=
    files_addFile_perm folder file
  have functions :
      (report.addFile folder file).functions.Perm (report.functions ++ file.functions) := by
    have all := files.flatMap_right fun f => f.functions
    rwa [List.flatMap_append, List.flatMap_singleton] at all
  have summary : (report.addFile folder file).summary = report.summary.addFile file := rfl
  rw [AuditSummary.addFile, AuditSummary.foldl_addFunction] at summary
  refine ⟨?_, ?_, ?_, ?_⟩
  · rw [summary, files.length_eq, List.length_append, ← h.files]
    rfl
  · rw [summary, functions.length_eq, List.length_append, ← h.functions]
  · rw [summary, functions.countP_eq, List.countP_append, ← h.orphaned]
  · rw [summary, functions.countP_eq, List.countP_append, ← h.flagged]

theorem AuditReport.Counted.addFiles {report : AuditReport} (h : report.Counted)
    (placed : List (String × FileAudit)) : (report.addFiles placed).Counted := by
  induction placed generalizing report with
  | nil => exact h
  | cons p placed ih => exact ih (h.addFile p.1 p.2)

theorem Audit.counted_report [PatternLimit] (config : AuditConfig) (root : Path)
    (corpus : AuditCorpus) :
    (report config root corpus).Counted := by
  rw [report_eq]
  exact AuditReport.counted_empty.addFiles _

end CodeAtlas
