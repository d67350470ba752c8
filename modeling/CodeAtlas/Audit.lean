import CodeAtlas.CallSite
import CodeAtlas.Corpus
import CodeAtlas.Health
import CodeAtlas.Inventory
import CodeAtlas.Scan

/-!
# Audits

The files below a source directory are scanned, read and searched for functions. Files that cannot
be read are passed over, and files without any record do not appear. Each remaining file is audited
under the folder of the source directory that it lies in; folders can be skipped, but their files
still count as places from which functions are called.

For every function the audit keeps the number of lines that call its simple name and the flags of
its health. Where the name cannot be looked for, that is the only flag.
-/
namespace CodeAtlas

structure AuditConfig where
  sourceDir : Path := .ofText "src"
  extension : String := "gs"
  largeFunctionLines : Nat := 100
  skipDirs : List String := []
deriving DecidableEq, Repr

structure FunctionAudit where
  name : String
  line : Nat
  signature : String
  callSites : Nat
  flags : List String
deriving DecidableEq, Repr

def FunctionAudit.isOrphaned (f : FunctionAudit) : Bool :=
  f.callSites == 0

structure FileAudit where
  path : String
  lineCount : Nat
  recordCount : Nat
  functions : List FunctionAudit
deriving DecidableEq, Repr

structure AuditSummary where
  filesAudited : Nat := 0
  totalFunctions : Nat := 0
  orphaned : Nat := 0
  flagged : Nat := 0
deriving DecidableEq, Repr

structure AuditReport where
  summary : AuditSummary := {}
  folders : NameMap (List FileAudit) := .empty

structure AuditCorpus where
  sourceDir : Path
  files : List SourceUnit
  inventory : Inventory

namespace AuditSummary

def addFunction (s : AuditSummary) (f : FunctionAudit) : AuditSummary :=
  { s with
    totalFunctions := s.totalFunctions + 1
    orphaned := if f.isOrphaned then s.orphaned + 1 else s.orphaned
    flagged := if f.flags.isEmpty then s.flagged else s.flagged + 1 }

def addFile (s : AuditSummary) (file : FileAudit) : AuditSummary :=
  let counted := file.functions.foldl addFunction s
  { counted with filesAudited := counted.filesAudited + 1 }

end AuditSummary

def AuditReport.addFile (report : AuditReport) (folder : String) (file : FileAudit) : AuditReport :=
  { summary := report.summary.addFile file
    folders := report.folders.alter folder fun files => files.getD [] ++ [file] }

namespace AuditCorpus

/-- The records of a file under its key, if there are any. -/
def keyedRecords? (root : Path) (unit : SourceUnit) : Option (String × List Record) :=
  let records := Inventory.extract unit.text
  if records.isEmpty then none else some (Inventory.key root unit.path, records)

def ofUnits (root sourceDir : Path) (units : List SourceUnit) : AuditCorpus :=
  { sourceDir
    files := units
    inventory := .ofList (units.filterMap (keyedRecords? root)) }

section

variable {m : Type → Type} [Monad m] [FileStore m]

def readUnit? (path : Path) : m (Option SourceUnit) := do
  match ← readSource path with
  | .ok text => return some ⟨path, text⟩
  | .error _ => return none

def readUnits (paths : List Path) : m (List SourceUnit) :=
  return (← paths.mapM readUnit?).filterMap id

def load (config : AuditConfig) (root sourceDir : Path) : m (Except ScanError AuditCorpus) := do
  match ← scan config.extension sourceDir with
  | .error e => return .error e
  | .ok paths => return .ok (ofUnits root sourceDir (← readUnits paths))

end

end AuditCorpus

namespace Audit

/-- The folder of files that lie in the source directory itself. -/
def rootFolder : String := "root"

/-- The folder of a path: its first name below the source directory when at least one more
follows. -/
def folderOf (sourceDir path : Path) : String :=
  match (path.relativeTo sourceDir).components.filterMap Component.name? with
  | first :: _ :: _ => Text.lossy first
  | _ => rootFolder

def auditFunction [PatternLimit] (rules : HealthRules) (lines : List String) (record : Record)
    (index : CallSiteIndex) : FunctionAudit × CallSiteIndex :=
  let (counted, index) := index.count record.simpleName
  let (callSites, flags) :=
    match counted with
    | .ok n => (n, rules.check lines record.line)
    | .error e => (0, [HealthFlag.analysisError e.message])
  (⟨record.name, record.line, record.signature, callSites, flags.map HealthFlag.message⟩, index)

/-- Audits the functions of some records in turn, with one index for all. -/
def auditFunctions [PatternLimit] (rules : HealthRules) (lines : List String)
    (records : List Record) (index : CallSiteIndex) : List FunctionAudit × CallSiteIndex :=
  records.foldl
    (fun (audits, index) record =>
      let (audit, index) := auditFunction rules lines record index
      (audits ++ [audit], index))
    ([], index)

def textsByKey (root : Path) (files : List SourceUnit) : NameMap String :=
  .ofList (files.map fun file => (Inventory.key root file.path, file.text))

/-- Adds the audit of one file to a report, unless its folder is skipped. -/
def auditFile [PatternLimit] (config : AuditConfig) (root sourceDir : Path) (texts : NameMap String)
    (state : AuditReport × CallSiteIndex) (entry : String × List Record) :
    AuditReport × CallSiteIndex :=
  let (report, index) := state
  let (key, records) := entry
  let folder := folderOf sourceDir (root.join (.ofText key))
  if config.skipDirs.contains folder then (report, index)
  else
    let lines := Text.lines ((texts.get? key).getD "")
    let functions := records.filter fun r => r.kind ≠ .classDecl
    let (audits, index) := auditFunctions ⟨config.largeFunctionLines⟩ lines functions index
    (report.addFile folder ⟨key, lines.length, records.length, audits⟩, index)

def report [PatternLimit] (config : AuditConfig) (root : Path) (corpus : AuditCorpus) :
    AuditReport :=
  (corpus.inventory.entries.foldl
    (auditFile config root corpus.sourceDir (textsByKey root corpus.files))
    ({}, { files := corpus.files })).1

end Audit

end CodeAtlas
