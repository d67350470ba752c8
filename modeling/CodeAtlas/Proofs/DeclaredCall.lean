import CodeAtlas.Proofs.AuditLoading
import CodeAtlas.Proofs.AuditTraversal
import CodeAtlas.Proofs.CallSiteHistory
import CodeAtlas.Proofs.ExtractedRecords

/-!
# A declaration counts as a call

The line that declares a function also looks like a call of it: the simple name of the record stands
there as a word of its own, in front of an opening parenthesis. That line is among those of the
files in which calls are counted, whatever file of the corpus a record is from. So a function
without call sites is one whose name could not be looked for, and the report says this of it and
nothing else.
-/
namespace CodeAtlas

/-! ## Declarations -/

namespace Record

open CallSiteIndex

variable {owner : Option String} {line name : String} {rest more : List Char}

/-- A word behind no other word character and in front of an opening parenthesis is called. -/
theorem isCall_of_split {front : List Char} (split : line.toList = front ++ (name.toList ++ rest))
    (apart : front.getLast?.any Text.isWord = false) (word : IsWord name.toList)
    (spaced : Spaced '(' rest more) :
    IsCall name line := by
  obtain ⟨spaces, rfl, inside⟩ := spaced
  refine ⟨front, spaces, more, split, ?_, inside⟩
  obtain ⟨c, cs, chars⟩ := List.exists_cons_of_ne_nil word.1
  rw [chars]
  exact Text.isBoundary_of_word apart (word.2 c (by rw [chars]; exact List.mem_cons_self))

/-- A keyword and white space in front keep the name apart. -/
theorem BeginsWith.isCall {keyword : List Char}
    (h : BeginsWith keyword line.toList name.toList rest) (spaced : Spaced '(' rest more) :
    IsCall name line := by
  obtain ⟨gap, split, ⟨filled, spaces⟩, word⟩ := h
  rw [← List.append_assoc] at split
  refine isCall_of_split split ?_ word spaced
  rw [List.getLast?_append, List.getLast?_eq_some_getLast filled, Option.some_or]
  exact Text.isWord_of_isSpace (spaces _ (List.getLast_mem filled))

/-- What a line declares, other than a class, it declares in the way that calls are written. -/
theorem Applies.isCall {kind : RecordKind} (h : Applies owner line.toList name.toList kind)
    (member : kind ≠ .classDecl) : IsCall name line := by
  have word := h.isWord
  cases kind with
  | classDecl => exact absurd rfl member
  | constructor =>
    obtain ⟨⟨before, after, parts⟩, named⟩ := h
    have split : line.toList = (before ++ "  ".toList) ++ (name.toList ++ '(' :: after) := by
      rw [← parts, named, List.append_assoc, List.append_assoc]
      rfl
    have apart : (before ++ "  ".toList).getLast?.any Text.isWord = false := by
      rw [List.getLast?_append]
      rfl
    exact isCall_of_split split apart word ⟨[], rfl, by simp⟩
  | staticMethod | function =>
    obtain ⟨rest, begins, more, spaced⟩ := h
    exact begins.isCall spaced
  | method =>
    obtain ⟨-, rest, split, -, _, _, _, spaced, -⟩ := h
    exact isCall_of_split split (by decide) word spaced

end Record

/-- Every record but that of a class is from a line that calls its simple name. -/
theorem Inventory.exists_line_isCall {text : String} {record : Record} (h : record ∈ extract text)
    (member : record.kind ≠ .classDecl) :
    ∃ line ∈ Text.lines text, CallSiteIndex.IsCall record.simpleName line := by
  obtain ⟨owner, line, name, describes⟩ := exists_describes h
  refine ⟨line, List.mem_of_getElem? describes.line_eq, ?_⟩
  rw [describes.simpleName_eq]
  exact describes.declares.1.isCall member

/-! ## Functions without call sites -/

namespace HealthFlag

/-- Whether a message is that of an analysis that failed. -/
def isAnalysisError (message : String) : Bool :=
  "ANALYSIS ERROR".toList.isPrefixOf message.toList

theorem isAnalysisError_analysisError (reason : String) :
    isAnalysisError (analysisError reason).message = true := by
  unfold isAnalysisError message
  rw [String.toList_append]
  rfl

/-- No sign of trouble in a body reads like a failed analysis. -/
theorem isAnalysisError_of_mem_check {rules : HealthRules} {lines : List String} {line : Nat}
    {flag : HealthFlag} (h : flag ∈ rules.check lines line) :
    isAnalysisError flag.message = false := by
  cases flag with
  | largeFunction n =>
    change isAnalysisError ("LARGE FUNCTION - " ++ toString n ++ " lines") = false
    rw [isAnalysisError, String.append_assoc, String.toList_append]
    rfl
  | blockingSleep => decide +kernel
  | consoleLog => decide +kernel
  | sheetsApiLoop => decide +kernel
  | silentErrorHandling => decide +kernel
  | analysisError reason => simp [HealthRules.check, HealthRules.flags] at h

end HealthFlag

namespace FunctionAudit

open CallSiteIndex

/-- The name that is looked for in calls of a function. -/
def simpleName (f : FunctionAudit) : String :=
  Record.simpleName ⟨.function, f.name, f.line, f.signature⟩

def hasAnalysisError (f : FunctionAudit) : Bool :=
  f.flags.any HealthFlag.isAnalysisError

variable {rules : HealthRules} {files : List SourceUnit} {lines : List String} {record : Record}

theorem ofRecord_of_fits [PatternLimit] (fits : CallSiteIndex.nameFits record.simpleName = true) :
    ofRecord rules files lines record =
      ⟨record.name, record.line, record.signature, total files record.simpleName,
        (rules.check lines record.line).map HealthFlag.message⟩ := by
  rw [ofRecord, answer, if_pos fits]

theorem ofRecord_of_not_fits [PatternLimit]
    (long : CallSiteIndex.nameFits record.simpleName = false) :
    ofRecord rules files lines record =
      ⟨record.name, record.line, record.signature, 0,
        [(HealthFlag.analysisError patternTooBig).message]⟩ := by
  rw [ofRecord, answer, if_neg (by simp [long])]
  rfl

/-- The audit of a function that is called somewhere, or whose name cannot be looked for. -/
structure Sound [PatternLimit] (f : FunctionAudit) : Prop where
  called : CallSiteIndex.nameFits f.simpleName = true → 1 ≤ f.callSites ∧ f.hasAnalysisError = false
  long : CallSiteIndex.nameFits f.simpleName = false →
    f.callSites = 0 ∧ f.flags = [(HealthFlag.analysisError patternTooBig).message]

theorem sound_ofRecord [PatternLimit] {file : SourceUnit} (hfile : file ∈ files)
    (hrecord : record ∈ Inventory.extract file.text) (member : record.kind ≠ .classDecl) :
    (ofRecord rules files lines record).Sound := by
  obtain ⟨line, hline, call⟩ := Inventory.exists_line_isCall hrecord member
  cases fits : CallSiteIndex.nameFits record.simpleName with
  | true =>
    rw [ofRecord_of_fits fits]
    refine ⟨fun _ => ⟨one_le_total hfile hline call, ?_⟩, fun long => ?_⟩
    · rw [hasAnalysisError, List.any_map, List.any_eq_false]
      intro flag hflag
      simp [HealthFlag.isAnalysisError_of_mem_check hflag]
    · exact absurd (fits.symm.trans long) (by decide)
  | false =>
    rw [ofRecord_of_not_fits fits]
    refine ⟨fun short => ?_, fun _ => ⟨rfl, rfl⟩⟩
    exact absurd (fits.symm.trans short) (by decide)

variable {f : FunctionAudit}

theorem isOrphaned_iff : f.isOrphaned = true ↔ f.callSites = 0 :=
  beq_iff_eq

theorem Sound.orphaned_iff [PatternLimit] (h : f.Sound) : f.isOrphaned = true ↔
    CallSiteIndex.nameFits f.simpleName = false := by
  rw [isOrphaned_iff]
  cases fits : CallSiteIndex.nameFits f.simpleName with
  | true =>
    have called := (h.called fits).1
    exact iff_of_false (by omega) (by decide)
  | false => exact iff_of_true (h.long fits).1 rfl

theorem Sound.hasAnalysisError_eq [PatternLimit] (h : f.Sound) :
    f.hasAnalysisError = f.isOrphaned := by
  cases fits : CallSiteIndex.nameFits f.simpleName with
  | true =>
    have orphaned : f.isOrphaned = false := by
      rw [← Bool.not_eq_true, h.orphaned_iff, fits]
      decide
    rw [orphaned, (h.called fits).2]
  | false =>
    rw [h.orphaned_iff.mpr fits, hasAnalysisError, (h.long fits).2, List.any_cons,
      HealthFlag.isAnalysisError_analysisError, Bool.true_or]

end FunctionAudit

namespace Audit

/-- Every function of a report is that of a record in one of the files. -/
theorem mem_functions_report [PatternLimit] {config : AuditConfig} {root home sourceDir : Path}
    {units : List SourceUnit} {f : FunctionAudit}
    (h : f ∈ (report config root (.ofUnits home sourceDir units)).functions) :
    ∃ file ∈ units, ∃ record ∈ Inventory.extract file.text, record.kind ≠ .classDecl ∧
      ∃ rules lines, f = .ofRecord rules units lines record := by
  obtain ⟨entry, hentry, record, hrecord, member, audited⟩ :=
    AuditReport.exists_record_of_mem_functions h
  rw [AuditCorpus.ofUnits] at hentry
  obtain ⟨file, hfile, hrecords⟩ := List.mem_filterMap.mp (NameMap.mem_of_mem_entries_ofList hentry)
  obtain ⟨-, rfl⟩ := AuditCorpus.keyedRecords?_eq_some.mp hrecords
  exact ⟨file, hfile, record, hrecord, member, audited⟩

theorem sound_of_mem_report [PatternLimit] {config : AuditConfig} {root sourceDir : Path}
    {units : List SourceUnit} {f : FunctionAudit}
    (h : f ∈ (report config root (.ofUnits root sourceDir units)).functions) : f.Sound := by
  obtain ⟨file, hfile, record, hrecord, member, rules, lines, heq⟩ := mem_functions_report h
  rw [heq]
  exact FunctionAudit.sound_ofRecord hfile hrecord member

/-- A function is orphaned exactly when its name is too long to be looked for, and then the failed
analysis is its only flag. All others have call sites, so the orphaned functions that the summary
counts are those with a failed analysis, and there are none as long as all names are short
enough. -/
theorem orphaned_iff_nameTooLong [PatternLimit] {tree : FileTree} {config : AuditConfig}
    {root sourceDir : Path} {corpus : AuditCorpus}
    (loaded : (AuditCorpus.load config root sourceDir : StateM FileTree _).run tree =
      pure (.ok corpus, tree)) :
    (∀ f ∈ (report config root corpus).functions,
      (f.isOrphaned = true ↔ CallSiteIndex.nameFits f.simpleName = false) ∧
      (f.isOrphaned = true → f.flags = [(HealthFlag.analysisError patternTooBig).message]) ∧
      (f.isOrphaned = false → 1 ≤ f.callSites ∧ f.hasAnalysisError = false)) ∧
    (report config root corpus).summary.orphaned =
      (report config root corpus).functions.countP FunctionAudit.hasAnalysisError ∧
    ((∀ f ∈ (report config root corpus).functions, CallSiteIndex.nameFits f.simpleName = true) →
      (report config root corpus).summary.orphaned = 0) := by
  have counted := counted_report config root corpus
  have sound : ∀ f ∈ (report config root corpus).functions, f.Sound := by
    intro f hf
    rw [FileTree.eq_of_auditLoad loaded] at hf
    exact sound_of_mem_report hf
  refine ⟨fun f hf => ⟨(sound f hf).orphaned_iff, ?_, ?_⟩, ?_, ?_⟩
  · intro orphaned
    exact ((sound f hf).long ((sound f hf).orphaned_iff.mp orphaned)).2
  · intro called
    rw [(sound f hf).hasAnalysisError_eq]
    refine ⟨Nat.one_le_iff_ne_zero.mpr fun none => ?_, called⟩
    rw [FunctionAudit.isOrphaned_iff.mpr none] at called
    cases called
  · rw [counted.orphaned]
    apply List.countP_congr
    intro f hf
    rw [(sound f hf).hasAnalysisError_eq]
  · intro short
    rw [counted.orphaned, List.countP_eq_zero]
    intro f hf orphaned
    have long := (sound f hf).orphaned_iff.mp orphaned
    exact absurd ((short f hf).symm.trans long) (by decide)

/-- One declaration by each rule, none of them called from anywhere else. -/
theorem orphaned_iff_nameTooLong_of_each_rule :
    let _ : PatternLimit := .ofLiterals
    let text := "class Run\n  constructor()\n  static make ()\n  start(n) \x7b\nfunction go()\n"
    let tree := (FileTree.empty ["work"]).create (.ofText "src/run.gs") (.file text.toUTF8)
    let corpus := AuditCorpus.ofUnits (.ofText ".") (.ofText "src") [⟨.ofText "src/run.gs", text⟩]
    (AuditCorpus.load {} (.ofText ".") (.ofText "src") : StateM FileTree _).run tree =
        pure (.ok corpus, tree) ∧
      (report {} (.ofText ".") corpus).functions.map
        (fun f => (f.name, f.callSites, CallSiteIndex.nameFits f.simpleName)) =
        [("Run.constructor", 1, true), ("Run.make", 1, true), ("Run.start", 1, true),
          ("go", 1, true)] ∧
      (∀ f ∈ (report {} (.ofText ".") corpus).functions, f.isOrphaned = true ↔
        CallSiteIndex.nameFits f.simpleName = false) ∧
      (report {} (.ofText ".") corpus).summary.orphaned =
        (report {} (.ofText ".") corpus).functions.countP FunctionAudit.hasAnalysisError := by
  intro limit text tree corpus
  have directory : tree.isDirectory (.ofText "src") = true := by decide +kernel
  have read : tree.readable (tree.scanned "gs" (.ofText "src")) =
    [⟨.ofText "src/run.gs", text⟩] := by decide +kernel
  have loaded : (AuditCorpus.load {} (.ofText ".") (.ofText "src") : StateM FileTree _).run tree =
      pure (.ok corpus, tree) := by
    rw [FileTree.run_auditLoad, if_pos directory, read]
  have h := orphaned_iff_nameTooLong loaded
  exact ⟨loaded, by decide +kernel, fun f hf => (h.1 f hf).1, h.2.1⟩

end Audit

end CodeAtlas
