import CodeAtlas.Proofs.DeclaredCall
import CodeAtlas.Proofs.ExtractAppend
import CodeAtlas.Proofs.MarkdownLines
import CodeAtlas.Proofs.PathComponents

/-!
# What a Markdown audit counts

The figures in the table of a document are those that its lines can be counted for: files,
functions, functions without call sites, functions without flags. What an audit takes from a source
text it takes from single lines, so if there is a newline in what is shown, it is in the path of a
file.
-/
namespace CodeAtlas

/-! ## What is taken from single lines -/

namespace Text

theorem OneLine.of_subset {a b : String} (h : OneLine b) (subset : a.toList ⊆ b.toList) :
    OneLine a :=
  fun newline => h (subset newline)

/-- Nothing becomes a newline in upper case. -/
theorem newline_of_mem_upperMap {c : Char} (h : '\n' ∈ upperMap.apply c) : c = '\n' := by
  have special : ∀ entry ∈ upperMap.special, '\n' ∉ entry.2.map Char.ofNat := by decide +kernel
  have runs : ∀ run ∈ upperMap.runs, 10 < run.2.2.2 := by decide +kernel
  have code {n : Nat} (hn : Char.ofNat n = '\n') : n = 10 := by
    by_cases valid : n.isValidChar
    · have number : (Char.ofNat n).toNat = n := by
        rw [Char.ofNat, dif_pos valid]
        rfl
      rw [hn] at number
      exact number.symm
    · rw [Char.ofNat, dif_neg valid] at hn
      exact absurd hn (by decide)
  -- what is listed by itself has no newline, what is in a run goes above it, and what is in neither
  -- stays
  unfold CaseMap.apply at h
  split at h
  next codes found => exact absurd h (special _ (mem_of_lookup found))
  next =>
    have image := code (List.mem_singleton.mp h).symm
    unfold CaseMap.image at image
    split at image
    next found =>
      have above := runs _ (List.mem_of_find?_eq_some found)
      dsimp only at above
      omega
    next => exact Char.toNat_inj.mp image

theorem oneLine_upperCase {s : String} (h : OneLine s) : OneLine (upperCase s) := by
  rw [OneLine, upperCase, String.toList_ofList]
  intro newline
  obtain ⟨c, hc, mapped⟩ := List.mem_flatMap.mp newline
  rw [newline_of_mem_upperMap mapped] at hc
  exact h hc

theorem not_mem_segments (cs : List Char) : ∀ piece ∈ (segments cs).1 :: (segments cs).2,
    '\n' ∉ piece := by
  induction cs with
  | nil => simp [segments]
  | cons c cs ih =>
    rw [List.forall_mem_cons] at ih
    rw [segments_cons]
    split
    next => exact List.forall_mem_cons.mpr ⟨List.not_mem_nil, List.forall_mem_cons.mpr ih⟩
    next other =>
      refine List.forall_mem_cons.mpr ⟨?_, ih.2⟩
      rw [List.mem_cons, not_or]
      exact ⟨Ne.symm other, ih.1⟩

theorem dropReturn_subset (cs : List Char) : dropReturn cs ⊆ cs := by
  unfold dropReturn
  split
  · exact List.dropLast_subset cs
  · exact List.Subset.refl cs

theorem oneLine_of_mem_lines {text line : String} (h : line ∈ lines text) : OneLine line := by
  obtain ⟨chars, hchars, rfl⟩ := List.mem_map.mp h
  rw [OneLine, String.toList_ofList]
  rcases List.mem_append.mp hchars with ended | last
  · obtain ⟨piece, hpiece, rfl⟩ := List.mem_map.mp ended
    exact mt (@dropReturn_subset piece '\n')
      (not_mem_segments _ piece (List.dropLast_subset _ hpiece))
  · have found := List.mem_of_getLast? (Option.mem_toList.mp (List.mem_filter.mp last).1)
    exact not_mem_segments _ chars found

theorem trim_subset (s : String) : (trim s).toList ⊆ s.toList := by
  intro c hc
  rw [trim, String.toList_ofList, trimChars, List.mem_reverse] at hc
  have inner := List.mem_reverse.mp ((List.dropWhile_sublist _).subset hc)
  exact (List.dropWhile_sublist _).subset inner

end Text

open Text

theorem Record.IsWord.oneLine {name : String} (h : IsWord name.toList) : OneLine name := by
  intro newline
  exact absurd (h.2 '\n' newline) (by decide)

namespace Inventory

theorem Describes.oneLine_signature {text line name : String} {record : Record}
    {owner : Option Record} (h : Describes text record owner line name) :
    OneLine record.signature := by
  rw [h.signature_eq]
  exact (oneLine_of_mem_lines (List.mem_of_getElem? h.line_eq)).of_subset (trim_subset line)

theorem Describes.oneLine_name {text line name : String} {record : Record} {owner : Option Record}
    (h : Describes text record owner line name) : OneLine record.name := by
  rw [h.name_eq]
  split
  · exact h.isWord.oneLine
  · cases owner with
    | none => exact h.isWord.oneLine
    | some c =>
      obtain ⟨mem, isClass, -⟩ := h.owner_above
      obtain ⟨_, _, word, describes⟩ := exists_describes mem
      have plain : c.name = word := by rw [describes.name_eq, if_pos (.inl isClass)]
      rw [Option.elim_some, plain, oneLine_append, oneLine_append]
      exact ⟨⟨describes.isWord.oneLine, by decide⟩, h.isWord.oneLine⟩

end Inventory

/-! ## Flags -/

namespace FunctionAudit

variable (rules : HealthRules) (files : List SourceUnit) (lines : List String) (record : Record)

theorem ofRecord_name [PatternLimit] : (ofRecord rules files lines record).name = record.name := by
  unfold ofRecord
  split <;> rfl

theorem ofRecord_signature [PatternLimit] : (ofRecord rules files lines record).signature =
    record.signature := by
  unfold ofRecord
  split <;> rfl

theorem exists_flags_ofRecord [PatternLimit] :
    ∃ flags : List HealthFlag, (ofRecord rules files lines record).flags =
      flags.map HealthFlag.message ∧
      ∀ reason, .analysisError reason ∈ flags → reason = patternTooBig := by
  cases fits : CallSiteIndex.nameFits record.simpleName with
  | true =>
    refine ⟨rules.check lines record.line, by rw [ofRecord_of_fits fits], ?_⟩
    intro reason h
    simp [HealthRules.check, HealthRules.flags] at h
  | false =>
    refine ⟨[.analysisError patternTooBig], by rw [ofRecord_of_not_fits fits]; rfl, ?_⟩
    intro reason h
    simpa using h

end FunctionAudit

namespace HealthFlag

theorem oneLine_message {flag : HealthFlag}
    (h : ∀ reason, flag = .analysisError reason → OneLine reason) :
    OneLine flag.message := by
  cases flag with
  | largeFunction n =>
    change OneLine ("LARGE FUNCTION - " ++ toString n ++ " lines")
    rw [oneLine_append, oneLine_append]
    exact ⟨⟨by decide, oneLine_toString n⟩, by decide⟩
  | blockingSleep => decide +kernel
  | consoleLog => decide +kernel
  | sheetsApiLoop => decide +kernel
  | silentErrorHandling => decide +kernel
  | analysisError reason => exact oneLine_append.mpr ⟨by decide, h reason rfl⟩

/-- No message reads like the word that stands for no flags, or begins like it. -/
theorem not_message_isPrefix (flag : HealthFlag) : ¬ flag.message.toList <+: "None".toList := by
  intro h
  cases flag with
  | largeFunction n =>
    change ("LARGE FUNCTION - " ++ toString n ++ " lines").toList <+: _ at h
    rw [String.append_assoc, String.toList_append] at h
    exact absurd ((List.prefix_append _ _).trans h) (by decide +kernel)
  | blockingSleep => exact absurd h (by decide +kernel)
  | consoleLog => exact absurd h (by decide +kernel)
  | sheetsApiLoop => exact absurd h (by decide +kernel)
  | silentErrorHandling => exact absurd h (by decide +kernel)
  | analysisError reason =>
    change ("ANALYSIS ERROR: " ++ reason).toList <+: _ at h
    rw [String.toList_append] at h
    exact absurd ((List.prefix_append _ _).trans h) (by decide +kernel)

end HealthFlag

namespace Markdown

theorem health_eq_none_iff {f : FunctionAudit} {flags : List HealthFlag}
    (h : f.flags = flags.map HealthFlag.message) :
    health f = "None" ↔ f.flags.isEmpty = true := by
  unfold health
  constructor
  · intro none
    cases flags with
    | nil => rw [h]; rfl
    | cons flag flags =>
      rw [h, List.map_cons, List.isEmpty_cons, if_neg (by decide)] at none
      have spelled := congrArg String.toList none
      have first : flag.message.toList <+: "None".toList := by
        rw [← spelled]
        cases flags with
        | nil => simp
        | cons next flags =>
          rw [List.map_cons, String.intercalate_cons_cons, String.append_assoc,
            String.toList_append]
          exact List.prefix_append _ _
      exact absurd first flag.not_message_isPrefix
  · intro none
    rw [if_pos none]

/-- Only what is said of functions without call sites begins with that word: a number begins with a
digit. -/
theorem begins_wiring (f : FunctionAudit) : begins "ORPHANED" (wiring f) = f.isOrphaned := by
  unfold wiring
  cases f.isOrphaned with
  | true =>
    rw [if_pos rfl]
    decide
  | false =>
    rw [if_neg (by decide), ← Bool.not_eq_true, begins_iff, String.toList_append]
    intro h
    have digits : (toString f.callSites).toList = Nat.toDigits 10 f.callSites :=
      String.toList_ofList
    obtain ⟨c, cs, spelled⟩ :=
      List.exists_cons_of_ne_nil (Nat.toDigits_ne_nil (b := 10) (n := f.callSites))
    have digit : c.isDigit = true := by
      apply Nat.isDigit_of_mem_toDigits (b := 10) (n := f.callSites) (by decide) (by decide)
      rw [spelled]
      exact List.mem_cons_self
    rw [digits, spelled, List.cons_append] at h
    obtain ⟨same, -⟩ := List.cons_prefix_cons.mp (show 'O' :: "RPHANED".toList <+: _ from h)
    rw [← same] at digit
    cases digit

end Markdown

/-! ## Paths -/

/-- Bytes are shown on one line if none of them ends it. -/
theorem oneLine_lossy_iff {bytes : Bytes} : OneLine (Text.lossy bytes) ↔ 10 ∉ bytes := by
  have ends : (10 : UInt8).toNat < 0x80 := by decide
  have newline : Char.ofNat (10 : UInt8).toNat = '\n' := rfl
  rw [OneLine, ← newline, ← Text.mem_encode_iff ends, ← Text.repaired, Text.mem_repaired_iff ends]

theorem Path.oneLine_join {p q : Path} (hp : OneLine p.text) (hq : OneLine q.text) :
    OneLine (p.join q).text := by
  unfold Path.text at hp hq ⊢
  rw [oneLine_lossy_iff] at hp hq ⊢
  unfold join
  split
  · exact hq
  · have notSlash : (10 : UInt8) ≠ slash := by decide
    split <;> simp [hp, hq, notSlash]

namespace Audit

variable {config : AuditConfig} {root home sourceDir : Path} {units : List SourceUnit}

theorem oneLine_folderOf {path : Path} (h : OneLine path.text) :
    OneLine (folderOf sourceDir path) := by
  have inside : 10 ∉ path.bytes := oneLine_lossy_iff.mp h
  unfold folderOf
  split
  next first _ _ names =>
    have mem : first ∈ (path.relativeTo sourceDir).components.filterMap Component.name? := by
      rw [names]
      exact List.mem_cons_self
    obtain ⟨component, hcomponent, named⟩ := List.mem_filterMap.mp mem
    cases component with
    | name bytes =>
      cases named
      refine oneLine_lossy_iff.mpr fun ends => inside ?_
      exact Path.relativeTo_subset path sourceDir (Path.name_subset hcomponent ends)
    | root | here | up => cases named
  next => decide

theorem exists_unit_of_mem_entries {entry : String × List Record}
    (h : entry ∈ (AuditCorpus.ofUnits home sourceDir units).inventory.entries) :
    ∃ unit ∈ units, entry = (Inventory.key home unit.path, Inventory.extract unit.text) := by
  rw [AuditCorpus.ofUnits] at h
  obtain ⟨unit, hunit, keyed⟩ := List.mem_filterMap.mp (NameMap.mem_of_mem_entries_ofList h)
  exact ⟨unit, hunit, (AuditCorpus.keyedRecords?_eq_some.mp keyed).2.symm⟩

/-- The keys of files without newlines in their paths have none. -/
theorem oneLine_key_of_mem_entries (named : ∀ unit ∈ units, OneLine unit.path.text)
    {entry : String × List Record}
    (h : entry ∈ (AuditCorpus.ofUnits home sourceDir units).inventory.entries) :
    OneLine entry.1 := by
  obtain ⟨unit, hunit, rfl⟩ := exists_unit_of_mem_entries h
  refine oneLine_lossy_iff.mpr fun ends => oneLine_lossy_iff.mp (named unit hunit) ?_
  exact Path.relativeTo_subset unit.path home ends

theorem oneLine_of_mem_files [PatternLimit] (named : ∀ unit ∈ units, OneLine unit.path.text)
    {file : FileAudit} (h : file ∈ (report config root (.ofUnits home sourceDir units)).files) :
    OneLine file.path := by
  obtain ⟨entry, hentry, rfl⟩ := AuditReport.exists_entry_of_mem_files h
  exact oneLine_key_of_mem_entries named hentry

theorem oneLine_of_mem_folders [PatternLimit] (placed : OneLine root.text)
    (named : ∀ unit ∈ units, OneLine unit.path.text) {folder : String}
    (h : folder ∈ (report config root (.ofUnits home sourceDir units)).folders.keys) :
    OneLine folder := by
  obtain ⟨entry, hentry, rfl⟩ := AuditReport.exists_entry_of_mem_folders h
  have key : OneLine (Path.ofText entry.1).text := by
    rw [Path.text_ofText]
    exact oneLine_key_of_mem_entries named hentry
  exact oneLine_folderOf (Path.oneLine_join placed key)

/-- Whatever the texts of the files are, a report on them is unbroken unless a folder or a path is
not. -/
theorem unbroken_report [PatternLimit]
    (folders : ∀ folder ∈ (report config root (.ofUnits home sourceDir units)).folders.keys,
      OneLine folder)
    (paths : ∀ file ∈ (report config root (.ofUnits home sourceDir units)).files,
      OneLine file.path) :
    (report config root (.ofUnits home sourceDir units)).Unbroken where
  folders folder h := oneLine_upperCase (folders folder h)
  paths := paths
  names f hf := by
    obtain ⟨_, -, record, hrecord, -, rules, lines, audited⟩ := mem_functions_report hf
    obtain ⟨_, _, _, describes⟩ := Inventory.exists_describes hrecord
    rw [audited, FunctionAudit.ofRecord_name]
    exact describes.oneLine_name
  signatures f hf := by
    obtain ⟨_, -, record, hrecord, -, rules, lines, audited⟩ := mem_functions_report hf
    obtain ⟨_, _, _, describes⟩ := Inventory.exists_describes hrecord
    rw [audited, FunctionAudit.ofRecord_signature]
    exact describes.oneLine_signature
  flags f hf flag hflag := by
    obtain ⟨_, -, record, -, -, rules, lines, audited⟩ := mem_functions_report hf
    obtain ⟨flags, messages, errors⟩ := FunctionAudit.exists_flags_ofRecord rules units lines record
    rw [audited, messages] at hflag
    obtain ⟨flag, mem, rfl⟩ := List.mem_map.mp hflag
    apply HealthFlag.oneLine_message
    rintro reason rfl
    rw [errors reason mem]
    decide +kernel

end Audit

/-! ## Counting lines -/

namespace AuditReport

open Markdown

variable {report : AuditReport}

namespace Unbroken

theorem linesBeginning_file (h : report.Unbroken) : linesBeginning "### FILE: " report.markdown =
    report.files.map fun file => "### FILE: " ++ file.path := by
  have lines := h.linesBeginning_lead .file
  rw [contents_file, List.map_map] at lines
  exact lines

theorem linesBeginning_function (h : report.Unbroken) :
    linesBeginning "#### FUNCTION: " report.markdown =
    report.functions.map fun f => "#### FUNCTION: " ++ f.name := by
  have lines := h.linesBeginning_lead .function
  rw [contents_function, List.map_map] at lines
  exact lines

theorem length_linesBeginning_orphaned (h : report.Unbroken) :
    (linesBeginning "**WIRED-UP:** ORPHANED" report.markdown).length =
      report.functions.countP FunctionAudit.isOrphaned := by
  have lead : "**WIRED-UP:** ORPHANED" = LineKind.wiredUp.lead ++ "ORPHANED" := by decide +kernel
  rw [lead, h.linesBeginning_append, contents_wiredUp, List.length_map,
    ← List.countP_eq_length_filter, List.countP_map]
  exact List.countP_congr fun f _ => by rw [Function.comp_apply, begins_wiring]

theorem linesBeginning_row (h : report.Unbroken) (kind : LineKind) {content : String}
    (row : contents kind (summaryLines report.summary) = [content])
    (lines : ∀ file, contents kind (fileLines file) = []) (other : kind ≠ .heading) :
    linesBeginning kind.lead report.markdown = [kind.lead ++ content] := by
  rw [h.linesBeginning_lead, contents_of_summary lines other, row, List.map_singleton]

end Unbroken

/-- The table of a document gives the numbers of its lines. -/
structure Figures (report : AuditReport) : Prop where
  files : report.summary.filesAudited = (linesBeginning "### FILE: " report.markdown).length
  functions : report.summary.totalFunctions =
    (linesBeginning "#### FUNCTION: " report.markdown).length
  orphaned : report.summary.orphaned =
    (linesBeginning "**WIRED-UP:** ORPHANED" report.markdown).length
  healthy : (splitLines report.markdown).count "**HEALTH FLAGS:** None" =
    report.summary.totalFunctions - report.summary.flagged
  filesRow : linesBeginning "| **Total Files Audited** | " report.markdown =
    ["| **Total Files Audited** | " ++ (toString report.summary.filesAudited ++ " |")]
  functionsRow : linesBeginning "| **Total Functions Analyzed** | " report.markdown =
    ["| **Total Functions Analyzed** | " ++ (toString report.summary.totalFunctions ++ " |")]
  orphanedRow : linesBeginning "| **Orphaned Functions** | " report.markdown =
    ["| **Orphaned Functions** | " ++
      (toString report.summary.orphaned ++ " (" ++ report.summary.orphanedPercent ++ "%) |")]

/-- A line for each function tells whether it has flags. -/
theorem Unbroken.count_healthy [PatternLimit] {config : AuditConfig} {root : Path}
    {corpus : AuditCorpus} (h : (Audit.report config root corpus).Unbroken) :
    (splitLines (Audit.report config root corpus).markdown).count "**HEALTH FLAGS:** None" =
      (Audit.report config root corpus).functions.countP fun f => f.flags.isEmpty := by
  have line : "**HEALTH FLAGS:** None" = LineKind.healthFlags.lead ++ "None" := by decide +kernel
  rw [line, h.count_splitLines, contents_healthFlags, List.count, List.countP_map]
  apply List.countP_congr
  intro f hf
  obtain ⟨_, -, record, -, -, rules, lines, audited⟩ := exists_record_of_mem_functions hf
  obtain ⟨flags, messages, -⟩ := FunctionAudit.exists_flags_ofRecord rules corpus.files lines record
  rw [← audited] at messages
  rw [Function.comp_apply, beq_iff_eq, health_eq_none_iff messages]

theorem Unbroken.figures [PatternLimit] {config : AuditConfig} {root : Path} {corpus : AuditCorpus}
    (h : (Audit.report config root corpus).Unbroken) :
    (Audit.report config root corpus).Figures := by
  have counted := Audit.counted_report config root corpus
  refine ⟨?_, ?_, ?_, ?_, ?_, ?_, ?_⟩
  · rw [counted.files, h.linesBeginning_file, List.length_map]
  · rw [counted.functions, h.linesBeginning_function, List.length_map]
  · rw [counted.orphaned, h.length_linesBeginning_orphaned]
  · have split := List.length_eq_countP_add_countP (fun f : FunctionAudit => f.flags.isEmpty)
      (l := (Audit.report config root corpus).functions)
    have flagged := counted.flagged
    simp only [Bool.not_eq_true, Bool.decide_eq_false] at split
    -- functions are flagged or not
    rw [h.count_healthy, counted.functions]
    omega
  · exact h.linesBeginning_row .filesAudited (by simp [summaryLines])
      (by simp [fileLines, functionLines]) (by decide)
  · exact h.linesBeginning_row .totalFunctions (by simp [summaryLines])
      (by simp [fileLines, functionLines]) (by decide)
  · exact h.linesBeginning_row .orphaned (by simp [summaryLines])
      (by simp [fileLines, functionLines]) (by decide)

/-- The lines of a document that begin like those of a file, of a function or of a function without
call sites are as many as there are of these, and give them in order, whatever stands in the names
and signatures, if only no newline does. The figures in the table of a report on a corpus are the
numbers of such lines, and the functions that are not flagged have the line that says so. A report
on files has no newline in it if the names that it shows of files and folders have none, and these
are parts of the paths of the files and of the root. -/
theorem markdown_agrees_with_summary [PatternLimit] :
    (∀ report : AuditReport, report.Unbroken →
      linesBeginning "### FILE: " report.markdown =
        report.files.map (fun file => "### FILE: " ++ file.path) ∧
      linesBeginning "#### FUNCTION: " report.markdown =
        report.functions.map (fun f => "#### FUNCTION: " ++ f.name) ∧
      (linesBeginning "**WIRED-UP:** ORPHANED" report.markdown).length =
        report.functions.countP fun f => f.callSites == 0) ∧
    (∀ (config : AuditConfig) (root : Path) (corpus : AuditCorpus),
      (Audit.report config root corpus).Unbroken → (Audit.report config root corpus).Figures) ∧
    ∀ (config : AuditConfig) (root home sourceDir : Path) (units : List SourceUnit),
      let report := Audit.report config root (.ofUnits home sourceDir units)
      ((∀ folder ∈ report.folders.keys, OneLine folder) →
        (∀ file ∈ report.files, OneLine file.path) →
        report.Unbroken) ∧
      (OneLine root.text → (∀ unit ∈ units, OneLine unit.path.text) → report.Unbroken) := by
  refine ⟨?_, ?_, ?_⟩
  · intro report h
    exact ⟨h.linesBeginning_file, h.linesBeginning_function, h.length_linesBeginning_orphaned⟩
  · intro config root corpus h
    exact h.figures
  · intro config root home sourceDir units report
    refine ⟨Audit.unbroken_report, ?_⟩
    intro placed named
    exact Audit.unbroken_report (fun folder => Audit.oneLine_of_mem_folders placed named)
      (fun file => Audit.oneLine_of_mem_files named)

/-- Names and signatures that read like other lines, a corpus with a flagged function, and one below
no root. -/
theorem markdown_agrees_with_summary_of_lookalikes :
    let _ : PatternLimit := .ofLiterals
    let shown : AuditReport :=
      { folders := .ofList [("audit summary", []), ("### file: q", [⟨"### FILE: p", 2, 2,
          [⟨"#### FUNCTION: f", 1, "**WIRED-UP:** ORPHANED", 0, ["None"]⟩,
            ⟨"**WIRED-UP:** ORPHANED", 2, "### FILE: r", 3, []⟩]⟩])] }
    let units : List SourceUnit :=
      [⟨.ofText "./src/a.gs",
        "function f() \x7b // ### FILE: x\n  console.log(1)\n\x7d\nfunction g() \x7b\x7d\n"⟩]
    let report := Audit.report {} (.ofText ".") (.ofUnits (.ofText ".") (.ofText "./src") units)
    let elsewhere :=
      Audit.report {} (.ofText "a\nb")
        (.ofUnits (.ofText "c") (.ofText "/s") [⟨.ofText "/s/t.gs", "function f()"⟩])
    shown.Unbroken ∧
      linesBeginning "### FILE: " shown.markdown = ["### FILE: ### FILE: p"] ∧
      linesBeginning "#### FUNCTION: " shown.markdown =
        ["#### FUNCTION: #### FUNCTION: f", "#### FUNCTION: **WIRED-UP:** ORPHANED"] ∧
      (linesBeginning "**WIRED-UP:** ORPHANED" shown.markdown).length = 1 ∧
      report.Unbroken ∧ report.Figures ∧ report.summary = ⟨1, 2, 0, 1⟩ ∧
      (splitLines report.markdown).count "**HEALTH FLAGS:** None" = 1 ∧ elsewhere.Unbroken := by
  intro limit shown units report elsewhere
  obtain ⟨shownLines, figures, unbroken⟩ := markdown_agrees_with_summary
  have plain : shown.Unbroken :=
    ⟨by decide +kernel, by decide +kernel, by decide +kernel, by decide +kernel, by decide +kernel⟩
  obtain ⟨files, functions, orphaned⟩ := shownLines shown plain
  have plain' : report.Unbroken :=
    (unbroken {} (.ofText ".") (.ofText ".") (.ofText "./src") units).2
      (by decide) (by decide +kernel)
  have counted := figures {} (.ofText ".") (.ofUnits (.ofText ".") (.ofText "./src") units) plain'
  have summary : report.summary = ⟨1, 2, 0, 1⟩ := by decide +kernel
  have healthy : report.summary.totalFunctions - report.summary.flagged = 1 := by simp [summary]
  refine ⟨plain, files, functions, orphaned, plain', counted, summary,
    counted.healthy.trans healthy, ?_⟩
  exact (unbroken {} (.ofText "a\nb") (.ofText "c") (.ofText "/s") _).1
    (by decide +kernel) (by decide +kernel)

end AuditReport

end CodeAtlas
