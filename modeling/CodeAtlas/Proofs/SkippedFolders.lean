import CodeAtlas.Proofs.AuditAccount

/-!
# Skipped folders

A folder that is skipped is hidden, and that is all: the report is the one without skipping, less
the entries of the skipped folders. The files of these folders are still among those in which calls
are counted, and what the index of call sites remembers at a file differs between the two audits,
but never what it answers. So each remaining file has the same audit, and the figures are those of
the folders that remain.
-/
namespace CodeAtlas

namespace NameMap

variable {β : Type}

/-- The entries with the names to keep. -/
def restrict (m : NameMap β) (keep : String → Bool) : NameMap β :=
  ⟨m.entries.filter fun e => keep e.1, m.increasing.filter _⟩

theorem get?_restrict (m : NameMap β) (keep : String → Bool) (name : String) :
    (m.restrict keep).get? name = if keep name then m.get? name else none := by
  ext v
  have listed : (m.restrict keep).get? name = some v ↔ m.get? name = some v ∧ keep name = true := by
    rw [← mem_entries_iff (e := (name, v)), ← mem_entries_iff (e := (name, v))]
    exact List.mem_filter
  rw [listed]
  cases keep name <;> simp

/-- A change at a name that is not kept is not seen. -/
theorem restrict_alter (m : NameMap β) (keep : String → Bool) (name : String) (f : Option β → β) :
    (m.alter name f).restrict keep =
      if keep name then (m.restrict keep).alter name f else m.restrict keep := by
  apply eq_of_get?
  intro other
  by_cases same : other = name
  · subst same
    by_cases kept : keep other <;> simp [get?_restrict, get?_alter, kept]
  · by_cases kept : keep name <;> simp [get?_restrict, get?_alter, kept, same]

end NameMap

namespace AuditReport

theorem folders_addFiles_filter {shown whole : AuditReport} {keep : String → Bool}
    (h : shown.folders = whole.folders.restrict keep) (placed : List (String × FileAudit)) :
    (shown.addFiles (placed.filter fun p => keep p.1)).folders =
      (whole.addFiles placed).folders.restrict keep := by
  induction placed generalizing shown whole with
  | nil => exact h
  | cons p placed ih =>
    have step := whole.folders.restrict_alter keep p.1 fun files => files.getD [] ++ [p.2]
    rw [← h] at step
    by_cases kept : keep p.1
    · rw [if_pos kept] at step
      rw [List.filter_cons, if_pos kept]
      exact ih step.symm
    · rw [if_neg kept] at step
      rw [List.filter_cons, if_neg kept]
      exact ih step.symm

end AuditReport

namespace Audit

theorem placed?_skipping [PatternLimit] (config : AuditConfig) (skipped : List String)
    (root sourceDir : Path) (files : List SourceUnit) (texts : NameMap String)
    (entry : String × List Record) :
    placed? { config with skipDirs := skipped } root sourceDir files texts entry =
      (placed? { config with skipDirs := [] } root sourceDir files texts entry).filter
        fun p => !skipped.contains p.1 := by
  unfold placed?
  generalize folderOfKey root sourceDir entry.1 = folder
  by_cases hidden : folder ∈ skipped <;> simp [hidden, Option.filter]

/-- An audit that skips folders makes the audits of one that does not, less those of these
folders. -/
theorem placedFiles_skipping [PatternLimit] (config : AuditConfig)
    (skipped : List String) (root : Path) (corpus : AuditCorpus) :
    placedFiles { config with skipDirs := skipped } root corpus =
      (placedFiles { config with skipDirs := [] } root corpus).filter fun p =>
        !skipped.contains p.1 := by
  unfold placedFiles
  rw [List.filter_filterMap]
  congr 1
  funext entry
  exact placed?_skipping config skipped root corpus.sourceDir corpus.files _ entry

theorem folders_report_skipping [PatternLimit] (config : AuditConfig)
    (skipped : List String) (root : Path) (corpus : AuditCorpus) :
    (report { config with skipDirs := skipped } root corpus).folders =
      (report { config with skipDirs := [] } root corpus).folders.restrict
        fun folder => !skipped.contains folder := by
  have start : ({} : AuditReport).folders =
      ({} : AuditReport).folders.restrict fun folder => !skipped.contains folder := rfl
  rw [report_eq, report_eq, placedFiles_skipping]
  exact AuditReport.folders_addFiles_filter start _

/-- The audit of an entry depends on the folders to skip only in whether there is one. -/
theorem placedIn?_eq [PatternLimit] (config : AuditConfig) (root sourceDir : Path)
    (files : List SourceUnit) (texts : NameMap String) (folder : String)
    (entry : String × List Record) :
    placedIn? config root sourceDir files texts folder entry =
      if folderOfKey root sourceDir entry.1 = folder ∧ folder ∉ config.skipDirs then
        some (.ofEntry ⟨config.largeFunctionLines⟩ files texts entry)
      else none := by
  ext file
  rw [placedIn?_eq_some, ← and_assoc]
  split
  next due => simp [due]
  next due => simp [due]

theorem filesIn_report_eq [PatternLimit] (config : AuditConfig) (root : Path)
    (corpus : AuditCorpus) (folder : String) :
    (report config root corpus).filesIn folder =
      if folder ∈ config.skipDirs then []
      else (corpus.inventory.entries.filter fun e =>
        folderOfKey root corpus.sourceDir e.1 = folder).map
        (.ofEntry ⟨config.largeFunctionLines⟩ corpus.files (textsByKey root corpus.files)) := by
  rw [filesIn_report, funext (placedIn?_eq config root corpus.sourceDir corpus.files _ folder)]
  split
  next hidden => simp [hidden]
  next kept => simp [kept, ← List.filterMap_eq_map, List.filterMap_filter]

/-- Two audits that differ in the folders to skip work on the same files. The folders of the one
that skips are those of the other that are not to be skipped, entry by entry, with the same audits
in them, and its summary counts these. Each such folder holds the audits of the entries that lie in
it, made with the calls of all files, those of the skipped folders too. -/
theorem report_skipping [PatternLimit] (config : AuditConfig)
    (skipped : List String) (root : Path) :
    let fewer : AuditConfig := { config with skipDirs := skipped }
    let full : AuditConfig := { config with skipDirs := [] }
    (∀ sourceDir, (AuditCorpus.load fewer root sourceDir : StateM FileTree _) =
      AuditCorpus.load full root sourceDir) ∧
    ∀ corpus,
      (report fewer root corpus).folders.entries =
        (report full root corpus).folders.entries.filter (fun e => e.1 ∉ skipped) ∧
      (report fewer root corpus).Counted ∧
      ∀ folder, (report fewer root corpus).filesIn folder =
        if folder ∈ skipped then []
        else (corpus.inventory.entries.filter fun e =>
          folderOfKey root corpus.sourceDir e.1 = folder).map
          (.ofEntry ⟨config.largeFunctionLines⟩ corpus.files (textsByKey root corpus.files)) := by
  intro fewer full
  refine ⟨fun sourceDir => rfl, fun corpus => ⟨?_, counted_report fewer root corpus, ?_⟩⟩
  · rw [folders_report_skipping]
    simp [NameMap.restrict, full]
  · exact filesIn_report_eq fewer root corpus

end Audit

end CodeAtlas
