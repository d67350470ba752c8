import CodeAtlas.Proofs.AuditAccount

/-!
# What a key says of a file

An audit remembers a file by its key alone, a text, and finds the path of the file again by joining
the key to the root. For the files below a source directory only the names can be lost on the way,
however root and source directory are spelled: the path that is found is the one that was scanned
exactly when its part behind the root is a text. Files of which this holds have different keys, so
the inventory keeps the records of every file, and the report puts every file under the folder in
which it was found. The folder can be read off the key in any case.
-/
namespace CodeAtlas

namespace DistinctKeys

variable {root : Path} {files : List SourceUnit} {u : SourceUnit}

/-- The inventory has the records of every file under its key, those of no other file. -/
theorem get?_inventory (h : DistinctKeys root files) (sourceDir : Path) (hu : u ∈ files) :
    (AuditCorpus.ofUnits root sourceDir files).inventory.get? (Inventory.key root u.path) =
      if Inventory.extract u.text = [] then none else some (Inventory.extract u.text) := by
  have recorded : DistinctKeys root (files.filter SourceUnit.isRecorded) := h.filter _
  ext records
  rw [← NameMap.mem_entries_iff (e := (Inventory.key root u.path, records)),
    AuditCorpus.mem_inventory_iff]
  simp only [recorded.isLast_iff, List.mem_filter]
  constructor
  · rintro ⟨v, ⟨hv, filled⟩, same⟩
    obtain ⟨sameKey, rfl⟩ := Prod.mk.inj same
    cases h.eq_of_key_eq hv hu sameKey
    rw [if_neg (SourceUnit.isRecorded_iff.mp filled)]
  · intro found
    split at found
    · cases found
    next filled =>
      cases found
      exact ⟨u, ⟨hu, SourceUnit.isRecorded_iff.mpr filled⟩, rfl⟩

/-- The report has a file under the folder in which it lies, and under no other. -/
theorem key_mem_filesIn_iff [PatternLimit] (h : DistinctKeys root files)
    (config : AuditConfig) {sourceDir : Path} (folders : ∀ u ∈ files,
      Audit.folderOfKey root sourceDir (Inventory.key root u.path) =
        Audit.folderOf sourceDir u.path)
    (hu : u ∈ files) (filled : Inventory.extract u.text ≠ [])
    (kept : Audit.folderOf sourceDir u.path ∉ config.skipDirs) (folder : String) :
    Inventory.key root u.path ∈
        ((Audit.report config root (.ofUnits root sourceDir files)).filesIn folder).map (·.path) ↔
      folder = Audit.folderOf sourceDir u.path := by
  rw [((Audit.filesIn_report_perm h folders).map _).mem_iff, List.map_map, List.mem_map]
  constructor
  · intro found
    obtain ⟨v, hv, same⟩ := found
    obtain ⟨hv, due⟩ := List.mem_filter.mp hv
    cases h.eq_of_key_eq hv hu same
    exact (Audit.isDue_iff.mp due).2.1.symm
  · intro lies
    subst lies
    exact ⟨u, List.mem_filter.mpr
      ⟨hu, Audit.isDue_iff.mpr ⟨SourceUnit.isRecorded_iff.mpr filled, rfl, kept⟩⟩, rfl⟩

end DistinctKeys

end CodeAtlas
