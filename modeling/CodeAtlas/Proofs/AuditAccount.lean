import CodeAtlas.Proofs.AuditLoading
import CodeAtlas.Proofs.AuditTraversal
import CodeAtlas.Proofs.PathOrder
import CodeAtlas.Proofs.ShownPaths
import Mathlib.Data.List.Pairwise
import Mathlib.Data.List.Perm.Basic

/-!
# A report accounts for every key

The files of an audit are kept three times: as texts, in the inventory, and in the report, and only
their keys join them. The files that a scan finds below a source directory are different paths, but
a key is a text, and names that are not texts may be shown alike. Of the files under one key the
last one with records gives the records, and the last one of all the lines. The key still tells the
folder.

Where no two files share a key, and so where their paths are texts, the three agree: every file with
records stands once in the report, under the folder that it lies in, with figures taken from its own
text.
-/
namespace CodeAtlas

/-! ## Scanned files -/

section

variable {tree : FileTree} {path : Path} {dir : Location}

namespace FileTree

theorem eq_append_of_found? {e : Location × FileEntry} {found : List Bytes × FileKind}
    (h : tree.found? path dir e = some found) : e.1 = dir ++ found.1 := by
  unfold found? at h
  dsimp only at h
  split at h
  next reached =>
    cases h
    rw [Bool.and_eq_true, List.isPrefixOf_iff_prefix] at reached
    exact (List.prefix_iff_eq_append.mp reached.1).symm
  · cases h

/-- A search comes to every place once. -/
theorem pairwise_entriesUnder (tree : FileTree) (path : Path) (dir : Location) :
    (tree.entriesUnder path dir).Pairwise fun a b => a.1 ≠ b.1 := by
  refine List.Pairwise.filterMap _ ?_ tree.unique
  intro a b different found hfound found' hfound' same
  apply different
  rw [eq_append_of_found? hfound, eq_append_of_found? hfound', same]

theorem named_of_mem_entriesUnder {found : List Bytes × FileKind}
    (h : found ∈ tree.entriesUnder path dir) :
    found.1.all FileEntry.isName = true := by
  obtain ⟨e, he, hfound⟩ := List.mem_filterMap.mp h
  have named := tree.named e he
  rw [eq_append_of_found? hfound, List.all_append, Bool.and_eq_true] at named
  exact named.2

theorem entriesBelow_cases (tree : FileTree) (path : Path) :
    tree.entriesBelow path = [] ∨ ∃ dir, tree.entriesBelow path = tree.entriesUnder path dir := by
  unfold entriesBelow
  split
  next dir _ => exact .inr ⟨dir, rfl⟩
  · exact .inl rfl

theorem pairwise_entriesBelow (tree : FileTree) (path : Path) :
    (tree.entriesBelow path).Pairwise fun a b => a.1 ≠ b.1 := by
  rcases tree.entriesBelow_cases path with h | ⟨dir, h⟩
  · rw [h]
    exact .nil
  · rw [h]
    exact tree.pairwise_entriesUnder path dir

theorem named_of_mem_entriesBelow {found : List Bytes × FileKind}
    (h : found ∈ tree.entriesBelow path) :
    found.1.all FileEntry.isName = true := by
  rcases tree.entriesBelow_cases path with h' | ⟨dir, h'⟩
  · rw [h'] at h
    cases h
  · rw [h'] at h
    exact named_of_mem_entriesUnder h

end FileTree

namespace Scan

variable {dir : Path} {entries : List (List Bytes × FileKind)} {p : Path}

theorem mem_files_iff : p ∈ files dir entries ↔ ∃ names, (names, .file) ∈ entries ∧
    p = dir.descend names := by
  rw [files, List.mem_map]
  constructor
  · rintro ⟨⟨names, kind⟩, mem, rfl⟩
    obtain ⟨mem, file⟩ := List.mem_filter.mp mem
    obtain rfl : kind = .file := of_decide_eq_true file
    exact ⟨names, mem, rfl⟩
  · rintro ⟨names, mem, rfl⟩
    exact ⟨(names, .file), List.mem_filter.mpr ⟨mem, rfl⟩, rfl⟩

theorem separate_files (apart : entries.Pairwise fun a b => a.1 ≠ b.1)
    (named : ∀ e ∈ entries, e.1.all FileEntry.isName = true) (dir : Path) :
    (files dir entries).Pairwise fun p q => p.components ≠ q.components := by
  have nodup : ((entries.filter fun entry => entry.2 = .file).map Prod.fst).Nodup :=
    List.pairwise_map.mpr (apart.filter _)
  have separate := Path.separate_descend nodup (fun names hnames => ?_) dir
  · rw [List.map_map] at separate
    exact separate
  · obtain ⟨e, he, rfl⟩ := List.mem_map.mp hnames
    exact named e (List.mem_of_mem_filter he)

end Scan

namespace FileTree

theorem exists_names_of_mem_scanned {extension : String} {p : Path}
    (h : p ∈ tree.scanned extension path) :
    ∃ names : List Bytes, names.all FileEntry.isName = true ∧ p = path.descend names := by
  have selected := (List.mem_filter.mp (List.mem_mergeSort.mp h)).1
  obtain ⟨names, found, rfl⟩ := Scan.mem_files_iff.mp selected
  exact ⟨names, named_of_mem_entriesBelow found, rfl⟩

/-- A scan finds every file once. -/
theorem separate_scanned (tree : FileTree) (extension : String) (path : Path) :
    (tree.scanned extension path).Pairwise fun p q => p.components ≠ q.components := by
  have below :=
    Scan.separate_files (tree.pairwise_entriesBelow path) (fun _ => named_of_mem_entriesBelow) path
  have symmetric : ∀ {p q : Path}, p.components ≠ q.components → q.components ≠ p.components :=
    Ne.symm
  exact ((List.mergeSort_perm _ _).pairwise_iff symmetric).mpr (below.filter _)

theorem path_of_unit? {p : Path} {unit : SourceUnit} (h : tree.unit? p = some unit) :
    unit.path = p := by
  unfold unit? at h
  split at h
  · cases h
  · obtain ⟨text, -, rfl⟩ := Option.map_eq_some_iff.mp h
    rfl

theorem separate_readable (tree : FileTree) (extension : String) (dir : Path) :
    (tree.readable (tree.scanned extension dir)).Pairwise fun u v =>
      u.path.components ≠ v.path.components := by
  refine List.Pairwise.filterMap _ ?_ (tree.separate_scanned extension dir)
  intro p q different u hu v hv
  rwa [path_of_unit? hu, path_of_unit? hv]

/-- The files of an audit go on from the source directory by names. -/
theorem exists_extends_of_mem_readable {extension : String} {u : SourceUnit}
    (hu : u ∈ tree.readable (tree.scanned extension path)) :
    ∃ names, u.path.Extends path names := by
  obtain ⟨p, hp, read⟩ := List.mem_filterMap.mp hu
  obtain ⟨names, named, rfl⟩ := exists_names_of_mem_scanned hp
  exact ⟨names, path_of_unit? read ▸ Path.extends_descend named path⟩

end FileTree

end

/-! ## Folders -/

namespace Audit

/-- Seen from the source directory, a path below it is the names that lead there. -/
theorem names_of_extends {dir p : Path} {names : List Bytes} (h : p.Extends dir names) :
    (p.relativeTo dir).components.filterMap Component.name? = names := by
  have below : (p.relativeTo dir).components = names.map .name := by
    rw [Path.components_relativeTo (h ▸ List.prefix_append _ _), h, List.drop_left]
  rw [below, List.filterMap_map]
  exact List.filterMap_some

/-- The folder of a path depends on how its names are shown. -/
theorem folderOf_congr {dir p q : Path} {names names' : List Bytes} (hp : p.Extends dir names)
    (hq : q.Extends dir names') (shown : names'.map Text.lossy = names.map Text.lossy) :
    folderOf dir q = folderOf dir p := by
  unfold folderOf
  rw [names_of_extends hp, names_of_extends hq]
  rcases names with _ | ⟨a, _ | ⟨b, names⟩⟩ <;> rcases names' with _ | ⟨a', _ | ⟨b', names'⟩⟩ <;>
    simp_all

/-- The folder of a path below the source directory can be told by its key. -/
theorem folderOfKey_eq {root dir p : Path} {names : List Bytes} (text : Text.IsText dir.bytes)
    (h : p.Extends (root.join dir) names) :
    folderOfKey root (root.join dir) (Inventory.key root p) = folderOf (root.join dir) p := by
  obtain ⟨names', shown, found⟩ := Path.exists_extends_join_shown text h
  exact folderOf_congr h found shown

end Audit

/-! ## Keys -/

/-- The last file of a list under its key. -/
def IsLast (root : Path) (files : List SourceUnit) (unit : SourceUnit) : Prop :=
  ∃ before after, files = before ++ unit :: after ∧
    ∀ other ∈ after, Inventory.key root other.path ≠ Inventory.key root unit.path

/-- Among files that are kept by key, the last one under a key is found. -/
theorem NameMap.get?_ofList_files {β : Type} {root : Path} {files : List SourceUnit}
    {value : SourceUnit → β} {key : String} {v : β} :
    (ofList (files.map fun unit => (Inventory.key root unit.path, value unit))).get? key = some v ↔
      ∃ unit, IsLast root files unit ∧ Inventory.key root unit.path = key ∧ value unit = v := by
  rw [get?_ofList, List.lookup_eq_some_iff]
  constructor
  · rintro ⟨after, before, spelled, others⟩
    rw [List.reverse_eq_iff, List.reverse_append, List.reverse_cons, List.append_assoc,
      List.singleton_append, List.map_eq_append_iff] at spelled
    obtain ⟨front, rest, rfl, -, spelled⟩ := spelled
    obtain ⟨unit, back, rfl, found, behind⟩ := List.map_eq_cons_iff.mp spelled
    obtain ⟨rfl, rfl⟩ := Prod.mk.inj found
    refine ⟨unit, ⟨front, back, rfl, fun other mem same => ?_⟩, rfl, rfl⟩
    have listed : (Inventory.key root other.path, value other) ∈ after := by
      rw [← List.mem_reverse, ← behind]
      exact List.mem_map_of_mem mem
    have different := others _ listed
    rw [bne_iff_ne] at different
    exact different same.symm
  · rintro ⟨unit, ⟨before, after, rfl, others⟩, rfl, rfl⟩
    refine ⟨(after.map fun unit => (Inventory.key root unit.path, value unit)).reverse,
      (before.map fun unit => (Inventory.key root unit.path, value unit)).reverse, by simp, ?_⟩
    intro e listed
    obtain ⟨other, mem, rfl⟩ := List.mem_map.mp (List.mem_reverse.mp listed)
    rw [bne_iff_ne]
    exact (others other mem).symm

theorem IsLast.mem {root : Path} {files : List SourceUnit} {unit : SourceUnit}
    (h : IsLast root files unit) :
    unit ∈ files := by
  obtain ⟨before, after, rfl, -⟩ := h
  simp

theorem exists_isLast (root : Path) {files : List SourceUnit}
    {unit : SourceUnit} (h : unit ∈ files) :
    ∃ last, IsLast root files last ∧ Inventory.key root last.path =
      Inventory.key root unit.path := by
  induction files generalizing unit with
  | nil => cases h
  | cons first files ih =>
    by_cases later : ∃ other ∈ files, Inventory.key root other.path = Inventory.key root unit.path
    · obtain ⟨other, mem, same⟩ := later
      obtain ⟨last, ⟨before, after, rfl, others⟩, found⟩ := ih mem
      exact ⟨last, ⟨first :: before, after, rfl, others⟩, found.trans same⟩
    · have here : unit = first := by
        refine (List.mem_cons.mp h).resolve_right fun mem => later ⟨unit, mem, rfl⟩
      subst here
      exact ⟨unit, ⟨[], files, rfl, fun other mem same => later ⟨other, mem, same⟩⟩, rfl⟩

/-- The audit that stands under a key: with the records of one file and the lines of one, which may
be another. -/
def FileAudit.ofUnits [PatternLimit] (rules : HealthRules) (root : Path) (files : List SourceUnit)
    (recorded read : SourceUnit) : FileAudit :=
  let records := Inventory.extract recorded.text
  { path := Inventory.key root recorded.path
    lineCount := (Text.lines read.text).length
    recordCount := records.length
    functions := (records.filter fun r => r.kind ≠ .classDecl).map
      (.ofRecord rules files (Text.lines read.text)) }

/-- The audit of a file, from its own text. -/
def FileAudit.ofUnit [PatternLimit] (rules : HealthRules) (root : Path) (files : List SourceUnit)
    (unit : SourceUnit) : FileAudit :=
  .ofUnits rules root files unit unit

/-- Whether a file has records. -/
def SourceUnit.isRecorded (unit : SourceUnit) : Bool :=
  !(Inventory.extract unit.text).isEmpty

theorem SourceUnit.isRecorded_iff {unit : SourceUnit} : unit.isRecorded = true ↔
    Inventory.extract unit.text ≠ [] := by
  simp [isRecorded]

/-- No two files have one key. -/
def DistinctKeys (root : Path) (files : List SourceUnit) : Prop :=
  files.Pairwise fun u v => Inventory.key root u.path ≠ Inventory.key root v.path

namespace DistinctKeys

variable {root : Path} {files : List SourceUnit} {u v : SourceUnit}

theorem eq_of_key_eq (h : DistinctKeys root files) (hu : u ∈ files) (hv : v ∈ files)
    (same : Inventory.key root u.path = Inventory.key root v.path) : u = v := by
  refine Decidable.byContradiction fun different => ?_
  have : Std.Symm fun u v : SourceUnit => Inventory.key root u.path ≠ Inventory.key root v.path :=
    ⟨fun _ _ h => h.symm⟩
  exact h.forall hu hv different same

theorem isLast_iff (h : DistinctKeys root files) : IsLast root files u ↔ u ∈ files := by
  refine ⟨IsLast.mem, fun hu => ?_⟩
  obtain ⟨last, isLast, same⟩ := exists_isLast root hu
  rwa [h.eq_of_key_eq isLast.mem hu same] at isLast

/-- Files whose paths are texts, as seen from the root, have different keys. -/
theorem of_texts {dir : Path} (separate : files.Pairwise fun u v =>
    u.path.components ≠ v.path.components) (below : ∀ u ∈ files, ∃ names,
    u.path.Extends (root.join dir) names) (texts : ∀ u ∈ files,
    Text.IsText (u.path.relativeTo root).bytes) : DistinctKeys root files := by
  have found : ∀ u ∈ files, (root.join (.ofText (Inventory.key root u.path))).components =
      u.path.components := by
    intro u hu
    obtain ⟨names, extends'⟩ := below u hu
    exact (Path.components_join_shown_iff (Path.below_or_isAbsolute_of_extends extends')).mpr
      (texts u hu)
  refine separate.imp_of_mem ?_
  intro u v hu hv different same
  apply different
  rw [← found u hu, ← found v hv, same]

end DistinctKeys

theorem AuditCorpus.filterMap_keyedRecords? (root : Path) (files : List SourceUnit) :
    files.filterMap (keyedRecords? root) =
      (files.filter SourceUnit.isRecorded).map fun u =>
        (Inventory.key root u.path, Inventory.extract u.text) := by
  rw [← List.filterMap_eq_map, List.filterMap_filter]
  refine List.filterMap_congr fun u _ => ?_
  unfold keyedRecords? SourceUnit.isRecorded
  by_cases none : (Inventory.extract u.text).isEmpty = true <;> simp [none]

/-- Of each key the inventory has the records of the last file with records. -/
theorem AuditCorpus.mem_inventory_iff {root sourceDir : Path} {files : List SourceUnit}
    {entry : String × List Record} :
    entry ∈ (ofUnits root sourceDir files).inventory.entries ↔
      ∃ u, IsLast root (files.filter SourceUnit.isRecorded) u ∧
        (Inventory.key root u.path, Inventory.extract u.text) = entry := by
  have inventory : (ofUnits root sourceDir files).inventory =
      .ofList (files.filterMap (keyedRecords? root)) := rfl
  rw [NameMap.mem_entries_iff, inventory, filterMap_keyedRecords?, NameMap.get?_ofList_files]
  simp only [Prod.ext_iff]

/-- Of each key the texts have that of the last file. -/
theorem Audit.get?_textsByKey {root : Path} {files : List SourceUnit} {u : SourceUnit}
    (h : IsLast root files u) :
    (textsByKey root files).get? (Inventory.key root u.path) = some u.text :=
  NameMap.get?_ofList_files.mpr ⟨u, h, rfl, rfl⟩

/-! ## The account -/

namespace Audit

/-- Whether a file belongs under a folder of the report: it has records, it lies in that folder, and
the folder is not skipped. -/
def isDue (config : AuditConfig) (sourceDir : Path) (folder : String) (unit : SourceUnit) : Bool :=
  unit.isRecorded && folderOf sourceDir unit.path = folder &&
    !config.skipDirs.contains folder

theorem isDue_iff {config : AuditConfig} {sourceDir : Path} {folder : String} {unit : SourceUnit} :
    isDue config sourceDir folder unit = true ↔
      unit.isRecorded = true ∧ folderOf sourceDir unit.path = folder ∧
      folder ∉ config.skipDirs := by
  simp [isDue, and_assoc]

/-- The audit of an entry, if its place is under a folder. -/
def placedIn? [PatternLimit] (config : AuditConfig) (root sourceDir : Path)
    (files : List SourceUnit) (texts : NameMap String) (folder : String)
    (entry : String × List Record) : Option FileAudit :=
  ((placed? config root sourceDir files texts entry).filter fun p => p.1 = folder).map Prod.snd

section

variable {config : AuditConfig} {root sourceDir : Path} {files : List SourceUnit} {folder : String}

theorem placedIn?_eq_some [PatternLimit] {texts : NameMap String} {entry : String × List Record}
    {file : FileAudit} :
    placedIn? config root sourceDir files texts folder entry = some file ↔
      folderOfKey root sourceDir entry.1 = folder ∧ folder ∉ config.skipDirs ∧
        .ofEntry ⟨config.largeFunctionLines⟩ files texts entry = file := by
  simp only [placedIn?, Option.map_eq_some_iff, Option.filter_eq_some_iff,
    placed?_eq_some, decide_eq_true_eq]
  constructor
  · intro h
    obtain ⟨p, ⟨⟨kept, own, audit⟩, same⟩, rfl⟩ := h
    rw [same] at kept own
    exact ⟨own.symm, kept, audit.symm⟩
  · intro h
    obtain ⟨own, kept, audit⟩ := h
    exact ⟨(folder, file), ⟨⟨kept, own.symm, audit.symm⟩, rfl⟩, rfl⟩

theorem filesIn_report [PatternLimit] (config : AuditConfig) (root : Path)
    (corpus : AuditCorpus) (folder : String) :
    (report config root corpus).filesIn folder = corpus.inventory.entries.filterMap
      (placedIn? config root corpus.sourceDir corpus.files (textsByKey root corpus.files)
        folder) := by
  rw [report_eq, AuditReport.filesIn_addFiles, placedFiles,
    List.filter_filterMap, List.map_filterMap]
  rfl

/-- What stands under a folder: for each key of a file with records that lies there, the records of
the last such file and the lines of the last file of all. -/
theorem mem_filesIn_report_iff [PatternLimit] {file : FileAudit}
    (folders : ∀ u ∈ files, folderOfKey root sourceDir (Inventory.key root u.path) =
      folderOf sourceDir u.path) :
    file ∈ (report config root (.ofUnits root sourceDir files)).filesIn folder ↔
      ∃ u w, IsLast root (files.filter SourceUnit.isRecorded) u ∧ IsLast root files w ∧
        Inventory.key root w.path = Inventory.key root u.path ∧
        folderOf sourceDir u.path = folder ∧ folder ∉ config.skipDirs ∧
        .ofUnits ⟨config.largeFunctionLines⟩ root files u w = file := by
  have audit {u w : SourceUnit} (last : IsLast root files w)
      (same : Inventory.key root w.path = Inventory.key root u.path) :
      FileAudit.ofEntry ⟨config.largeFunctionLines⟩ files (textsByKey root files)
        (Inventory.key root u.path, Inventory.extract u.text) =
      .ofUnits ⟨config.largeFunctionLines⟩ root files u w := by
    unfold FileAudit.ofEntry FileAudit.ofUnits
    rw [← same, get?_textsByKey last, Option.getD_some]
  rw [filesIn_report, List.mem_filterMap]
  constructor
  · rintro ⟨entry, listed, placed⟩
    obtain ⟨u, recorded, rfl⟩ := AuditCorpus.mem_inventory_iff.mp listed
    obtain ⟨lies, kept, rfl⟩ := placedIn?_eq_some.mp placed
    have hu := List.mem_of_mem_filter recorded.mem
    obtain ⟨w, last, same⟩ := exists_isLast root hu
    exact ⟨u, w, recorded, last, same, (folders u hu).symm.trans lies, kept, (audit last same).symm⟩
  · rintro ⟨u, w, recorded, last, same, lies, kept, rfl⟩
    have hu := List.mem_of_mem_filter recorded.mem
    exact ⟨_, AuditCorpus.mem_inventory_iff.mpr ⟨u, recorded, rfl⟩,
      placedIn?_eq_some.mpr ⟨(folders u hu).trans lies, kept, audit last same⟩⟩

theorem filesIn_report_increasing [PatternLimit] (config : AuditConfig) (root : Path)
    (corpus : AuditCorpus) (folder : String) :
    ((report config root corpus).filesIn folder).Pairwise fun a b => a.path < b.path := by
  rw [filesIn_report]
  refine List.Pairwise.filterMap _ ?_ corpus.inventory.increasing
  intro a b increasing file hfile file' hfile'
  obtain ⟨-, -, rfl⟩ := placedIn?_eq_some.mp hfile
  obtain ⟨-, -, rfl⟩ := placedIn?_eq_some.mp hfile'
  exact increasing

/-- A folder that appears is not skipped, and has a file. -/
theorem of_mem_folders_report [PatternLimit] {corpus : AuditCorpus}
    (h : folder ∈ (report config root corpus).folders.keys) :
    folder ∉ config.skipDirs ∧ (report config root corpus).filesIn folder ≠ [] := by
  rw [report_eq, AuditReport.mem_folders_addFiles] at h
  rcases h with none | ⟨p, hp, rfl⟩
  · cases none
  · obtain ⟨entry, -, hplaced⟩ := List.mem_filterMap.mp hp
    have file : p.2 ∈ (report config root corpus).filesIn p.1 := by
      rw [report_eq, AuditReport.filesIn_addFiles, List.mem_append, List.mem_map]
      exact .inr ⟨p, List.mem_filter.mpr ⟨hp, by simp⟩, rfl⟩
    exact ⟨(placed?_eq_some.mp hplaced).1, List.ne_nil_of_mem file⟩

/-- Where keys are different, what stands under a folder are the files that are due there. -/
theorem filesIn_report_perm [PatternLimit] (distinct : DistinctKeys root files)
    (folders : ∀ u ∈ files, folderOfKey root sourceDir (Inventory.key root u.path) =
      folderOf sourceDir u.path) :
    ((report config root (.ofUnits root sourceDir files)).filesIn folder).Perm
      ((files.filter (isDue config sourceDir folder)).map
        (.ofUnit ⟨config.largeFunctionLines⟩ root files)) := by
  have once : ((report config root (.ofUnits root sourceDir files)).filesIn folder).Nodup := by
    refine (filesIn_report_increasing config root _ folder).imp fun lt same => ?_
    exact String.lt_irrefl _ (same ▸ lt)
  have due : ((files.filter (isDue config sourceDir folder)).map
      (FileAudit.ofUnit ⟨config.largeFunctionLines⟩ root files)).Nodup := by
    rw [List.Nodup, List.pairwise_map]
    refine (distinct.filter _).imp fun different same => ?_
    exact different (congrArg FileAudit.path same)
  have recorded : DistinctKeys root (files.filter SourceUnit.isRecorded) := distinct.filter _
  rw [List.perm_ext_iff_of_nodup once due]
  intro file
  rw [mem_filesIn_report_iff folders, List.mem_map]
  simp only [recorded.isLast_iff, distinct.isLast_iff, List.mem_filter, isDue_iff]
  constructor
  · rintro ⟨u, w, ⟨hu, filled⟩, hw, same, lies, kept, rfl⟩
    cases distinct.eq_of_key_eq hw hu same
    exact ⟨u, ⟨hu, filled, lies, kept⟩, rfl⟩
  · rintro ⟨u, ⟨hu, filled, lies, kept⟩, rfl⟩
    exact ⟨u, u, ⟨hu, filled⟩, hu, rfl, lies, kept, rfl⟩

end

end Audit

/-- A report that accounts for every key of an audit. -/
structure AuditReport.AccountsFor [PatternLimit] (report : AuditReport) (config : AuditConfig)
    (root sourceDir : Path) (files : List SourceUnit) : Prop where
  /-- a folder holds the keys of the files with records that lie there, each with the records of the
  last of these and the lines of the last file of all -/
  filesIn : ∀ folder file, file ∈ report.filesIn folder ↔
    ∃ u w, IsLast root (files.filter SourceUnit.isRecorded) u ∧ IsLast root files w ∧
      Inventory.key root w.path = Inventory.key root u.path ∧
      Audit.folderOf sourceDir u.path = folder ∧ folder ∉ config.skipDirs ∧
      .ofUnits ⟨config.largeFunctionLines⟩ root files u w = file
  /-- where keys are different, it holds exactly the files that are due there, each with figures of
  its own -/
  ofUnit : DistinctKeys root files → ∀ folder, (report.filesIn folder).Perm
    ((files.filter (Audit.isDue config sourceDir folder)).map
      (.ofUnit ⟨config.largeFunctionLines⟩ root files))
  increasing : ∀ folder, (report.filesIn folder).Pairwise fun a b => a.path < b.path
  folders : ∀ folder ∈ report.folders.keys, folder ∉ config.skipDirs ∧ report.filesIn folder ≠ []
  counted : report.Counted
  orphaned_le : report.summary.orphaned ≤ report.summary.totalFunctions
  flagged_le : report.summary.flagged ≤ report.summary.totalFunctions

theorem Audit.accountsFor_report [PatternLimit] (config : AuditConfig) {root sourceDir : Path}
    {files : List SourceUnit} (folders : ∀ u ∈ files,
      folderOfKey root sourceDir (Inventory.key root u.path) = folderOf sourceDir u.path) :
    (report config root (.ofUnits root sourceDir files)).AccountsFor config root
      sourceDir files := by
  have counted := counted_report config root (.ofUnits root sourceDir files)
  refine {
    filesIn := fun folder file => mem_filesIn_report_iff folders
    ofUnit := fun distinct folder => filesIn_report_perm distinct folders
    increasing := filesIn_report_increasing config root _
    folders := fun folder hfolder => of_mem_folders_report hfolder
    counted := counted
    orphaned_le := ?orphaned
    flagged_le := ?flagged }
  case orphaned =>
    rw [counted.orphaned, counted.functions]
    exact List.countP_le_length
  case flagged =>
    rw [counted.flagged, counted.functions]
    exact List.countP_le_length

end CodeAtlas
