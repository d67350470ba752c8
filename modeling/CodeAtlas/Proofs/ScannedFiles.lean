import CodeAtlas.Proofs.AuditAccount
import CodeAtlas.Proofs.FileWriting

/-!
# What a scan finds

A walk below a directory delivers entries with their kinds; a scan keeps the regular files among
them, of these the ones with the extension asked for, and sorts them. `FileTree.Reaches` says which
entries there are to be delivered: those to which names lead down from the directory, through
directories and never through a link. A walk that delivers each of them once, in whatever order,
makes the scan answer with just the files that have the extension, as a strictly increasing list of
paths, and there is only one such list.

The walk of a file tree delivers each entry once as well. It enters a directory only by a path that
is not refused, so what it delivers are the entries above which every directory can be opened, and
all of them if every directory can.
-/
namespace CodeAtlas

/-! ## Extensions -/

namespace Path

/-- A name made of a stem, the last dot, and the extension; the stem is not empty. -/
def HasExtension (name extension : Bytes) : Prop :=
  ∃ stem, stem ≠ [] ∧ name = stem ++ dot :: extension ∧ dot ∉ extension

theorem nameExtension?_eq_some_iff {name extension : Bytes} :
    nameExtension? name = some extension ↔ HasExtension name extension := by
  have inside {cs : Bytes} (plain : dot ∉ cs) : ∀ c ∈ cs, decide (c ≠ dot) = true := by
    intro c hc
    exact decide_eq_true fun isDot => plain (isDot ▸ hc)
  unfold nameExtension?
  dsimp only
  constructor
  · intro h
    have parts : name.reverse.takeWhile (· ≠ dot) ++ name.reverse.dropWhile (· ≠ dot) =
        name.reverse :=
      List.takeWhile_append_dropWhile
    have stops := List.head?_dropWhile_not (fun c => decide (c ≠ dot)) name.reverse
    have plain : dot ∉ name.reverse.takeWhile (· ≠ dot) := by
      intro mem
      simpa using List.all_eq_true.mp List.all_takeWhile dot mem
    split at h
    next c d rest last =>
      cases h
      rw [last] at parts stops
      obtain rfl : c = dot := by simpa using stops
      refine ⟨(d :: rest).reverse, by simp, ?_, by simpa using plain⟩
      have spelled := congrArg List.reverse parts
      rw [List.reverse_reverse, List.reverse_append, List.reverse_cons,
        List.append_assoc] at spelled
      exact spelled.symm
    · cases h
  · intro h
    obtain ⟨stem, filled, rfl, plain⟩ := h
    have plain : dot ∉ extension.reverse := by simpa using plain
    have reversed : (stem ++ dot :: extension).reverse = extension.reverse ++ dot ::
        stem.reverse := by
      simp
    have taken : (dot :: stem.reverse).takeWhile (fun c => decide (c ≠ dot)) = [] := by simp
    have dropped : (dot :: stem.reverse).dropWhile (fun c => decide (c ≠ dot)) = dot ::
        stem.reverse := by
      simp
    rw [reversed, List.takeWhile_append_of_pos (inside plain),
      List.dropWhile_append_of_pos (inside plain), taken, dropped, List.append_nil,
      List.reverse_reverse]
    obtain ⟨c, rest, hrest⟩ :=
      List.exists_cons_of_ne_nil (l := stem.reverse) (by simpa using filled)
    rw [hrest]

theorem extension?_descend {names : List Bytes} (named : names.all FileEntry.isName = true)
    {name : Bytes} (last : names.getLast? = some name) (p : Path) :
    (p.descend names).extension? = nameExtension? name := by
  rw [extension?, fileName?, components_descend named, List.getLast?_append,
    List.getLast?_map, last]
  rfl

end Path

namespace Scan

/-- What is left of an extension without the dots in front of it. -/
def IsBare (extension bare : String) : Prop :=
  ∃ n, extension.toList = List.replicate n '.' ++ bare.toList ∧ bare.toList.head? ≠ some '.'

theorem bareExtension_eq_iff {extension bare : String} : bareExtension extension = bare ↔
    IsBare extension bare := by
  have replicated (n : Nat) : ∀ c ∈ List.replicate n '.', decide (c = '.') = true := by
    intro c hc
    exact decide_eq_true (List.eq_of_mem_replicate hc)
  unfold bareExtension
  constructor
  · rintro rfl
    have dots : ∀ c ∈ extension.toList.takeWhile (· = '.'), c = '.' := by
      intro c hc
      exact of_decide_eq_true (List.all_eq_true.mp List.all_takeWhile c hc)
    refine ⟨(extension.toList.takeWhile (· = '.')).length, ?_, ?_⟩
    · rw [← List.eq_replicate_of_mem dots, String.toList_ofList, List.takeWhile_append_dropWhile]
    · rw [String.toList_ofList]
      intro dot
      have stops := List.head?_dropWhile_not (fun c => decide (c = '.')) extension.toList
      rw [dot] at stops
      exact absurd stops (by decide)
  · intro h
    obtain ⟨n, parts, stops⟩ := h
    rw [parts, List.dropWhile_append_of_pos (replicated n), ← String.toList_inj,
      String.toList_ofList]
    cases spelled : bare.toList with
    | nil => rfl
    | cons c cs =>
      rw [spelled] at stops
      rw [List.dropWhile_cons_of_neg]
      simpa using stops

end Scan

/-! ## Entries to be delivered -/

namespace FileTree

variable {tree : FileTree} {path : Path} {place : Location} {names : List Bytes} {kind : FileKind}

/-- A path leads to a directory, links followed. -/
def LeadsTo (tree : FileTree) (path : Path) (place : Location) : Prop :=
  refusal? path = none ∧
    Route tree linkLimit (start path.bytes tree.workDir) (steps path.bytes) (.directory place)

theorem follow_eq_directory_iff : tree.follow path = .ok (.directory place) ↔
    tree.LeadsTo path place := by
  constructor
  · intro h
    obtain ⟨admitted, walked⟩ := follow_eq_ok h
    exact ⟨admitted, route_of_walk walked⟩
  · intro h
    unfold follow
    rw [h.1]
    exact h.2.walk_eq

theorem LeadsTo.unique {other : Location} (h : tree.LeadsTo path place)
    (h' : tree.LeadsTo path other) :
    place = other := by
  cases (follow_eq_directory_iff.mpr h).symm.trans (follow_eq_directory_iff.mpr h')
  rfl

/-- The directory that a path leads to. -/
def directory? (tree : FileTree) (path : Path) : Option Location :=
  match tree.follow path with
  | .ok (.directory place) => some place
  | _ => none

theorem directory?_eq_some_iff : tree.directory? path = some place ↔ tree.LeadsTo path place := by
  rw [← follow_eq_directory_iff]
  unfold directory?
  split
  next found => simp [found]
  next other => simpa using other place

instance (tree : FileTree) (path : Path) (place : Location) : Decidable (tree.LeadsTo path place) :=
  decidable_of_iff _ directory?_eq_some_iff

theorem isDirectory_iff : tree.isDirectory path = true ↔ ∃ place, tree.LeadsTo path place := by
  simp only [← follow_eq_directory_iff]
  unfold isDirectory isKind FileTree.kind
  cases tree.follow path with
  | error cause => simp [bind, Except.bind]
  | ok landing =>
    cases landing <;> simp [bind, Except.bind, pure, Except.pure, throw, throwThe,
      MonadExceptOf.throw]

/-- Names lead down from a directory to something of a kind, through directories and never through a
link. -/
inductive Reaches (tree : FileTree) : Location → List Bytes → FileKind → Prop
  | here {dir : Location} {name : Bytes} {entry : FileEntry} :
      tree.entry? (dir ++ [name]) = some entry → Reaches tree dir [name] entry.kind
  | enter {dir : Location} {name : Bytes} {rest : List Bytes} {kind : FileKind} :
      tree.entry? (dir ++ [name]) = some .directory → Reaches tree (dir ++ [name]) rest kind →
        Reaches tree dir (name :: rest) kind

theorem mem_entries_iff {e : FileEntry} : (place, e) ∈ tree.entries ↔ tree.entry? place = some e :=
  ⟨lookup_of_mem tree.unique, mem_of_lookup⟩

/-- An entry is reached when everything between it and the directory is a directory. -/
theorem reaches_iff {dir : Location} : tree.Reaches dir names kind ↔
    names ≠ [] ∧ (∃ entry, tree.entry? (dir ++ names) = some entry ∧ entry.kind = kind) ∧
      ∀ n, 0 < n → n < names.length → tree.entry? (dir ++ names.take n) = some .directory := by
  constructor
  · intro h
    induction h with
    | here found =>
      exact ⟨List.cons_ne_nil _ _, ⟨_, found, rfl⟩, fun n positive less => by simp at less; omega⟩
    | @enter dir name rest kind found _ ih =>
      obtain ⟨-, entry, between⟩ := ih
      refine ⟨List.cons_ne_nil _ _, by simpa using entry, ?_⟩
      intro n positive less
      obtain ⟨n, rfl⟩ := Nat.exists_eq_succ_of_ne_zero (Nat.ne_of_gt positive)
      rw [List.take_succ_cons]
      cases n with
      | zero => simpa using found
      | succ n => simpa using between (n + 1) (Nat.succ_pos n) (by simpa using less)
  · intro h
    induction names generalizing dir with
    | nil => exact absurd rfl h.1
    | cons name rest ih =>
      obtain ⟨-, there, between⟩ := h
      cases rest with
      | nil =>
        obtain ⟨entry, found, rfl⟩ := there
        exact .here found
      | cons next rest =>
        have entered : tree.entry? (dir ++ [name]) = some .directory := by
          simpa using between 1 Nat.one_pos (by simp)
        refine .enter entered (ih ⟨List.cons_ne_nil _ _, by simpa using there, ?_⟩)
        intro n positive less
        simpa using between (n + 1) (Nat.succ_pos n) (by simpa using less)

theorem Reaches.named {dir : Location} (h : tree.Reaches dir names kind) :
    names.all FileEntry.isName = true := by
  obtain ⟨-, ⟨entry, found, -⟩, -⟩ := reaches_iff.mp h
  have named := tree.named _ (mem_entries_iff.mpr found)
  rw [List.all_append, Bool.and_eq_true] at named
  exact named.2

/-- No directory on the way down from a path is refused. -/
def Opens (path : Path) (names : List Bytes) : Prop :=
  ∀ n, 0 < n → n < names.length → refusal? (path.descend (names.take n)) = none

theorem Reaches.opens (h : tree.Reaches place names kind)
    (admitted : ∀ e ∈ tree.entries, e.2.isDirectory = true → place <+: e.1 →
      refusal? (path.descend (e.1.drop place.length)) = none) : Opens path names := by
  intro n positive less
  have directory := (reaches_iff.mp h).2.2 n positive less
  have opened := admitted _ (mem_entries_iff.mpr directory) rfl (List.prefix_append place _)
  rwa [List.drop_left] at opened

theorem isReached_iff {dir : Location} : tree.isReached path dir names = true ↔
    (∀ n, 0 < n → n < names.length → tree.entry? (dir ++ names.take n) = some .directory) ∧
    Opens path names := by
  have listed (n : Nat) : tree.isListed path dir (names.take n) = true ↔
      tree.entry? (dir ++ names.take n) = some .directory ∧
      refusal? (path.descend (names.take n)) = none := by
    unfold isListed
    rw [Bool.and_eq_true, Option.isNone_iff_eq_none]
    apply and_congr_left'
    cases tree.entry? (dir ++ names.take n) with
    | none => simp
    | some e => cases e <;> simp [FileEntry.isDirectory, FileEntry.kind]
  unfold isReached Opens
  simp only [List.all_eq_true, List.mem_range, Bool.or_eq_true, beq_iff_eq, listed, ← forall_and]
  apply forall_congr'
  intro n
  constructor
  · intro h positive less
    exact (h less).resolve_left (Nat.ne_of_gt positive)
  · intro h less
    rcases Nat.eq_zero_or_pos n with zero | positive
    · exact .inl zero
    · exact .inr (h positive less)

theorem mem_entriesUnder_iff {dir : Location} : (names, kind) ∈ tree.entriesUnder path dir ↔
    (∃ entry, tree.entry? (dir ++ names) = some entry ∧ entry.kind = kind) ∧
      tree.isReached path dir names = true := by
  unfold entriesUnder
  rw [List.mem_filterMap]
  constructor
  · intro h
    obtain ⟨⟨place, entry⟩, mem, found⟩ := h
    obtain rfl : place = dir ++ names := eq_append_of_found? found
    have reached : tree.isReached path dir names = true ∧ entry.kind = kind := by
      simpa [found?] using found
    exact ⟨⟨entry, mem_entries_iff.mp mem, reached.2⟩, reached.1⟩
  · intro h
    obtain ⟨⟨entry, found, rfl⟩, reached⟩ := h
    exact ⟨(dir ++ names, entry), mem_entries_iff.mpr found, by simp [found?, reached]⟩

/-! ## Directories that hold what lies below them -/

/-- The top, or a place where a directory is. -/
def isDirectoryAt (tree : FileTree) (place : Location) : Bool :=
  place.isEmpty || (tree.entry? place).any FileEntry.isDirectory

/-- Everything lies in a directory: each entry does, and what is relative starts in one. -/
structure Rooted (tree : FileTree) : Prop where
  entries : ∀ e ∈ tree.entries, e.1 ≠ [] ∧ tree.isDirectoryAt e.1.dropLast = true
  workDir : tree.isDirectoryAt tree.workDir = true

theorem isDirectoryAt_of_entry (h : tree.entry? place = some .directory) :
    tree.isDirectoryAt place = true := by
  rw [isDirectoryAt, h]
  exact Bool.or_true _

theorem Rooted.dropLast (h : tree.Rooted) (directory : tree.isDirectoryAt place = true) :
    tree.isDirectoryAt place.dropLast = true := by
  cases found : tree.entry? place with
  | none =>
    have top : place = [] := by simpa [isDirectoryAt, found] using directory
    rw [top]
    rfl
  | some e => exact (h.entries _ (mem_entries_iff.mpr found)).2

/-- A route that starts in a directory and ends in one ends at a directory of the tree. -/
theorem Rooted.isDirectoryAt_of_route (h : tree.Rooted) {links : Nat}
    {dir : Location} {landing : Landing} (route : Route tree links dir names landing)
    (directory : tree.isDirectoryAt dir = true) (ends : landing = .directory place) :
    tree.isDirectoryAt place = true := by
  induction route with
  | arrive =>
    cases ends
    exact directory
  | stay _ _ ih => exact ih directory ends
  | up _ ih => exact ih (h.dropLast directory) ends
  | vacant => cases ends
  | file => cases ends
  | enter _ found _ ih => exact ih (isDirectoryAt_of_entry found) ends
  | @link _ dir _ target _ _ _ _ _ ih =>
    refine ih ?_ ends
    unfold start
    split
    · rfl
    · exact directory

theorem Rooted.isDirectoryAt_of_leadsTo (h : tree.Rooted) (leads : tree.LeadsTo path place) :
    tree.isDirectoryAt place = true := by
  refine h.isDirectoryAt_of_route leads.2 ?_ rfl
  unfold start
  split
  · rfl
  · exact h.workDir

/-- What the walk of a tree comes to below the place where it starts. -/
theorem mem_entriesUnder_iff_reaches (filled : names ≠ []) :
    (names, kind) ∈ tree.entriesUnder path place ↔
    tree.Reaches place names kind ∧ Opens path names := by
  rw [mem_entriesUnder_iff, isReached_iff, reaches_iff]
  constructor
  · intro found
    exact ⟨⟨filled, found.1, found.2.1⟩, found.2.2⟩
  · intro found
    exact ⟨found.1.2.1, found.1.2.2, found.2⟩

/-- The place where a walk starts is not a file. -/
theorem Rooted.start_notMem_entriesUnder (h : tree.Rooted) (leads : tree.LeadsTo path place) :
    ([], .file) ∉ tree.entriesUnder path place := by
  intro mem
  obtain ⟨entry, found, file⟩ := (mem_entriesUnder_iff.mp mem).1
  rw [List.append_nil] at found
  have directory := h.isDirectoryAt_of_leadsTo leads
  have top : place = [] := by
    simpa [isDirectoryAt, found, FileEntry.isDirectory, file] using directory
  exact (h.entries _ (mem_entries_iff.mpr found)).1 top

end FileTree

/-! ## Any walk -/

/-- A store that knows what a path leads to in a tree, and whose walk below the path delivers these
entries, each once. The directory itself may be delivered too, as anything but a regular file. -/
structure FileStore.Walks (store : FileStore (StateM FileTree)) (tree : FileTree) (path : Path)
    (delivered : Location → List Bytes → FileKind → Prop) : Prop where
  kind : (store.kind path).run tree = pure (tree.kind path, tree)
  entriesBelow : ∀ place, tree.LeadsTo path place →
    ∃ entries, (store.entriesBelow path).run tree = pure (entries, tree) ∧
      (entries.Pairwise fun a b => a.1 ≠ b.1) ∧ ([], .file) ∉ entries ∧
      ∀ names kind, names ≠ [] → ((names, kind) ∈ entries ↔ delivered place names kind)

namespace Scan

/-- The scan that asks a store. -/
def through (store : FileStore (StateM FileTree)) (extension : String) (dir : Path) :
    StateM FileTree (Except ScanError (List Path)) :=
  @scan (StateM FileTree) _ store extension dir

/-- What a scan has to answer: that there is no directory, or the regular files with the extension
of what is delivered, in increasing order. -/
structure Answers (tree : FileTree) (dir : Path) (extension : String)
    (delivered : Location → List Bytes → FileKind → Prop)
    (answer : Except ScanError (List Path)) : Prop where
  fails_iff : answer = .error ⟨dir⟩ ↔ ¬ ∃ place, tree.LeadsTo dir place
  files : ∀ place, tree.LeadsTo dir place → ∃ files, answer = .ok files ∧
    files.Pairwise (fun p q => p.cmp q = .lt) ∧
    ∀ p, p ∈ files ↔ ∃ names, delivered place names .file ∧ p = dir.descend names ∧
      ∃ name bare, names.getLast? = some name ∧ IsBare extension bare ∧
      Path.HasExtension name (Text.encode bare)

variable {tree : FileTree} {dir : Path} {extension : String}
  {delivered : Location → List Bytes → FileKind → Prop}

/-- Increasing lists of the same paths are the same list. -/
theorem eq_of_increasing {files files' : List Path}
    (increasing : files.Pairwise fun p q => p.cmp q = .lt) (increasing' : files'.Pairwise fun p q =>
      p.cmp q = .lt) (same : ∀ p, p ∈ files ↔ p ∈ files') :
    files = files' := by
  have different {p q : Path} (h : p.cmp q = .lt) : p ≠ q := by
    rintro rfl
    rw [Path.cmp_eq_eq_iff.mpr (Path.same_refl p)] at h
    cases h
  refine List.Perm.eq_of_pairwise ?_ increasing increasing'
    ((List.perm_ext_iff_of_nodup (increasing.imp different) (increasing'.imp different)).mpr same)
  intro p q _ _ less less'
  have swapped : p.cmp q = (q.cmp p).swap := Std.OrientedCmp.eq_swap
  rw [less, less'] at swapped
  cases swapped

theorem Answers.unique {answer answer' : Except ScanError (List Path)}
    (h : Answers tree dir extension delivered answer)
    (h' : Answers tree dir extension delivered answer') :
    answer = answer' := by
  by_cases leads : ∃ place, tree.LeadsTo dir place
  · obtain ⟨place, leads⟩ := leads
    obtain ⟨files, rfl, increasing, mem⟩ := h.files place leads
    obtain ⟨files', rfl, increasing', mem'⟩ := h'.files place leads
    rw [eq_of_increasing increasing increasing' fun p => (mem p).trans (mem' p).symm]
  · rw [h.fails_iff.mpr leads, h'.fails_iff.mpr leads]

theorem mem_select_iff {paths : List Path} {p : Path} :
    p ∈ select extension paths ↔ p ∈ paths ∧
    p.extension? = some (Text.encode (bareExtension extension)) := by
  rw [select, List.mem_mergeSort, List.mem_filter, decide_eq_true_iff]

/-- Paths that are different are put into strict order. -/
theorem select_increasing {paths : List Path} (separate : paths.Pairwise fun p q =>
    p.components ≠ q.components) (extension : String) : (select extension paths).Pairwise fun p q =>
      p.cmp q = .lt := by
  have sorted : (select extension paths).Pairwise fun p q => (p.cmp q).isLE = true := by
    refine List.pairwise_mergeSort (fun p q r => Std.TransCmp.isLE_trans) (fun p q => ?_) _
    have swapped : q.cmp p = (p.cmp q).swap := Std.OrientedCmp.eq_swap
    rw [swapped]
    cases p.cmp q <;> rfl
  have different : (select extension paths).Pairwise fun p q => p.components ≠ q.components :=
    ((List.mergeSort_perm _ _).pairwise_iff Ne.symm).mpr (separate.filter _)
  refine sorted.imp₂ ?_ different
  intro p q le components
  cases compared : p.cmp q with
  | lt => rfl
  | eq => exact absurd (Path.same_iff.mp (Path.cmp_eq_eq_iff.mp compared)) components
  | gt =>
    rw [compared] at le
    cases le

theorem extension?_descend_iff {names : List Bytes} (named : names.all FileEntry.isName = true)
    (filled : names ≠ []) :
    (dir.descend names).extension? = some (Text.encode (bareExtension extension)) ↔
      ∃ name bare, names.getLast? = some name ∧ IsBare extension bare ∧
      Path.HasExtension name (Text.encode bare) := by
  have last := List.getLast?_eq_some_getLast filled
  rw [Path.extension?_descend named last, Path.nameExtension?_eq_some_iff]
  constructor
  · intro h
    exact ⟨_, _, last, bareExtension_eq_iff.mp rfl, h⟩
  · intro h
    obtain ⟨other, bare, last', isBare, h⟩ := h
    cases last.symm.trans last'
    rwa [bareExtension_eq_iff.mpr isBare]

/-- A scan asks first whether there is a directory, and then takes what the walk delivers. -/
theorem run_through {store : FileStore (StateM FileTree)} (walks : store.Walks tree dir delivered)
    (extension : String) : (through store extension dir).run tree =
      if tree.isDirectory dir then
        (store.entriesBelow dir).run tree >>= fun r =>
          pure (.ok (select extension (files dir r.1)), r.2)
      else pure (.error ⟨dir⟩, tree) := by
  have looked : (@FileStore.isKind (StateM FileTree) _ store .directory dir).run tree =
      pure (tree.isKind .directory dir, tree) := by
    rw [FileStore.isKind, StateT.run_bind, walks.kind, pure_bind, FileTree.isKind]
    cases tree.kind dir <;> rfl
  rw [through, scan, FileStore.isDirectory, StateT.run_bind, looked, pure_bind,
    FileTree.isDirectory]
  cases tree.isKind .directory dir <;> rfl

/-- A scan answers for what its walk delivers, if there are such entries. -/
theorem answers_of_walks {store : FileStore (StateM FileTree)}
    (walks : store.Walks tree dir delivered) (real : ∀ place names kind,
      delivered place names kind → tree.Reaches place names kind) (extension : String) :
    ∃ answer, (through store extension dir).run tree = pure (answer, tree) ∧
      Answers tree dir extension delivered answer := by
  have scanned := run_through walks extension
  by_cases leads : ∃ place, tree.LeadsTo dir place
  · obtain ⟨place, leads⟩ := leads
    obtain ⟨entries, ran, apart, start, mem⟩ := walks.entriesBelow place leads
    rw [if_pos (FileTree.isDirectory_iff.mpr ⟨place, leads⟩), ran, pure_bind] at scanned
    refine ⟨_, scanned, iff_of_false (by simp) (not_not_intro ⟨place, leads⟩), ?_⟩
    intro place' leads'
    cases leads'.unique leads
    have named : ∀ e ∈ entries, e.1.all FileEntry.isName = true := by
      rintro ⟨names, kind⟩ listed
      rcases eq_or_ne names [] with rfl | filled
      · rfl
      · exact (real place names kind ((mem names kind filled).mp listed)).named
    refine ⟨_, rfl, select_increasing (separate_files apart named dir) extension, ?_⟩
    intro p
    rw [mem_select_iff, mem_files_iff]
    constructor
    · rintro ⟨⟨names, listed, rfl⟩, matching⟩
      have filled : names ≠ [] := fun nil => start (nil ▸ listed)
      exact ⟨names, (mem names .file filled).mp listed, rfl,
        (extension?_descend_iff (named _ listed) filled).mp matching⟩
    · rintro ⟨names, there, rfl, matching⟩
      have filled := (FileTree.reaches_iff.mp (real place names .file there)).1
      have listed := (mem names .file filled).mpr there
      exact ⟨⟨names, listed, rfl⟩, (extension?_descend_iff (named _ listed) filled).mpr matching⟩
  · rw [if_neg (mt FileTree.isDirectory_iff.mp leads)] at scanned
    exact ⟨_, scanned, iff_of_true rfl leads, fun place there => absurd ⟨place, there⟩ leads⟩

end Scan

/-! ## The walk of a tree -/

/-- The store that a file tree is. -/
abbrev FileTree.store : FileStore (StateM FileTree) :=
  inferInstance

theorem FileTree.Rooted.walks {tree : FileTree} (h : tree.Rooted) (path : Path) :
    store.Walks tree path fun place names kind => tree.Reaches place names kind ∧
    Opens path names where
  kind := tree.run_kind path
  entriesBelow := by
    intro place leads
    refine ⟨tree.entriesUnder path place, ?_, tree.pairwise_entriesUnder path place,
      h.start_notMem_entriesUnder leads, fun names kind => mem_entriesUnder_iff_reaches⟩
    refine (tree.run_entriesBelow path).trans ?_
    rw [entriesBelow, follow_eq_directory_iff.mpr leads]

/-- However a walk orders what it delivers, if it delivers everything below the directory once, each
with its kind, and enters no link, the scan fails exactly when there is no directory, and else lists
exactly the regular files with the extension, in strict order. The walk of a tree enters a directory
only if its path is not refused; what it delivers is listed just so, and it delivers everything if
no directory is refused. -/
theorem FileTree.scan_finds_reachable_files (tree : FileTree) (dir : Path) (extension : String) :
    (∀ walker : FileStore (StateM FileTree), walker.Walks tree dir tree.Reaches →
      ∃ answer, (Scan.through walker extension dir).run tree = pure (answer, tree) ∧
        Scan.Answers tree dir extension tree.Reaches answer ∧
        ∀ other : FileStore (StateM FileTree), other.Walks tree dir tree.Reaches →
          (Scan.through other extension dir).run tree = pure (answer, tree)) ∧
    (tree.Rooted →
      (∃ answer, (scan extension dir : StateM FileTree _).run tree = pure (answer, tree) ∧
        Scan.Answers tree dir extension
          (fun place names kind => tree.Reaches place names kind ∧ Opens dir names) answer) ∧
      ((∀ place names kind, tree.LeadsTo dir place → tree.Reaches place names kind →
        Opens dir names) →
        store.Walks tree dir tree.Reaches)) := by
  constructor
  · intro walker walks
    obtain ⟨answer, ran, answers⟩ := Scan.answers_of_walks walks (fun _ _ _ => id) extension
    refine ⟨answer, ran, answers, ?_⟩
    intro other walks'
    obtain ⟨answer', ran', answers'⟩ := Scan.answers_of_walks walks' (fun _ _ _ => id) extension
    rw [ran', answers'.unique answers]
  · intro rooted
    refine ⟨Scan.answers_of_walks (rooted.walks dir) (fun _ _ _ there => there.1) extension, ?_⟩
    intro opens
    refine ⟨(rooted.walks dir).kind, ?_⟩
    intro place leads
    obtain ⟨entries, ran, apart, start, mem⟩ := (rooted.walks dir).entriesBelow place leads
    refine ⟨entries, ran, apart, start, fun names kind filled => (mem names kind filled).trans ?_⟩
    exact and_iff_left_of_imp (opens place names kind leads)

/-- Links to a directory and to a file, names with several dots and with one in front, below a path
that is a link. -/
theorem FileTree.scan_finds_reachable_files_below_link :
    let tree := ((((((((FileTree.empty ["work"]).create (.ofText "src/a/b.gs")
      (.file "".toUTF8)).create
      (.ofText "src/a-b.gs") (.file "".toUTF8)).create (.ofText "src/c.tar.gs")
        (.file "".toUTF8)).create
      (.ofText "src/.gs") (.file "".toUTF8)).create (.ofText "src/d.gs.") (.file "".toUTF8)).create
      (.ofText "src/e.gs") (.link (Text.encode "a-b.gs"))).create (.ofText "src/f")
        (.link (Text.encode "a"))).create (.ofText "top") (.link (Text.encode "src"))
    let dir : Path := (.ofText "top")
    let files : List Path := [.ofText "top/a/b.gs", .ofText "top/a-b.gs", .ofText "top/c.tar.gs"]
    tree.Rooted ∧ tree.LeadsTo dir (["work", "src"].map Text.encode) ∧
      store.Walks tree dir tree.Reaches ∧
      (scan "..gs" dir : StateM FileTree _).run tree = pure (.ok files, tree) ∧
      Scan.Answers tree dir "..gs" tree.Reaches (.ok files) := by
  intro tree dir files
  have rooted : tree.Rooted := ⟨by decide +kernel, by decide +kernel⟩
  have leads : tree.LeadsTo dir (["work", "src"].map Text.encode) := by decide +kernel
  have admitted : ∀ e ∈ tree.entries, e.2.isDirectory = true →
      (["work", "src"].map Text.encode) <+: e.1 →
      refusal? (dir.descend (e.1.drop (["work", "src"].map Text.encode).length)) = none := by
        decide +kernel
  have selected : ((Scan.files dir (tree.entriesBelow dir)).filter fun path =>
      path.extension? = some (Text.encode (Scan.bareExtension "..gs"))) = files := by decide +kernel
  have ran : (scan "..gs" dir : StateM FileTree _).run tree = pure (.ok files, tree) := by
    rw [run_scan, if_pos (isDirectory_iff.mpr ⟨_, leads⟩), scanned, Scan.select, selected,
      List.mergeSort_of_pairwise (by decide +kernel)]
  obtain ⟨anyWalk, own⟩ := scan_finds_reachable_files tree dir "..gs"
  have walks : store.Walks tree dir tree.Reaches := by
    refine (own rooted).2 ?_
    intro place names kind leads' reached
    cases leads'.unique leads
    exact reached.opens admitted
  obtain ⟨answer, ran', answers, -⟩ := anyWalk store walks
  cases ran'.symm.trans ran
  exact ⟨rooted, leads, walks, ran, answers⟩

end CodeAtlas
