import CodeAtlas.Proofs.Loading
import Mathlib.Data.List.Induction

/-!
# The first spelling of every file

The files of a configuration are its paths, each once. Which of several spellings is kept, and where
it stands, decides who owns a name, so both are stated here: a file is spelled as the first path
that stands for it, and files follow each other as these first paths do. Overrides only add paths
behind the others, and what comes later never changes what was kept before.
-/
namespace CodeAtlas.Config

variable {paths : List Path} {p q : Path}

/-! ## One more path -/

/-- A path is kept if it is none of those kept before. -/
theorem distinct_concat (paths : List Path) (p : Path) :
    distinct (paths ++ [p]) =
      if (distinct paths).any fun k => k.same p then distinct paths else distinct paths ++ [p] := by
  unfold distinct
  rw [List.foldl_append, List.foldl_cons, List.foldl_nil, List.any_reverse]
  split
  · rfl
  · rw [List.reverse_cons]

/-- What is kept of a list stands for every path of it. -/
theorem any_same_distinct (paths : List Path) (p : Path) :
    ((distinct paths).any fun k => k.same p) = paths.any fun k => k.same p := by
  rw [Bool.eq_iff_iff, List.any_eq_true, List.any_eq_true]
  constructor
  · intro h
    obtain ⟨k, hk, same⟩ := h
    exact ⟨k, (distinct_sublist paths).subset hk, same⟩
  · intro h
    obtain ⟨k, hk, same⟩ := h
    obtain ⟨first, hfirst, same'⟩ := distinct_covers hk
    exact ⟨first, hfirst, Path.same_trans same' same⟩

/-- Behind other paths, a path is kept if it is none of them. -/
theorem distinct_concat_cases (paths : List Path) (p : Path) :
    ((∃ k ∈ paths, k.same p = true) ∧ distinct (paths ++ [p]) = distinct paths) ∨
    (∀ k ∈ paths, ¬ k.same p = true) ∧ distinct (paths ++ [p]) = distinct paths ++ [p] := by
  rw [distinct_concat, any_same_distinct]
  split
  next repeated => exact .inl ⟨List.any_eq_true.mp repeated, rfl⟩
  next fresh =>
    refine .inr ⟨fun k hk same => fresh ?_, rfl⟩
    exact List.any_eq_true.mpr ⟨k, hk, same⟩

/-! ## First occurrences -/

/-- A path that is kept is the first one of the list that stands for its file. -/
theorem find?_of_mem_distinct (h : q ∈ distinct paths) : paths.find? (·.same q) = some q := by
  induction paths using List.reverseRecOn with
  | nil => cases h
  | append_singleton paths p ih =>
    rw [List.find?_append]
    rcases distinct_concat_cases paths p with ⟨-, kept⟩ | ⟨fresh, kept⟩
    · rw [kept] at h
      rw [ih h, Option.some_or]
    · rw [kept, List.mem_append, List.mem_singleton] at h
      rcases h with h | rfl
      · rw [ih h, Option.some_or]
      · rw [List.find?_eq_none.mpr fresh, Option.none_or, List.find?_singleton,
          if_pos (Path.same_refl q)]

theorem findIdx_lt_of_mem_distinct (h : q ∈ distinct paths) :
    paths.findIdx (·.same q) < paths.length :=
  List.findIdx_lt_length_of_exists ⟨q, (distinct_sublist paths).subset h, Path.same_refl q⟩

/-- The place of the first path for a file stays where it is. -/
theorem findIdx_append_of_mem_distinct (h : q ∈ distinct paths) (more : List Path) :
    (paths ++ more).findIdx (·.same q) = paths.findIdx (·.same q) := by
  rw [List.findIdx_append, if_pos (findIdx_lt_of_mem_distinct h)]

theorem distinct_in_order (paths : List Path) :
    (distinct paths).Pairwise fun p q => paths.findIdx (·.same p) < paths.findIdx (·.same q) := by
  induction paths using List.reverseRecOn with
  | nil => exact .nil
  | append_singleton paths p ih =>
    have before : (distinct paths).Pairwise fun a b =>
        (paths ++ [p]).findIdx (·.same a) < (paths ++ [p]).findIdx (·.same b) := by
      refine ih.imp_of_mem ?_
      intro a b ha hb less
      rwa [findIdx_append_of_mem_distinct ha, findIdx_append_of_mem_distinct hb]
    rcases distinct_concat_cases paths p with ⟨-, kept⟩ | ⟨fresh, kept⟩
    · rwa [kept]
    · rw [kept, List.pairwise_append]
      refine ⟨before, List.pairwise_singleton _ p, ?_⟩
      intro a ha b hb
      obtain rfl := List.mem_singleton.mp hb
      -- no path of the list is the new one, so its place is behind the list
      have behind : paths.length ≤ (paths ++ [b]).findIdx (·.same b) := by
        have nowhere : paths.findIdx (·.same b) = paths.length :=
          List.findIdx_eq_length.mpr fun k hk => by
          simpa using fresh k hk
        rw [List.findIdx_append, if_neg (by omega)]
        exact Nat.le_add_left _ _
      rw [findIdx_append_of_mem_distinct ha]
      exact Nat.lt_of_lt_of_le (findIdx_lt_of_mem_distinct ha) behind

/-- Of different paths, at most one stands for a file. -/
theorem countP_same_le_one {files : List Path} (distinct : files.Pairwise fun p q => ¬ p.same q)
    (p : Path) :
    files.countP (·.same p) ≤ 1 := by
  induction files with
  | nil => exact Nat.zero_le 1
  | cons file files ih =>
    rw [List.pairwise_cons] at distinct
    rw [List.countP_cons]
    by_cases same : file.same p = true
    · have none : files.countP (·.same p) = 0 := by
        rw [List.countP_eq_zero]
        intro other hother same'
        exact distinct.1 other hother (Path.same_trans same (Path.same_symm same'))
      exact Nat.le_of_eq (by rw [none, if_pos same])
    · rw [if_neg same]
      exact ih distinct.2

/-- The files of a list of paths: one for each, spelled as the first path for it, in the order of
these. -/
structure FirstPaths (files paths : List Path) : Prop where
  distinct : files.Pairwise fun p q => ¬ p.same q
  once : ∀ p ∈ paths, files.countP (·.same p) = 1
  first : ∀ file ∈ files, paths.find? (·.same file) = some file
  in_order : files.Pairwise fun p q => paths.findIdx (·.same p) < paths.findIdx (·.same q)

theorem firstPaths_distinct (paths : List Path) : FirstPaths (distinct paths) paths where
  distinct := distinct_pairwise paths
  once := by
    intro p hp
    obtain ⟨q, hq, same⟩ := distinct_covers hp
    have some : 0 < (distinct paths).countP (·.same p) := List.countP_pos_iff.mpr ⟨q, hq, same⟩
    have one := countP_same_le_one (distinct_pairwise paths) p
    omega
  first _ hfile := find?_of_mem_distinct hfile
  in_order := distinct_in_order paths

/-! ## More paths, and the same again -/

theorem distinct_prefix_append (paths more : List Path) :
    distinct paths <+: distinct (paths ++ more) := by
  induction more using List.reverseRecOn with
  | nil => simp
  | append_singleton more p ih =>
    rw [← List.append_assoc]
    rcases distinct_concat_cases (paths ++ more) p with ⟨-, kept⟩ | ⟨-, kept⟩
    · rwa [kept]
    · rw [kept]
      exact ih.trans (List.prefix_append _ _)

theorem distinct_of_pairwise (h : paths.Pairwise fun p q => ¬ p.same q) :
    distinct paths = paths := by
  induction paths using List.reverseRecOn with
  | nil => rfl
  | append_singleton paths p ih =>
    rw [List.pairwise_append] at h
    obtain ⟨before, -, apart⟩ := h
    rcases distinct_concat_cases paths p with ⟨⟨k, hk, same⟩, -⟩ | ⟨-, kept⟩
    · exact absurd same (apart k hk p List.mem_cons_self)
    · rw [kept, ih before]

/-! ## Files of a configuration -/

/-- The configuration after overrides, one after the other. -/
def overrideAll (config : Config) (overrides : List (Option Path × List Path)) : Config :=
  overrides.foldl (fun config o => config.override o.1 o.2) config

theorem files_overrideAll (config : Config) (overrides : List (Option Path × List Path)) :
    (config.overrideAll overrides).files = config.files ++ overrides.flatMap Prod.snd := by
  induction overrides generalizing config with
  | nil => exact (List.append_nil _).symm
  | cons o overrides ih =>
    rw [overrideAll, List.foldl_cons, ← overrideAll, ih, override,
      List.flatMap_cons, List.append_assoc]

variable {config : Config} {files : List Path}

theorem orderedFiles_eq_noFiles_iff : config.orderedFiles = .error .noFiles ↔
    config.files = [] := by
  unfold orderedFiles
  cases config.files <;> simp

theorem orderedFiles_eq_ok_iff :
    config.orderedFiles = .ok files ↔ config.files ≠ [] ∧ files = distinct config.files := by
  unfold orderedFiles
  cases config.files with
  | nil => simp
  | cons p paths => simp [eq_comm]

/-- However a configuration is overridden, there are no files only if none was named, first or
later; otherwise there is one for every path named, as `FirstPaths` says. The files from before the
overrides come first, and naming just the files of a configuration gives these files again. -/
theorem orderedFiles_firstPaths (config : Config) (overrides : List (Option Path × List Path)) :
    ((config.overrideAll overrides).orderedFiles = .error .noFiles ↔
      config.files = [] ∧ ∀ o ∈ overrides, o.2 = []) ∧
    (¬ (config.files = [] ∧ ∀ o ∈ overrides, o.2 = []) →
      ∃ files, (config.overrideAll overrides).orderedFiles = .ok files ∧
        FirstPaths files (config.files ++ overrides.flatMap Prod.snd)) ∧
    ∀ files, config.orderedFiles = .ok files →
      (∃ more, (config.overrideAll overrides).orderedFiles = .ok (files ++ more)) ∧
      ∀ other : Config, other.files = files → other.orderedFiles = .ok files := by
  have named : (config.overrideAll overrides).files = [] ↔ config.files = [] ∧
      ∀ o ∈ overrides, o.2 = [] := by
    rw [files_overrideAll, List.append_eq_nil_iff, List.flatMap_eq_nil_iff]
  rw [orderedFiles_eq_noFiles_iff, ← named]
  refine ⟨Iff.rfl, ?_, ?_⟩
  · intro some
    refine ⟨_, orderedFiles_eq_ok_iff.mpr ⟨some, rfl⟩, ?_⟩
    rw [← files_overrideAll]
    exact firstPaths_distinct _
  · intro files ordered
    obtain ⟨some, rfl⟩ := orderedFiles_eq_ok_iff.mp ordered
    obtain ⟨p, hp⟩ := List.exists_mem_of_ne_nil _ some
    constructor
    · obtain ⟨more, extended⟩ := distinct_prefix_append config.files (overrides.flatMap Prod.snd)
      refine ⟨more, orderedFiles_eq_ok_iff.mpr ⟨?_, ?_⟩⟩
      · exact fun none => some (named.mp none).1
      · rw [files_overrideAll, extended]
    · intro other same
      obtain ⟨q, hq, -⟩ := distinct_covers hp
      refine orderedFiles_eq_ok_iff.mpr ⟨?_, ?_⟩
      · rw [same]
        exact List.ne_nil_of_mem hq
      · rw [same, distinct_of_pairwise (distinct_pairwise config.files)]

/-- Spellings of one file, and of others that look like it. -/
theorem orderedFiles_firstPaths_of_spellings :
    let config : Config := { files := [.ofText "a//b", .ofText "a/./b"] }
    let overrides : List (Option Path × List Path) :=
      [(none, [.ofText "./a", .ofText "a/b/"]), (some (.ofText "r"), []),
        (none, [.ofText "a", .ofText "a/../b", .ofText "b", .ofText ".//a/."])]
    let files : List Path :=
      [.ofText "a//b", .ofText "./a", .ofText "a", .ofText "a/../b", .ofText "b"]
    config.orderedFiles = .ok [.ofText "a//b"] ∧
      (config.overrideAll overrides).orderedFiles = .ok files ∧
      FirstPaths files (config.files ++ overrides.flatMap Prod.snd) ∧
      (∃ more, (config.overrideAll overrides).orderedFiles = .ok ((.ofText "a//b") :: more)) ∧
      ({ config with files := [.ofText "a//b"] } : Config).orderedFiles = .ok [.ofText "a//b"] := by
  intro config overrides files
  have kept : distinct (config.overrideAll overrides).files = files := by decide +kernel
  have before : config.orderedFiles = .ok [.ofText "a//b"] :=
    orderedFiles_eq_ok_iff.mpr ⟨by decide, by decide +kernel⟩
  have after : (config.overrideAll overrides).orderedFiles = .ok files :=
    orderedFiles_eq_ok_iff.mpr ⟨by decide, kept.symm⟩
  obtain ⟨-, named, later⟩ := orderedFiles_firstPaths config overrides
  obtain ⟨files', ordered, firsts⟩ := named fun none => absurd none.1 (by decide)
  obtain ⟨extended, again⟩ := later _ before
  cases ordered.symm.trans after
  exact ⟨before, after, firsts, extended, again _ rfl⟩

end CodeAtlas.Config
