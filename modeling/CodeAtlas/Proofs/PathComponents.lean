import CodeAtlas.FileTree
import CodeAtlas.Proofs.LossyDecoding

/-!
# The components of spelled paths

What joining, going down and looking from a base do to the bytes of a path is here told by its
components. Going down by names adds them at the end. Looking from a base takes the components of
the base off the front, and joining the result to the base gives the components back: a path can be
found again from what is kept of it.
-/
namespace CodeAtlas.Path

/-! ## Bodies -/

/-- The components of what follows the lead of a path. -/
def bodyComponents (body : Bytes) : List Component :=
  (pieces body).filterMap pieceComponent?

/-- The components of a path that is spelled like this. -/
def componentsOf (cs : Bytes) : List Component :=
  (splitLead cs).1.toList ++ bodyComponents (splitLead cs).2

theorem components_eq (p : Path) : p.components = componentsOf p.bytes :=
  rfl

@[simp] theorem bodyComponents_nil : bodyComponents [] = [] :=
  rfl

theorem pieces_slash (body : Bytes) : pieces (slash :: body) = [] :: pieces body := by
  simp [pieces]

theorem pieces_cons {c : UInt8} (h : c ≠ slash) (body : Bytes) :
    ∃ first others, pieces body = first :: others ∧
    pieces (c :: body) = (c :: first) :: others := by
  refine ⟨_, _, rfl, ?_⟩
  simp [pieces, h]

theorem pieces_append_slash (a b : Bytes) : pieces (a ++ slash :: b) = pieces a ++ pieces b := by
  induction a with
  | nil =>
    rw [List.nil_append, pieces_slash]
    rfl
  | cons c a ih =>
    by_cases h : c = slash
    · rw [h, List.cons_append, pieces_slash, pieces_slash, ih, List.cons_append]
    · obtain ⟨first, others, ha, hca⟩ := pieces_cons h a
      obtain ⟨first', others', hb, hcb⟩ := pieces_cons h (a ++ slash :: b)
      rw [ih, ha, List.cons_append] at hb
      cases hb
      rw [List.cons_append, hcb, hca, List.cons_append]

theorem pieces_of_not_mem {a : Bytes} (h : slash ∉ a) : pieces a = [a] := by
  induction a with
  | nil => rfl
  | cons c a ih =>
    obtain ⟨hc, ha⟩ := not_or.mp (mt List.mem_cons.mpr h)
    obtain ⟨first, others, hfirst, hcons⟩ := pieces_cons (Ne.symm hc) a
    rw [ih ha] at hfirst
    cases hfirst
    exact hcons

theorem bodyComponents_append_slash (a b : Bytes) :
    bodyComponents (a ++ slash :: b) = bodyComponents a ++ bodyComponents b := by
  rw [bodyComponents, pieces_append_slash, List.filterMap_append]
  rfl

@[simp] theorem bodyComponents_slash (body : Bytes) :
    bodyComponents (slash :: body) = bodyComponents body :=
  bodyComponents_append_slash [] body

theorem bodyComponents_of_not_mem {a : Bytes} (h : slash ∉ a) :
    bodyComponents a = (pieceComponent? a).toList := by
  rw [bodyComponents, pieces_of_not_mem h]
  cases hc : pieceComponent? a <;> simp [hc]

/-! ## Trimming -/

@[simp] theorem dot_ne_slash : dot ≠ slash := by
  decide

theorem atEnd_iff {rest : Bytes} : atEnd rest = true ↔ rest = [] ∨ ∃ body,
    rest = slash :: body := by
  cases rest <;> simp [atEnd]

theorem atEnd_of_isPrefix {a rest : Bytes} (h : a <+: rest) (ends : atEnd rest = true) :
    atEnd a = true := by
  cases a with
  | nil => rfl
  | cons c a =>
    obtain ⟨b, rfl⟩ := h
    exact ends

theorem bodyComponents_dot {rest : Bytes} (h : atEnd rest = true) :
    bodyComponents (dot :: rest) = bodyComponents rest := by
  rcases atEnd_iff.mp h with rfl | ⟨body, rfl⟩
  · rfl
  · rw [bodyComponents_slash]
    exact bodyComponents_append_slash [dot] body

theorem bodyComponents_reverse_dot {rest : Bytes} (h : atEnd rest = true) :
    bodyComponents (rest.reverse ++ [dot]) = bodyComponents rest.reverse := by
  rcases atEnd_iff.mp h with rfl | ⟨body, rfl⟩
  · rfl
  · rw [List.reverse_cons, List.append_assoc, List.singleton_append, bodyComponents_append_slash,
      bodyComponents_append_slash]
    rfl

theorem bodyComponents_trimStart (body : Bytes) :
    bodyComponents (trimStart body) = bodyComponents body := by
  fun_induction trimStart body with
  | case1 => rfl
  | case2 c body dropped ih =>
    rw [ih]
    rcases dropped with rfl | ⟨rfl, ends⟩
    · rw [bodyComponents_slash]
    · rw [bodyComponents_dot ends]
  | case3 c body kept => rfl

/-- Slashes and dots may be dropped at the end as well, where they are read backwards. -/
theorem bodyComponents_trimEnd (body : Bytes) :
    bodyComponents (trimEnd body) = bodyComponents body := by
  -- A name that is read backwards is another name, so this does not follow from the start of the
  -- reversed body: the induction is on what is cut off.
  have backwards : ∀ cs, bodyComponents (trimStart cs).reverse = bodyComponents cs.reverse := by
    intro cs
    fun_induction trimStart cs with
    | case1 => rfl
    | case2 c cs dropped ih =>
      rw [ih, List.reverse_cons]
      rcases dropped with rfl | ⟨rfl, ends⟩
      · rw [bodyComponents_append_slash, bodyComponents_nil, List.append_nil]
      · rw [bodyComponents_reverse_dot ends]
    | case3 c cs kept => rfl
  rw [trimEnd, backwards, List.reverse_reverse]

/-- Bytes that have no lead. -/
def Plain (cs : Bytes) : Prop :=
  splitLead cs = (none, cs)

/-- A spelling begins with a slash, with a dot that is a component, or has no lead. -/
theorem spelling_cases (cs : Bytes) :
    (∃ body, cs = slash :: body) ∨ (∃ body, cs = dot :: body ∧ atEnd body = true) ∨ Plain cs := by
  unfold Plain
  fun_cases splitLead cs with
  | case1 => exact .inr (.inr rfl)
  | case2 body => exact .inl ⟨body, rfl⟩
  | case3 c body noSlash h =>
    obtain ⟨rfl, ends⟩ := h
    exact .inr (.inl ⟨body, rfl, ends⟩)
  | case4 c body noSlash noDot => exact .inr (.inr rfl)

theorem plain_cons_iff {c : UInt8} {body : Bytes} :
    Plain (c :: body) ↔ ¬ (c = slash ∨ (c = dot ∧ atEnd body = true)) := by
  unfold Plain splitLead
  by_cases hs : c = slash
  · simp [hs]
  · by_cases hd : c = dot ∧ atEnd body = true
    · simp [hd]
    · simp [hs, hd]

theorem plain_iff {cs : Bytes} :
    Plain cs ↔ cs.head? ≠ some slash ∧ cs ≠ [dot] ∧ ¬ [dot, slash] <+: cs := by
  cases cs with
  | nil => simp [Plain, splitLead]
  | cons c body =>
    rw [plain_cons_iff]
    cases body <;> simp [atEnd, eq_comm, not_or]

theorem plain_trimStart (body : Bytes) : Plain (trimStart body) := by
  fun_induction trimStart body with
  | case1 => rfl
  | case2 c body dropped ih => exact ih
  | case3 c body kept => exact plain_cons_iff.mpr kept

theorem trimStart_isSuffix (body : Bytes) : trimStart body <:+ body := by
  fun_induction trimStart body with
  | case1 => exact List.suffix_rfl
  | case2 c body dropped ih => exact ih.trans (List.suffix_cons c body)
  | case3 c body kept => exact List.suffix_rfl

theorem trimEnd_isPrefix (body : Bytes) : trimEnd body <+: body := by
  rw [trimEnd, ← List.reverse_suffix, List.reverse_reverse]
  exact trimStart_isSuffix body.reverse

theorem plain_trimEnd {cs : Bytes} (h : Plain cs) : Plain (trimEnd cs) := by
  obtain ⟨noSlash, -, noDotSlash⟩ := plain_iff.mp h
  have shorter := trimEnd_isPrefix cs
  refine plain_iff.mpr ⟨?_, ?_, fun h => noDotSlash (h.trans shorter)⟩
  · intro head
    obtain ⟨rest, hrest⟩ := shorter
    apply noSlash
    rw [← hrest, List.head?_append, head, Option.some_or]
  · intro noDot
    have : trimStart cs.reverse = [dot] := List.reverse_eq_cons_iff.mp noDot
    exact (plain_iff.mp (plain_trimStart cs.reverse)).2.1 this

theorem componentsOf_of_plain {cs : Bytes} (h : Plain cs) :
    componentsOf cs = bodyComponents cs := by
  rw [componentsOf, h]
  rfl

theorem exists_pieceComponent {piece : Bytes} (filled : piece ≠ []) (undotted : piece ≠ [dot]) :
    ∃ c, pieceComponent? piece = some c := by
  unfold pieceComponent?
  rw [if_neg (not_or.mpr ⟨filled, undotted⟩)]
  split
  · exact ⟨_, rfl⟩
  · exact ⟨_, rfl⟩

/-- What is not empty and has no lead begins with a component. -/
theorem bodyComponents_of_plain {cs : Bytes} (h : Plain cs) (filled : cs ≠ []) :
    ∃ c, bodyComponents cs = c :: bodyComponents ((cs.dropWhile (· ≠ slash)).drop 1) := by
  obtain ⟨noSlash, noDot, noDotSlash⟩ := plain_iff.mp h
  have split : cs.takeWhile (· ≠ slash) ++ cs.dropWhile (· ≠ slash) = cs :=
    List.takeWhile_append_dropWhile
  have inside : slash ∉ cs.takeWhile (· ≠ slash) := by
    intro hmem
    simpa using List.all_eq_true.mp List.all_takeWhile slash hmem
  have outside := List.head?_dropWhile_not (fun c => decide (c ≠ slash)) cs
  have begun : cs.takeWhile (· ≠ slash) ≠ [] := by
    cases cs with
    | nil => exact absurd rfl filled
    | cons c cs =>
      have hc : c ≠ slash := by simpa using noSlash
      simp [hc]
  generalize cs.takeWhile (· ≠ slash) = piece at split inside begun
  generalize cs.dropWhile (· ≠ slash) = rest at split outside
  cases rest with
  | nil =>
    rw [List.append_nil] at split
    obtain ⟨c, hc⟩ := exists_pieceComponent begun (split ▸ noDot)
    refine ⟨c, ?_⟩
    rw [← split, bodyComponents_of_not_mem inside, hc]
    rfl
  | cons d rest =>
    have hd : d = slash := by simpa using outside
    subst hd
    have undotted : piece ≠ [dot] := by
      intro heq
      exact noDotSlash ⟨rest, by rw [← split, heq]; rfl⟩
    obtain ⟨c, hc⟩ := exists_pieceComponent begun undotted
    refine ⟨c, ?_⟩
    rw [← split, bodyComponents_append_slash, bodyComponents_of_not_mem inside, hc]
    rfl

theorem bodyComponents_dropPieces (n : Nat) (body : Bytes) :
    bodyComponents (dropPieces n body) = (bodyComponents body).drop n := by
  induction n generalizing body with
  | zero => rfl
  | succ n ih =>
    rw [dropPieces, ih, ← bodyComponents_trimStart body]
    by_cases filled : trimStart body = []
    · simp [filled]
    · obtain ⟨c, hc⟩ := bodyComponents_of_plain (plain_trimStart body) filled
      rw [hc, List.drop_succ_cons]

/-! ## Spellings -/

@[simp] theorem componentsOf_slash (body : Bytes) :
    componentsOf (slash :: body) = .root :: bodyComponents body := by
  simp [componentsOf, splitLead]

theorem splitLead_dot {body : Bytes} (h : atEnd body = true) :
    splitLead (dot :: body) = (some .here, body) := by
  rw [splitLead, if_neg (by decide), if_pos ⟨rfl, h⟩]

theorem componentsOf_dot {body : Bytes} (h : atEnd body = true) :
    componentsOf (dot :: body) = .here :: bodyComponents body := by
  simp [componentsOf, splitLead_dot h]

theorem root_not_mem_bodyComponents (body : Bytes) : Component.root ∉ bodyComponents body := by
  intro h
  obtain ⟨piece, -, hpiece⟩ := List.mem_filterMap.mp h
  unfold pieceComponent? at hpiece
  split at hpiece
  · cases hpiece
  · split at hpiece <;> cases hpiece

theorem isAbsolute_iff {p : Path} : p.isAbsolute = true ↔ p.components.head? = some .root := by
  rw [components_eq, isAbsolute, beq_iff_eq]
  rcases spelling_cases p.bytes with ⟨body, h⟩ | ⟨body, h, ends⟩ | plain
  · simp [h]
  · simp [h, componentsOf_dot ends]
  · rw [componentsOf_of_plain plain]
    refine iff_of_false (plain_iff.mp plain).1 fun h => ?_
    exact root_not_mem_bodyComponents _ (List.mem_of_mem_head? h)

theorem components_eq_nil_iff {p : Path} : p.components = [] ↔ p.bytes = [] := by
  rw [components_eq]
  rcases spelling_cases p.bytes with ⟨body, h⟩ | ⟨body, h, ends⟩ | plain
  · simp [h]
  · simp [h, componentsOf_dot ends]
  · rw [componentsOf_of_plain plain]
    by_cases filled : p.bytes = []
    · rw [filled]
      exact iff_of_true rfl rfl
    · obtain ⟨c, hc⟩ := bodyComponents_of_plain plain filled
      simp [hc, filled]

/-! ## Joining -/

theorem plain_append_slash {a : Bytes} (filled : a ≠ []) (h : Plain a) (b : Bytes) :
    Plain (a ++ slash :: b) := by
  obtain ⟨noSlash, noDot, noDotSlash⟩ := plain_iff.mp h
  rw [plain_iff]
  cases a with
  | nil => exact absurd rfl filled
  | cons c a =>
    refine ⟨noSlash, by simp, ?_⟩
    cases a with
    | nil =>
      intro h
      apply noDot
      simp only [List.singleton_append, List.cons_prefix_cons] at h
      rw [← h.1]
    | cons d a =>
      intro h
      apply noDotSlash
      simpa using h

theorem componentsOf_append_slash {a : Bytes} (filled : a ≠ []) (b : Bytes) :
    componentsOf (a ++ slash :: b) = componentsOf a ++ bodyComponents b := by
  rcases spelling_cases a with ⟨body, rfl⟩ | ⟨body, rfl, ends⟩ | plain
  · simp [bodyComponents_append_slash]
  · have ends' : atEnd (body ++ slash :: b) = true := by
      rcases atEnd_iff.mp ends with rfl | ⟨rest, rfl⟩ <;> rfl
    rw [List.cons_append, componentsOf_dot ends', componentsOf_dot ends,
      bodyComponents_append_slash, List.cons_append]
  · rw [componentsOf_of_plain plain, componentsOf_of_plain (plain_append_slash filled plain b),
      bodyComponents_append_slash]

theorem join_of_empty {p q : Path} (h : p.bytes = []) : p.join q = q := by
  unfold join
  simp [h]

/-- Joining adds the components that the second path has in the middle of a path. -/
theorem components_join {p q : Path} (filled : p.bytes ≠ []) (relative : q.isAbsolute = false) :
    (p.join q).components = p.components ++ bodyComponents q.bytes := by
  unfold join
  rw [if_neg (by simp [relative])]
  split
  next ends =>
    have last : p.bytes.getLast? = some slash := by simpa [filled] using ends
    obtain ⟨a, ha⟩ := List.getLast?_eq_some_iff.mp last
    rw [components_eq, components_eq, ha, List.append_assoc, List.singleton_append]
    by_cases hnil : a = []
    · rw [hnil]
      rfl
    · rw [componentsOf_append_slash hnil, componentsOf_append_slash hnil,
        bodyComponents_nil, List.append_nil]
  next =>
    rw [components_eq, components_eq, componentsOf_append_slash filled]

theorem isName_iff {name : Bytes} : FileEntry.isName name = true ↔
    name ≠ [] ∧ name ≠ [dot] ∧ name ≠ [dot, dot] ∧ slash ∉ name := by
  simp only [FileEntry.isName, Bool.and_eq_true, decide_eq_true_eq, Bool.not_eq_true',
    List.contains_eq_mem, decide_eq_false_iff_not, and_assoc]

theorem bodyComponents_name {name : Bytes} (named : FileEntry.isName name = true) :
    bodyComponents name = [.name name] := by
  obtain ⟨filled, noDot, up, noSlash⟩ := isName_iff.mp named
  rw [bodyComponents_of_not_mem noSlash, pieceComponent?, if_neg (not_or.mpr ⟨filled, noDot⟩),
    if_neg up]
  rfl

theorem plain_name {name : Bytes} (named : FileEntry.isName name = true) : Plain name := by
  obtain ⟨-, noDot, -, noSlash⟩ := isName_iff.mp named
  refine plain_iff.mpr ⟨fun h => noSlash (List.mem_of_mem_head? h), noDot, fun h =>
    noSlash (h.subset ?_)⟩
  simp

theorem components_join_name {name : Bytes} (named : FileEntry.isName name = true) (p : Path) :
    (p.join ⟨name⟩).components = p.components ++ [.name name] := by
  have plain := plain_name named
  by_cases filled : p.bytes = []
  · rw [join_of_empty filled, components_eq_nil_iff.mpr filled, components_eq,
      componentsOf_of_plain plain, bodyComponents_name named, List.nil_append]
  · have relative : (Path.mk name).isAbsolute = false := by
      simpa [isAbsolute] using (plain_iff.mp plain).1
    rw [components_join filled relative, bodyComponents_name named]

/-- Going down by names adds them to the components. -/
theorem components_descend {names : List Bytes} (named : names.all FileEntry.isName = true)
    (p : Path) :
    (p.descend names).components = p.components ++ names.map .name := by
  induction names generalizing p with
  | nil => simp [descend]
  | cons name names ih =>
    rw [List.all_cons, Bool.and_eq_true] at named
    rw [descend, List.foldl_cons, ← descend, ih named.2, components_join_name named.1,
      List.append_assoc]
    rfl

/-- Different names lead to different paths. -/
theorem separate_descend {files : List (List Bytes)} (nodup : files.Nodup)
    (named : ∀ names ∈ files, names.all FileEntry.isName = true) (p : Path) :
    (files.map p.descend).Pairwise fun q r => q.components ≠ r.components := by
  rw [List.pairwise_map]
  refine nodup.imp_of_mem ?_
  intro a b ha hb different same
  rw [components_descend (named a ha), components_descend (named b hb),
    List.append_cancel_left_eq] at same
  exact different ((List.map_inj_right fun _ _ h => Component.name.inj h).mp same)

/-! ## Looking from a base -/

theorem plain_dropComponents (n : Nat) (cs : Bytes) : Plain (dropComponents n cs) :=
  plain_trimEnd (plain_trimStart _)

theorem bodyComponents_dropComponents {n : Nat} (h : 0 < n) (cs : Bytes) :
    bodyComponents (dropComponents n cs) = (componentsOf cs).drop n := by
  have lead : (splitLead cs).1.toList.drop n = [] := by
    apply List.drop_eq_nil_of_le
    cases (splitLead cs).1 with
    | none => exact Nat.zero_le n
    | some c => exact h
  unfold dropComponents
  rw [bodyComponents_trimEnd, bodyComponents_trimStart, bodyComponents_dropPieces, componentsOf,
    List.drop_append, lead, List.nil_append]

/-- The end of a path may be trimmed. -/
theorem componentsOf_leadBytes_trimEnd (cs : Bytes) :
    componentsOf (leadBytes (splitLead cs).1 ++ trimEnd (splitLead cs).2) = componentsOf cs := by
  rcases spelling_cases cs with ⟨body, rfl⟩ | ⟨body, rfl, ends⟩ | plain
  · simp [splitLead, leadBytes, bodyComponents_trimEnd]
  · rw [splitLead_dot ends, componentsOf_dot ends, ← bodyComponents_trimEnd body]
    exact componentsOf_dot (atEnd_of_isPrefix (trimEnd_isPrefix body) ends)
  · rw [plain, componentsOf_of_plain plain, ← bodyComponents_trimEnd cs]
    exact componentsOf_of_plain (plain_trimEnd plain)

theorem relativeTo_of_empty {p base : Path} (h : base.bytes = []) :
    p.relativeTo base =
      ⟨leadBytes (splitLead p.bytes).1 ++ trimEnd (splitLead p.bytes).2⟩ := by
  unfold relativeTo below?
  rw [components_eq_nil_iff.mpr h]
  rfl

theorem relativeTo_of_below {p base : Path} (h : base.components <+: p.components)
    (filled : base.bytes ≠ []) :
    p.relativeTo base = ⟨dropComponents base.components.length p.bytes⟩ := by
  have filled' : ¬ base.components.isEmpty = true := by
    rwa [List.isEmpty_iff, components_eq_nil_iff]
  unfold relativeTo below?
  rw [if_pos (List.isPrefixOf_iff_prefix.mpr h), if_neg filled', Option.getD_some]

theorem relativeTo_of_not_below {p base : Path} (h : ¬ base.components <+: p.components) :
    p.relativeTo base = p := by
  unfold relativeTo below?
  rw [if_neg (mt List.isPrefixOf_iff_prefix.mp h), Option.getD_none]

theorem bodyComponents_below {p base : Path} (filled : base.bytes ≠ []) :
    bodyComponents (dropComponents base.components.length p.bytes) =
      p.components.drop base.components.length := by
  apply bodyComponents_dropComponents
  rw [List.length_pos_iff]
  exact mt components_eq_nil_iff.mp filled

/-- What is seen of a path from a base above it are the components behind those of the base. -/
theorem components_relativeTo {p base : Path} (h : base.components <+: p.components) :
    (p.relativeTo base).components = p.components.drop base.components.length := by
  by_cases filled : base.bytes = []
  · rw [relativeTo_of_empty filled, components_eq_nil_iff.mpr filled, components_eq]
    exact componentsOf_leadBytes_trimEnd p.bytes
  · rw [relativeTo_of_below h filled, components_eq,
      componentsOf_of_plain (plain_dropComponents _ _), bodyComponents_below filled]

theorem isAbsolute_relativeTo {p base : Path} (h : base.components <+: p.components)
    (filled : base.bytes ≠ []) :
    (p.relativeTo base).isAbsolute = false := by
  rw [relativeTo_of_below h filled, isAbsolute]
  simpa using (plain_iff.mp (plain_dropComponents _ _)).1

/-- A path below a base can be found again from how it is seen from there, and so can a path that is
absolute. -/
theorem components_join_relativeTo {p base : Path}
    (h : base.components <+: p.components ∨ p.isAbsolute = true) :
    (base.join (p.relativeTo base)).components = p.components := by
  by_cases below : base.components <+: p.components
  · by_cases filled : base.bytes = []
    · rw [join_of_empty filled, components_relativeTo below, components_eq_nil_iff.mpr filled]
      rfl
    · rw [components_join filled (isAbsolute_relativeTo below filled),
        relativeTo_of_below below filled, bodyComponents_below filled]
      exact List.prefix_iff_eq_append.mp below
  · have absolute := h.resolve_left below
    rw [relativeTo_of_not_below below, join, if_pos absolute]

/-- A path, in whatever spelling, that goes on from a directory by these names. -/
def Extends (p dir : Path) (names : List Bytes) : Prop :=
  p.components = dir.components ++ names.map .name

instance (p dir : Path) (names : List Bytes) : Decidable (p.Extends dir names) :=
  inferInstanceAs (Decidable (_ = _))

theorem extends_descend {names : List Bytes} (named : names.all FileEntry.isName = true)
    (dir : Path) :
    (dir.descend names).Extends dir names :=
  components_descend named dir

theorem prefix_join_of_relative {root dir : Path} (relative : dir.isAbsolute = false) :
    root.components <+: (root.join dir).components := by
  by_cases filled : root.bytes = []
  · rw [components_eq_nil_iff.mpr filled]
    exact List.nil_prefix
  · rw [components_join filled relative]
    exact List.prefix_append _ _

/-- A directory that is given from a base is below it or absolute, and so are the paths below the
directory. -/
theorem below_or_isAbsolute_of_extends {root dir p : Path} {names : List Bytes}
    (h : p.Extends (root.join dir) names) : root.components <+: p.components ∨
      p.isAbsolute = true := by
  rw [isAbsolute_iff, h]
  cases absolute : dir.isAbsolute with
  | true =>
    right
    rw [join, if_pos absolute, List.head?_append, isAbsolute_iff.mp absolute, Option.some_or]
  | false =>
    left
    exact (prefix_join_of_relative absolute).trans (List.prefix_append _ _)

/-! ## Spelling -/

theorem subset_of_mem_pieces {body piece : Bytes} (h : piece ∈ pieces body) : piece ⊆ body := by
  induction body generalizing piece with
  | nil =>
    rw [pieces_of_not_mem List.not_mem_nil, List.mem_singleton] at h
    subst h
    exact List.Subset.refl _
  | cons c body ih =>
    by_cases noSlash : c = slash
    · rw [noSlash, pieces_slash, List.mem_cons] at h
      rcases h with rfl | h
      · exact List.nil_subset _
      · exact List.subset_cons_of_subset _ (ih h)
    · obtain ⟨first, others, hbody, hcons⟩ := pieces_cons noSlash body
      rw [hbody] at ih
      rw [hcons, List.mem_cons] at h
      rcases h with rfl | h
      · exact List.cons_subset_cons c (ih List.mem_cons_self)
      · exact List.subset_cons_of_subset _ (ih (List.mem_cons_of_mem _ h))

theorem splitLead_subset (cs : Bytes) : leadBytes (splitLead cs).1 ⊆ cs ∧
    (splitLead cs).2 ⊆ cs := by
  have parts : leadBytes (splitLead cs).1 ++ (splitLead cs).2 = cs := by
    fun_cases splitLead cs <;> simp_all [leadBytes]
  exact List.append_subset.mp fun _ hc => parts ▸ hc

theorem dropPieces_isSuffix (n : Nat) (body : Bytes) : dropPieces n body <:+ body := by
  induction n generalizing body with
  | zero => exact List.suffix_rfl
  | succ n ih =>
    refine (ih _).trans ((List.drop_suffix 1 _).trans ?_)
    exact (List.dropWhile_suffix _).trans (trimStart_isSuffix body)

/-- The names of a path are spelled with its bytes. -/
theorem name_subset {p : Path} {name : Bytes} (h : .name name ∈ p.components) : name ⊆ p.bytes := by
  have spelled : .name name ∈ bodyComponents (splitLead p.bytes).2 := by
    rw [components_eq, componentsOf, List.mem_append, Option.mem_toList] at h
    refine h.resolve_left fun lead => ?_
    revert lead
    fun_cases splitLead p.bytes <;> simp
  obtain ⟨piece, hpiece, found⟩ := List.mem_filterMap.mp spelled
  have same : name = piece := by
    unfold pieceComponent? at found
    split at found
    · cases found
    · split at found
      · cases found
      · cases found
        rfl
  rw [same]
  exact List.Subset.trans (subset_of_mem_pieces hpiece) (splitLead_subset _).2

/-- So is what is seen of it from a base. -/
theorem relativeTo_subset (p base : Path) : (p.relativeTo base).bytes ⊆ p.bytes := by
  by_cases below : base.components <+: p.components
  · by_cases filled : base.bytes = []
    · rw [relativeTo_of_empty filled]
      obtain ⟨lead, body⟩ := splitLead_subset p.bytes
      exact List.append_subset.mpr ⟨lead, List.Subset.trans (trimEnd_isPrefix _).subset body⟩
    · rw [relativeTo_of_below below filled]
      unfold dropComponents
      refine List.Subset.trans (trimEnd_isPrefix _).subset
        (List.Subset.trans (trimStart_isSuffix _).subset ?_)
      exact List.Subset.trans (dropPieces_isSuffix _ _).subset (splitLead_subset _).2
  · simp [relativeTo_of_not_below below]

end CodeAtlas.Path
