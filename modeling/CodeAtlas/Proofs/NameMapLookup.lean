import CodeAtlas.NameMap

/-!
# Looking up names

What `NameMap.get?` finds after a change, and which names a map lists. A change at one name is seen
at that name and nowhere else. The keys of a map are listed once each, and a set made from a list
has the names of the list. A map made from a list of entries keeps the last entry of each name,
which is every entry if their names are different. What a map answers to every name determines it.
-/
namespace CodeAtlas

theorem lookup_entry_cons {κ β : Type} [BEq κ] [LawfulBEq κ] [DecidableEq κ] (name key : κ) (v : β)
    (l : List (κ × β)) : ((key, v) :: l).lookup name = if name = key then some v
      else l.lookup name := by
  by_cases h : name = key
  · simp [h]
  · rw [List.lookup_cons, beq_false_of_ne h, if_neg h]

theorem mem_of_lookup {κ β : Type} [BEq κ] [LawfulBEq κ] {name : κ} {v : β} {l : List (κ × β)}
    (h : l.lookup name = some v) : (name, v) ∈ l := by
  obtain ⟨before, after, rfl, -⟩ := List.lookup_eq_some_iff.mp h
  simp

theorem lookup_of_mem {κ β : Type} [BEq κ] [LawfulBEq κ] [DecidableEq κ] {l : List (κ × β)}
    (distinct : l.Pairwise fun a b => a.1 ≠ b.1) {e : κ × β} (he : e ∈ l) :
    l.lookup e.1 = some e.2 := by
  induction l with
  | nil => cases he
  | cons head rest ih =>
    obtain ⟨key, v⟩ := head
    obtain ⟨hkey, hrest⟩ := List.pairwise_cons.mp distinct
    rw [lookup_entry_cons]
    rcases List.mem_cons.mp he with rfl | he
    · rw [if_pos rfl]
    · rw [if_neg (hkey e he).symm]
      exact ih hrest he

namespace NameMap

variable {β : Type}

theorem lookup_eq_none_of_lt {name : String} {l : List (String × β)} (h : ∀ e ∈ l, name < e.1) :
    l.lookup name = none := by
  rw [List.lookup_eq_none_iff]
  intro e he
  rw [bne_iff_ne]
  intro heq
  subst heq
  exact String.lt_irrefl _ (h e he)

theorem lookup_alterEntries (name other : String) (f : Option β → β) {l : List (String × β)}
    (h : l.Pairwise fun a b => a.1 < b.1) :
    (alterEntries name f l).lookup other =
      if other = name then some (f (l.lookup name)) else l.lookup other := by
  induction l with
  | nil => simp [alterEntries, lookup_entry_cons]
  | cons head rest ih =>
    obtain ⟨key, v⟩ := head
    obtain ⟨hkey, hrest⟩ := List.pairwise_cons.mp h
    simp only [alterEntries]
    split
    next hlt =>
      -- `name` comes before every key, so that it was not there
      have absent : ((key, v) :: rest).lookup name = none := by
        apply lookup_eq_none_of_lt
        intro e he
        rcases List.mem_cons.mp he with rfl | he
        · exact hlt
        · exact String.lt_trans hlt (hkey e he)
      rw [lookup_entry_cons, absent]
    next =>
      split
      next heq =>
        subst heq
        by_cases ho : other = name <;> simp [lookup_entry_cons, ho]
      next hne =>
        rw [lookup_entry_cons, ih hrest, lookup_entry_cons, lookup_entry_cons, if_neg hne]
        by_cases ho : other = name
        · simp [ho, hne]
        · simp [ho]

theorem get?_alter (m : NameMap β) (name other : String) (f : Option β → β) :
    (m.alter name f).get? other = if other = name then some (f (m.get? name)) else m.get? other :=
  lookup_alterEntries name other f m.increasing

theorem get?_insertNew (m : NameMap β) (name other : String) (v : β) :
    (m.insertNew name v).get? other =
      (m.get? other).or (if other = name then some v else none) := by
  rw [insertNew, get?_alter]
  by_cases h : other = name
  · subst h
    cases m.get? other <;> simp
  · simp [h]

/-- The names of a list all get the same value, each unless it has one. -/
theorem get?_foldl_insertNew (names : List String) (m : NameMap β) (other : String) (v : β) :
    (names.foldl (fun m name => m.insertNew name v) m).get? other =
      (m.get? other).or (if other ∈ names then some v else none) := by
  induction names generalizing m with
  | nil => simp
  | cons name names ih =>
    rw [List.foldl_cons, ih, get?_insertNew]
    by_cases h : other = name <;> cases m.get? other <;> simp [h]

theorem mem_keys_iff {m : NameMap β} {name : String} :
    name ∈ m.keys ↔ (m.get? name).isSome = true := by
  rw [keys, get?, List.mem_map, List.lookup_isSome_iff]
  simp only [beq_iff_eq, fun e : String × β => eq_comm (a := e.1) (b := name)]

theorem mem_keys_alter {m : NameMap β} {name other : String} {f : Option β → β} :
    other ∈ (m.alter name f).keys ↔ other = name ∨ other ∈ m.keys := by
  rw [mem_keys_iff, mem_keys_iff, get?_alter]
  by_cases h : other = name <;> simp [h]

theorem keys_increasing (m : NameMap β) : m.keys.Pairwise (· < ·) :=
  List.pairwise_map.mpr m.increasing

theorem keys_nodup (m : NameMap β) : m.keys.Nodup := by
  refine m.keys_increasing.imp ?_
  intro a b hlt heq
  exact String.lt_irrefl _ (heq ▸ hlt)

@[simp] theorem length_keys (m : NameMap β) : m.keys.length = m.size :=
  List.length_map _

/-! ## Entries -/

theorem entries_distinct (m : NameMap β) : m.entries.Pairwise fun a b => a.1 ≠ b.1 := by
  refine m.increasing.imp ?_
  intro a b hlt heq
  exact String.lt_irrefl _ (heq ▸ hlt)

theorem mem_entries_iff {m : NameMap β} {e : String × β} : e ∈ m.entries ↔ m.get? e.1 = some e.2 :=
  ⟨lookup_of_mem m.entries_distinct, mem_of_lookup⟩

theorem get?_foldl_insert (l : List (String × β)) (m : NameMap β) (name : String) :
    (l.foldl (fun m e => m.insert e.1 e.2) m).get? name = (l.reverse.lookup name).or
      (m.get? name) := by
  induction l generalizing m with
  | nil => simp
  | cons e l ih =>
    rw [List.foldl_cons, ih, insert, get?_alter, List.reverse_cons,
      List.lookup_append, lookup_entry_cons, Option.or_assoc]
    by_cases h : name = e.1 <;> simp [h]

/-- Of several entries of a name the last one stays. -/
theorem get?_ofList (l : List (String × β)) (name : String) :
    (ofList l).get? name = l.reverse.lookup name := by
  rw [ofList, get?_foldl_insert]
  simp [get?, empty]

theorem mem_of_mem_entries_ofList {l : List (String × β)} {e : String × β}
    (h : e ∈ (ofList l).entries) :
    e ∈ l := by
  rw [mem_entries_iff, get?_ofList] at h
  exact List.mem_reverse.mp (mem_of_lookup h)

theorem mem_entries_ofList {l : List (String × β)} (distinct : l.Pairwise fun a b => a.1 ≠ b.1)
    {e : String × β} : e ∈ (ofList l).entries ↔ e ∈ l := by
  refine ⟨mem_of_mem_entries_ofList, fun h => ?_⟩
  have backwards : l.reverse.Pairwise fun a b => a.1 ≠ b.1 :=
    List.pairwise_reverse.mpr (distinct.imp Ne.symm)
  rw [mem_entries_iff, get?_ofList]
  exact lookup_of_mem backwards (List.mem_reverse.mpr h)

/-! ## Maps with the same content -/

theorem nodup_of_distinct {l : List (String × β)} (distinct : l.Pairwise fun a b => a.1 ≠ b.1) :
    l.Nodup := by
  refine distinct.imp ?_
  intro a b different same
  exact different (congrArg Prod.fst same)

theorem entries_nodup (m : NameMap β) : m.entries.Nodup :=
  nodup_of_distinct m.entries_distinct

theorem eq_of_mem_entries {m m' : NameMap β} (h : ∀ e, e ∈ m.entries ↔ e ∈ m'.entries) :
    m = m' := by
  have perm : m.entries.Perm m'.entries :=
    (List.perm_ext_iff_of_nodup m.entries_nodup m'.entries_nodup).mpr h
  apply NameMap.ext
  refine perm.eq_of_pairwise ?_ m.increasing m'.increasing
  intro a b _ _ before after
  exact absurd (String.lt_trans before after) (String.lt_irrefl a.1)

theorem eq_of_get? {m m' : NameMap β} (h : ∀ name, m.get? name = m'.get? name) : m = m' := by
  apply eq_of_mem_entries
  intro e
  rw [mem_entries_iff, mem_entries_iff, h]

theorem ofList_entries (m : NameMap β) : ofList m.entries = m :=
  eq_of_mem_entries fun _ => mem_entries_ofList m.entries_distinct

end NameMap

namespace NameSet

theorem mem_toList_foldl_insert (names : List String) (s : NameSet) (other : String) :
    other ∈ (names.foldl (fun m n => m.insert n ()) s).toList ↔ other ∈ names ∨
    other ∈ s.toList := by
  induction names generalizing s with
  | nil => simp
  | cons name names ih =>
    rw [List.foldl_cons, ih]
    simp only [toList, NameMap.insert, NameMap.mem_keys_alter, List.mem_cons]
    constructor
    · intro hh
      rcases hh with h | h | h
      · exact .inl (.inr h)
      · exact .inl (.inl h)
      · exact .inr h
    · intro hh
      rcases hh with (h | h) | h
      · exact .inr (.inl h)
      · exact .inl h
      · exact .inr (.inr h)

theorem mem_toList_ofNames {names : List String} {other : String} :
    other ∈ (ofNames names).toList ↔ other ∈ names := by
  rw [ofNames, mem_toList_foldl_insert]
  simp [toList, NameMap.keys, NameMap.empty]

theorem contains_ofNames {names : List String} {other : String} :
    (ofNames names).contains other = true ↔ other ∈ names := by
  rw [NameMap.contains, ← NameMap.mem_keys_iff]
  exact mem_toList_ofNames

theorem mem_toList_union {s t : NameSet} {name : String} :
    name ∈ (s.union t).toList ↔ name ∈ s.toList ∨ name ∈ t.toList := by
  rw [union, mem_toList_foldl_insert, or_comm]
  rfl

theorem contains_union {s t : NameSet} {name : String} :
    (s.union t).contains name = true ↔ s.contains name = true ∨ t.contains name = true := by
  simp only [NameMap.contains, ← NameMap.mem_keys_iff]
  exact mem_toList_union

end NameSet

end CodeAtlas
