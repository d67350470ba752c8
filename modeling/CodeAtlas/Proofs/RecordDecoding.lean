import CodeAtlas.Config.Decode
import CodeAtlas.Proofs.TomlKeys
import Mathlib.Data.List.Nodup

/-!
# Reading records of settings

A table is read entry by entry into a record. Two facts about the fields carry over to the whole
table. Which values a field takes does not depend on the record, so a table is read if each of its
entries is; and a part of the record that one field sets and no other changes is, in the end, what
that field was given, or the default. With every key there at most once, the order of the entries
has no part in this.

The items of an array are read as the entries of a table in which they stand under the names of the
fields.
-/
namespace CodeAtlas

/-- Two steps succeed together if each succeeds. -/
theorem bind_eq_ok_iff {ε α β : Type} {x : Except ε α} {f : α → Except ε β} {b : β} :
    (x >>= f) = .ok b ↔ ∃ a, x = .ok a ∧ f a = .ok b := by
  cases x with
  | error e => simp [bind, Except.bind]
  | ok a => simp [bind, Except.bind]

namespace Decode

open Toml

variable {σ α : Type} {fields : List (Field σ)} {record record' : σ} {es : Entries}

/-! ## Entries -/

theorem entries_cons_eq_ok_iff {e : String × Value} :
    entries fields record (e :: es) = .ok record' ↔
      ∃ next, entry fields record e = .ok next ∧ entries fields next es = .ok record' := by
  rw [entries, List.foldlM_cons, bind_eq_ok_iff]
  rfl

theorem find?_name_eq_some {field : Field σ} (distinct : (fields.map (·.name)).Nodup)
    (mem : field ∈ fields) :
    fields.find? (fun f => f.name == field.name) = some field := by
  induction fields with
  | nil => cases mem
  | cons first others ih =>
    rw [List.map_cons, List.nodup_cons] at distinct
    rcases List.mem_cons.mp mem with rfl | mem
    · exact List.find?_cons_of_pos (by simp)
    · rw [List.find?_cons_of_neg, ih distinct.2 mem]
      intro same
      exact distinct.1 (List.mem_map.mpr ⟨field, mem, (eq_of_beq same).symm⟩)

theorem entry_of_mem {field : Field σ} (distinct : (fields.map (·.name)).Nodup)
    (mem : field ∈ fields) (record : σ) (v : Value) : entry fields record (field.name, v) =
      field.set v record := by
  rw [entry, find?_name_eq_some distinct mem]

theorem entry_eq_ok_iff (distinct : (fields.map (·.name)).Nodup) {e : String × Value} :
    entry fields record e = .ok record' ↔
      ∃ field ∈ fields, e.1 = field.name ∧ field.set e.2 record = .ok record' := by
  constructor
  · intro h
    unfold entry at h
    split at h
    next field found =>
      have name := List.find?_some found
      exact ⟨field, List.mem_of_find?_eq_some found, (eq_of_beq name).symm, h⟩
    · cases h
  · intro h
    obtain ⟨field, mem, name, set⟩ := h
    obtain ⟨key, v⟩ := e
    cases name
    rw [entry_of_mem distinct mem]
    exact set

/-- The items of an array are read as if they stood under the names of the fields, in order. -/
theorem items_eq_entries (distinct : (fields.map (·.name)).Nodup) (record : σ) (vs : List Value) :
    items fields record vs = entries fields record ((fields.map (·.name)).zip vs) := by
  have named : ∀ (pairs : List (Field σ × Value)) (record : σ), (∀ p ∈ pairs, p.1 ∈ fields) →
      pairs.foldlM (fun record p => p.1.set p.2 record) record =
        entries fields record (pairs.map fun p => (p.1.name, p.2)) := by
    intro pairs
    induction pairs with
    | nil => exact fun _ _ => rfl
    | cons p pairs ih =>
      intro record known
      rw [List.forall_mem_cons] at known
      rw [List.foldlM_cons, List.map_cons, entries, List.foldlM_cons, entry_of_mem distinct known.1]
      exact bind_congr fun next => ih next known.2
  have zipped : (fields.map (·.name)).zip vs = (fields.zip vs).map fun p => (p.1.name, p.2) := by
    rw [List.zip_map_left]
    rfl
  rw [zipped]
  exact named _ _ fun p mem => (List.of_mem_zip mem).1

/-! ## Success -/

/-- The entries that are read, into whatever record. -/
def Accepts (fields : List (Field σ)) (fits : String × Value → Prop) : Prop :=
  ∀ e a, (∃ a', entry fields a e = .ok a') ↔ fits e

/-- A table is read if each of its entries is. -/
theorem Accepts.exists_entries_eq_ok_iff {fits : String × Value → Prop}
    (accepts : Accepts fields fits) (record : σ) :
    (∃ record', entries fields record es = .ok record') ↔ ∀ e ∈ es, fits e := by
  induction es generalizing record with
  | nil => exact ⟨fun _ => List.forall_mem_nil _, fun _ => ⟨record, rfl⟩⟩
  | cons e es ih =>
    simp only [entries_cons_eq_ok_iff, List.forall_mem_cons]
    constructor
    · intro h
      obtain ⟨record', next, first, others⟩ := h
      exact ⟨(accepts e record).mp ⟨next, first⟩, (ih next).mp ⟨record', others⟩⟩
    · intro h
      obtain ⟨next, first⟩ := (accepts e record).mpr h.1
      obtain ⟨record', others⟩ := (ih next).mpr h.2
      exact ⟨record', next, first, others⟩

/-! ## Parts of the record -/

/-- Under a name there is a value that means `x`, or there is none and `x` is the default. -/
def Given (es : Entries) (name : String) (means : Value → α → Prop) (default x : α) : Prop :=
  (∃ v, (name, v) ∈ es ∧ means v x) ∨ (∀ v, (name, v) ∉ es) ∧ x = default

/-- A part of the record that the entry of one name sets, to what its value means, and no other
entry changes. -/
def Tracks (fields : List (Field σ)) (name : String) (means : Value → α → Prop) (get : σ → α) :
    Prop :=
  ∀ e a a', entry fields a e = .ok a' → e.1 = name ∧ means e.2 (get a') ∨
    e.1 ≠ name ∧ get a' = get a

theorem Tracks.given {name : String} {means : Value → α → Prop} {get : σ → α}
    (tracks : Tracks fields name means get) (keys : es.Pairwise fun a b => a.1 ≠ b.1)
    (h : entries fields record es = .ok record') :
    Given es name means (get record) (get record') := by
  induction es generalizing record with
  | nil =>
    cases h
    exact .inr ⟨fun v => List.not_mem_nil, rfl⟩
  | cons e es ih =>
    obtain ⟨apart, keys⟩ := List.pairwise_cons.mp keys
    obtain ⟨next, first, others⟩ := entries_cons_eq_ok_iff.mp h
    rcases tracks e record next first with ⟨rfl, value⟩ | ⟨elsewhere, kept⟩
    · -- the other entries have other keys and leave the part as it is
      rcases ih keys others with ⟨v, there, -⟩ | ⟨-, last⟩
      · exact absurd rfl (apart (e.1, v) there)
      · rw [last]
        exact .inl ⟨e.2, List.mem_cons_self, value⟩
    · rcases ih keys others with ⟨v, there, value⟩ | ⟨nowhere, last⟩
      · exact .inl ⟨v, List.mem_cons_of_mem e there, value⟩
      · refine .inr ⟨fun v there => ?_, last.trans kept⟩
        rcases List.mem_cons.mp there with same | there
        · exact elsewhere (congrArg Prod.fst same).symm
        · exact nowhere v there

section

variable {name : String} {means means' : Value → α → Prop} {default x y : α} {es' : Entries}

theorem Given.imp (h : Given es name means default x) (there : ∀ v, (name, v) ∈ es →
    means v x → means' v x) :
    Given es name means' default x := by
  rcases h with ⟨v, mem, value⟩ | absent
  · exact .inl ⟨v, mem, there v mem value⟩
  · exact .inr absent

/-- What is given is one thing if every value means one thing, in whatever order the entries
come. -/
theorem Given.unique (keys : es.Pairwise fun a b => a.1 ≠ b.1) (order : es.Perm es')
    (single : ∀ v, (name, v) ∈ es → means v x → means v y → x = y)
    (h : Given es name means default x) (h' : Given es' name means default y) : x = y := by
  simp only [Given, ← order.mem_iff] at h'
  rcases h with ⟨v, mem, value⟩ | ⟨absent, rfl⟩
  · rcases h' with ⟨w, mem', value'⟩ | ⟨absent', -⟩
    · have same : v = w := by
        have first := lookup_of_mem keys mem
        rw [lookup_of_mem keys mem'] at first
        exact (Option.some.inj first).symm
      subst same
      exact single v mem value value'
    · exact absurd mem (absent' v)
  · rcases h' with ⟨w, mem', -⟩ | ⟨-, rfl⟩
    · exact absurd mem' (absent w)
    · rfl

end

/-! ## Sections -/

/-- The entries of a section: those of a table, or the items of an array under the names of the
fields in order, as far as there are names. -/
def members? (names : List String) : Value → Option Entries
  | .table _ es => some es
  | .array _ vs => some (names.zip vs)
  | _ => none

theorem record_eq_ok_iff (distinct : (fields.map (·.name)).Nodup) {title : String}
    {defaults : σ} {v : Value} :
    Decode.record title fields defaults v = .ok record' ↔
      ∃ es, members? (fields.map (·.name)) v = some es ∧ entries fields defaults es =
        .ok record' := by
  cases v with
  | table origin es => simp [Decode.record, members?]
  | array isOpen vs => simp [Decode.record, members?, items_eq_entries distinct]
  | string _ => simp [Decode.record, members?]
  | integer _ => simp [Decode.record, members?]
  | float _ => simp [Decode.record, members?]
  | boolean _ => simp [Decode.record, members?]
  | datetime => simp [Decode.record, members?]

theorem zip_distinct {names : List String} (distinct : names.Nodup) (vs : List Value) :
    (names.zip vs).Pairwise fun a b => a.1 ≠ b.1 := by
  induction names generalizing vs with
  | nil => exact .nil
  | cons name names ih =>
    cases vs with
    | nil => exact .nil
    | cons v vs =>
      obtain ⟨apart, distinct⟩ := List.nodup_cons.mp distinct
      refine List.pairwise_cons.mpr ⟨fun e mem same => apart ?_, ih distinct vs⟩
      rw [show name = e.1 from same]
      exact (List.of_mem_zip mem).1

theorem members?_distinct {names : List String} (distinct : names.Nodup)
    {v : Value} (h : v.Distinct) (members : members? names v = some es) :
    es.Pairwise fun a b => a.1 ≠ b.1 := by
  cases v with
  | table origin entries =>
    cases members
    exact h.entries.keys
  | array isOpen vs =>
    cases members
    exact zip_distinct distinct vs
  | _ => cases members

/-! ## The order of keys -/

variable {before after es' : Entries}

theorem entries_append_cons_eq_ok_iff {e : String × Value} :
    entries fields record (before ++ e :: after) = .ok record' ↔
      ∃ a, entries fields record before = .ok a ∧ ∃ b, entry fields a e = .ok b ∧
        entries fields b after = .ok record' := by
  rw [entries, List.foldlM_append, bind_eq_ok_iff]
  simp only [List.foldlM_cons, bind_eq_ok_iff]
  rfl

theorem Accepts.entries_eq_ok_iff_of_perm {fits : String × Value → Prop}
    (accepts : Accepts fields fits) (order : es.Perm es')
    (same : ∀ c c', entries fields record es = .ok c → entries fields record es' = .ok c' →
      c = c') :
    entries fields record es = .ok record' ↔ entries fields record es' = .ok record' := by
  have read : (∃ c, entries fields record es = .ok c) ↔ ∃ c, entries fields record es' = .ok c := by
    simp only [accepts.exists_entries_eq_ok_iff, order.mem_iff]
  constructor
  · intro h
    obtain ⟨c, h'⟩ := read.mp ⟨record', h⟩
    rw [same record' c h h', h']
  · intro h'
    obtain ⟨c, h⟩ := read.mpr ⟨record', h'⟩
    rw [← same c record' h h', h]

/-- The order of keys has no part in what is read if it has none in a table without the tables in
it, nor in what a field takes a table for. -/
theorem entries_eq_ok_iff_of_reordered
    (swap : ∀ es es' : Entries, es.Distinct → es.Perm es' →
      ∀ c, entries fields record es = .ok c ↔ entries fields record es' = .ok c)
    (inner : ∀ es es' : Entries, es.Distinct → es.Reordered es' → ∀ name origin origin' a b,
      entry fields a (name, .table origin es) = .ok b ↔
      entry fields a (name, .table origin' es') = .ok b)
    (distinct : es.Distinct) (order : es.Reordered es') (c : σ) :
    entries fields record es = .ok c ↔ entries fields record es' = .ok c := by
  induction order with
  | perm order => exact swap _ _ distinct order c
  | within before after key origin origin' order _ =>
    have table := (distinct.values _ List.mem_append_cons_self).entries
    simp only [entries_append_cons_eq_ok_iff, inner _ _ table order key origin origin']
  | trans first second ih ih' => exact (ih distinct).trans (ih' (distinct.reordered first))

end Decode

end CodeAtlas
