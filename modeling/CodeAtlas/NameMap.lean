/-!
# Maps keyed by name

A finite map from names to values, held as its list of entries in strictly increasing order of
names. The order of names is that of their code points, which is also the order of their encoded
bytes. Two maps with the same content are therefore the same value, and listing a map lists it in
order.

A set of names is a map that keeps nothing beside each name.
-/
namespace CodeAtlas

structure NameMap (β : Type) where
  entries : List (String × β)
  increasing : entries.Pairwise fun a b => a.1 < b.1

namespace NameMap

variable {β : Type}

@[ext] theorem ext {m₁ m₂ : NameMap β} (h : m₁.entries = m₂.entries) : m₁ = m₂ := by
  cases m₁; cases m₂; cases h; rfl

def empty : NameMap β := ⟨[], .nil⟩

instance : Inhabited (NameMap β) := ⟨empty⟩

def keys (m : NameMap β) : List String := m.entries.map Prod.fst

def values (m : NameMap β) : List β := m.entries.map Prod.snd

def size (m : NameMap β) : Nat := m.entries.length

def isEmpty (m : NameMap β) : Bool := m.entries.isEmpty

def get? (m : NameMap β) (name : String) : Option β := m.entries.lookup name

def contains (m : NameMap β) (name : String) : Bool := (m.get? name).isSome

/-- Changes the value at `name`, or puts a first one there, in an increasing list. -/
def alterEntries (name : String) (f : Option β → β) : List (String × β) → List (String × β)
  | [] => [(name, f none)]
  | (other, v) :: rest =>
    if name < other then (name, f none) :: (other, v) :: rest
    else if name = other then (name, f (some v)) :: rest
    else (other, v) :: alterEntries name f rest

theorem mem_keys_alterEntries {name : String} {f : Option β → β} {l : List (String × β)}
    {e : String × β} (h : e ∈ alterEntries name f l) : e.1 = name ∨ ∃ e' ∈ l, e'.1 = e.1 := by
  induction l with
  | nil => simp_all [alterEntries]
  | cons head rest ih =>
    obtain ⟨other, v⟩ := head
    simp only [alterEntries] at h
    split at h
    · rcases List.mem_cons.1 h with rfl | h
      · exact .inl rfl
      · exact .inr ⟨e, h, rfl⟩
    · split at h
      · rcases List.mem_cons.1 h with rfl | h
        · exact .inl rfl
        · exact .inr ⟨e, List.mem_cons_of_mem _ h, rfl⟩
      · rcases List.mem_cons.1 h with rfl | h
        · exact .inr ⟨_, List.mem_cons_self, rfl⟩
        · rcases ih h with h | ⟨e', he', h⟩
          · exact .inl h
          · exact .inr ⟨e', List.mem_cons_of_mem _ he', h⟩

theorem increasing_alterEntries (name : String) (f : Option β → β) {l : List (String × β)}
    (h : l.Pairwise fun a b => a.1 < b.1) :
    (alterEntries name f l).Pairwise fun a b => a.1 < b.1 := by
  induction l with
  | nil => simp [alterEntries]
  | cons head rest ih =>
    obtain ⟨other, v⟩ := head
    rw [List.pairwise_cons] at h
    simp only [alterEntries]
    split
    next hlt =>
      refine .cons ?_ (.cons h.1 h.2)
      intro e he
      rcases List.mem_cons.1 he with rfl | he
      · exact hlt
      · exact String.lt_trans hlt (h.1 e he)
    next hnlt =>
      split
      next heq => exact .cons (fun e he => heq ▸ h.1 e he) h.2
      next hne =>
        refine .cons ?_ (ih h.2)
        intro e he
        have hlt : other < name := by
          have hle : other ≤ name := String.not_lt.1 hnlt
          exact Decidable.byContradiction fun hn =>
            hne (String.le_antisymm (String.not_lt.1 hn) hle)
        rcases mem_keys_alterEntries he with h' | ⟨e', he', h'⟩
        · exact h' ▸ hlt
        · exact h' ▸ h.1 e' he'

/-- The map whose value at `name` is `f` of the value there before. -/
def alter (m : NameMap β) (name : String) (f : Option β → β) : NameMap β :=
  ⟨alterEntries name f m.entries, increasing_alterEntries name f m.increasing⟩

/-- Puts `v` at `name`, in place of what stood there. -/
def insert (m : NameMap β) (name : String) (v : β) : NameMap β :=
  m.alter name fun _ => v

/-- Puts `v` at `name` unless something stands there. -/
def insertNew (m : NameMap β) (name : String) (v : β) : NameMap β :=
  m.alter name fun old => old.getD v

/-- Later entries replace earlier ones of the same name. -/
def ofList (entries : List (String × β)) : NameMap β :=
  entries.foldl (fun m e => m.insert e.1 e.2) empty

end NameMap

/-- A finite set of names, listed in increasing order. -/
abbrev NameSet := NameMap Unit

namespace NameSet

def ofNames (names : List String) : NameSet :=
  names.foldl (fun m n => m.insert n ()) NameMap.empty

def toList (s : NameSet) : List String := s.keys

def union (s t : NameSet) : NameSet :=
  t.keys.foldl (fun m n => m.insert n ()) s

end NameSet

end CodeAtlas
