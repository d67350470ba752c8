import CodeAtlas.Path

/-!
# Maps keyed by path

A finite map from paths to values. Keys are compared by their components, so a file has one entry
however it is spelled, under the spelling that came first. Entries are not in any order, and nothing
lists them.
-/
namespace CodeAtlas

structure PathMap (β : Type) where
  entries : List (Path × β)
  separate : entries.Pairwise fun a b => a.1.same b.1 = false

namespace PathMap

variable {β : Type}

def empty : PathMap β := ⟨[], .nil⟩

def get? (m : PathMap β) (path : Path) : Option β :=
  (m.entries.find? fun e => e.1.same path).map Prod.snd

/-- Changes the value at `path`, or puts a first one there. -/
def alterEntries (path : Path) (f : Option β → β) : List (Path × β) → List (Path × β)
  | [] => [(path, f none)]
  | (other, v) :: rest =>
    if other.same path then (other, f (some v)) :: rest else (other, v) :: alterEntries path f rest

theorem mem_keys_alterEntries {path : Path} {f : Option β → β} {l : List (Path × β)} {e : Path × β}
    (h : e ∈ alterEntries path f l) : e.1 = path ∨ ∃ e' ∈ l, e'.1 = e.1 := by
  induction l with
  | nil => simp_all [alterEntries]
  | cons head rest ih =>
    obtain ⟨other, v⟩ := head
    simp only [alterEntries] at h
    split at h
    · rcases List.mem_cons.1 h with rfl | h
      · exact .inr ⟨_, List.mem_cons_self, rfl⟩
      · exact .inr ⟨e, List.mem_cons_of_mem _ h, rfl⟩
    · rcases List.mem_cons.1 h with rfl | h
      · exact .inr ⟨_, List.mem_cons_self, rfl⟩
      · rcases ih h with h | ⟨e', he', h⟩
        · exact .inl h
        · exact .inr ⟨e', List.mem_cons_of_mem _ he', h⟩

theorem separate_alterEntries (path : Path) (f : Option β → β) {l : List (Path × β)}
    (h : l.Pairwise fun a b => a.1.same b.1 = false) :
    (alterEntries path f l).Pairwise fun a b => a.1.same b.1 = false := by
  induction l with
  | nil => simp [alterEntries]
  | cons head rest ih =>
    obtain ⟨other, v⟩ := head
    rw [List.pairwise_cons] at h
    simp only [alterEntries]
    split
    · exact .cons h.1 h.2
    next different =>
      refine .cons ?_ (ih h.2)
      intro e he
      rcases mem_keys_alterEntries he with h' | ⟨e', he', h'⟩
      · exact h' ▸ Bool.eq_false_iff.2 different
      · exact h' ▸ h.1 e' he'

/-- The map whose value at `path` is `f` of the value there before. -/
def alter (m : PathMap β) (path : Path) (f : Option β → β) : PathMap β :=
  ⟨alterEntries path f m.entries, separate_alterEntries path f m.separate⟩

def insert (m : PathMap β) (path : Path) (v : β) : PathMap β :=
  m.alter path fun _ => v

end PathMap

end CodeAtlas
