import CodeAtlas.CallSite
import CodeAtlas.Proofs.NameMapLookup

/-!
# What an index of call sites answers

An index remembers counts it has given, but what it answers is a function of its files and of the
name: what it remembers is always what it would count again. `CallSiteIndex.Serves` is kept by every
count, so it holds along any sequence of them.
-/
namespace CodeAtlas.CallSiteIndex

/-- What some files answer to a name. -/
def answer [PatternLimit] (files : List SourceUnit) (name : String) : Except CallSiteError Nat :=
  if nameFits name then .ok (total files name) else .error .nameTooLong

/-- An index of these files that remembers only what they answer. -/
structure Serves [PatternLimit] (index : CallSiteIndex) (files : List SourceUnit) : Prop where
  files_eq : index.files = files
  known_answers : ∀ name n, index.known.get? name = some n → answer files name = .ok n

variable {index : CallSiteIndex} {files : List SourceUnit}

theorem serves_fresh [PatternLimit] (files : List SourceUnit) : Serves { files } files := by
  refine ⟨rfl, fun name n h => ?_⟩
  simp [NameMap.get?, NameMap.empty] at h

theorem Serves.count_eq [PatternLimit] (h : index.Serves files) (name : String) :
    (index.count name).1 = answer files name := by
  unfold count
  split
  next n known => exact (h.known_answers name n known).symm
  next =>
    unfold answer
    split
    · rw [h.files_eq]
    · rfl

theorem Serves.count [PatternLimit] (h : index.Serves files) (name : String) :
    (index.count name).2.Serves files := by
  unfold CallSiteIndex.count
  split
  · exact h
  next =>
    split
    next fits =>
      refine ⟨h.files_eq, fun other n known => ?_⟩
      simp only [NameMap.insert, NameMap.get?_alter] at known
      split at known
      next same =>
        cases known
        rw [same, answer, if_pos fits, h.files_eq]
      next => exact h.known_answers other n known
    · exact h

end CodeAtlas.CallSiteIndex
