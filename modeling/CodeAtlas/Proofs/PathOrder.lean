import CodeAtlas.PathMap

/-!
# One notion of sameness for paths

A path can be looked up, compared and ordered, and each of these reads its components and not its
spelling. `Path.same` is an equivalence, `Path.cmp` is a total order up to it, and the two agree:
paths tie in the order exactly when they are the same. A map keyed by path finds the same under
every spelling. Nothing is said here about which spellings have which components.
-/
namespace CodeAtlas

namespace Component

/-- Rank first, then the bytes of a name; the other components have the same among them. -/
theorem cmp_eq_compareLex :
    cmp = compareLex (compareOn rank) (compareOn fun c : Component => c.name?.getD []) := by
  funext a b
  cases a <;> cases b <;> simp [cmp, compareLex, compareOn, rank, name?, Nat.compare_eq_ite_lt]

instance : Std.TransCmp cmp := by
  rw [cmp_eq_compareLex]
  infer_instance

instance : Std.LawfulEqCmp cmp where
  eq_of_compare {a b} h := by
    cases a <;> cases b <;> simp [cmp, rank] at h ⊢
    exact h

end Component

namespace Path

theorem cmpComponents_eq_compareLex : cmpComponents = List.compareLex Component.cmp := by
  funext as bs
  induction as generalizing bs with
  | nil => cases bs <;> rfl
  | cons a as ih =>
    cases bs with
    | nil => rfl
    | cons b bs => rw [cmpComponents, ih, List.compareLex_cons_cons]

instance : Std.TransCmp cmpComponents := by
  rw [cmpComponents_eq_compareLex]
  infer_instance

instance : Std.LawfulEqCmp cmpComponents := by
  rw [cmpComponents_eq_compareLex]
  infer_instance

instance : Std.TransCmp cmp where
  eq_swap := by
    intro p q
    unfold cmp
    exact Std.OrientedCmp.eq_swap
  isLE_trans := by
    intro p q r
    unfold cmp
    exact Std.TransCmp.isLE_trans

theorem same_iff {p q : Path} : p.same q = true ↔ p.components = q.components := by
  simp [same]

theorem cmp_eq_eq_iff {p q : Path} : p.cmp q = .eq ↔ p.same q = true := by
  rw [same_iff, cmp, Std.LawfulEqCmp.compare_eq_iff_eq]

@[simp] theorem same_refl (p : Path) : p.same p = true :=
  same_iff.mpr rfl

theorem same_symm {p q : Path} (h : p.same q = true) : q.same p = true :=
  same_iff.mpr (same_iff.mp h).symm

theorem same_trans {p q r : Path} (h₁ : p.same q = true) (h₂ : q.same r = true) : p.same r = true :=
  same_iff.mpr ((same_iff.mp h₁).trans (same_iff.mp h₂))

theorem same_comm (p q : Path) : p.same q = q.same p := by
  rw [Bool.eq_iff_iff]
  exact ⟨same_symm, same_symm⟩

/-- The two sides of a comparison may be respelled. -/
theorem same_congr {p p' q q' : Path} (hp : p.same p' = true) (hq : q.same q' = true) :
    p.same q = p'.same q' := by
  rw [same_iff] at hp hq
  rw [same, same, hp, hq]

end Path

namespace PathMap

variable {β : Type}

theorem get?_congr (m : PathMap β) {p q : Path} (h : p.same q = true) : m.get? p = m.get? q := by
  unfold get?
  simp only [fun e : Path × β => Path.same_congr (Path.same_refl e.1) h]

theorem find?_alterEntries (p q : Path) (f : Option β → β) (l : List (Path × β)) :
    ((alterEntries p f l).find? fun e => e.1.same q).map Prod.snd =
      if p.same q then some (f ((l.find? fun e => e.1.same p).map Prod.snd))
      else (l.find? fun e => e.1.same q).map Prod.snd := by
  induction l with
  | nil => cases h : p.same q <;> simp [alterEntries, h]
  | cons head rest ih =>
    obtain ⟨other, v⟩ := head
    rw [alterEntries]
    cases hp : other.same p with
    | true =>
      have here : other.same q = p.same q := Path.same_congr hp (Path.same_refl q)
      cases hq : p.same q <;> simp [hp, here, hq]
    | false =>
      rw [if_neg Bool.false_ne_true]
      cases hq : other.same q with
      | true =>
        have apart : p.same q = false := by
          refine Bool.eq_false_iff.mpr fun same => ?_
          rw [Path.same_trans hq (Path.same_symm same)] at hp
          cases hp
        simp [hq, apart]
      | false =>
        rw [List.find?_cons_of_neg (by simp [hq]), ih, List.find?_cons_of_neg (by simp [hp]),
          List.find?_cons_of_neg (by simp [hq])]

/-- A change at one path is seen under every spelling of it, and nowhere else. -/
theorem get?_alter (m : PathMap β) (p q : Path) (f : Option β → β) :
    (m.alter p f).get? q = if p.same q then some (f (m.get? p)) else m.get? q :=
  find?_alterEntries p q f m.entries

end PathMap

end CodeAtlas
