import CodeAtlas.Proofs.PathComponents

/-!
# Paths found from how they are shown

A path is shown as a text, and a text spells a path, but not always the one that was shown: names
that are not texts come back repaired. Slashes and dots are not touched, so nothing else about the
path changes, and it comes back as it was exactly when it was a text.

What is shown of a path from a base, and joined to the base again, is the path with the names behind
the base repaired. A directory that is given by a text keeps its place, so the path still goes on
from there, by names that are shown alike.
-/
namespace CodeAtlas

/-- The component as it comes back from a text. -/
def Component.repaired : Component → Component
  | .name bytes => .name (Text.repaired bytes)
  | c => c

namespace Path

open Text

/-! ## Components -/

theorem slash_alone : slash.toNat < 0x80 := by
  decide

theorem dot_alone : dot.toNat < 0x80 := by
  decide

theorem pieces_repaired (body : Bytes) :
    pieces (Text.repaired body) = (pieces body).map Text.repaired := by
  -- the induction is on the number of bytes: what follows the first slash is shorter
  induction size : body.length using Nat.strongRecOn generalizing body with
  | ind n ih =>
    by_cases inside : slash ∈ body
    · obtain ⟨front, back, rfl, first⟩ := List.eq_append_cons_of_mem inside
      have shorter : back.length < n := by
        rw [← size, List.length_append, List.length_cons]
        omega
      rw [repaired_append_alone slash_alone, pieces_append_slash, pieces_append_slash,
        ih _ shorter back rfl, pieces_of_not_mem first,
        pieces_of_not_mem (mt (mem_repaired_iff slash_alone).mp first), List.map_append]
      rfl
    · rw [pieces_of_not_mem inside, pieces_of_not_mem (mt (mem_repaired_iff slash_alone).mp inside)]
      rfl

theorem repaired_eq_dot_iff {piece : Bytes} : Text.repaired piece = [dot] ↔ piece = [dot] :=
  repaired_eq_iff_of_alone (List.forall_mem_singleton.mpr (by decide))

theorem repaired_eq_dots_iff {piece : Bytes} :
    Text.repaired piece = [dot, dot] ↔ piece = [dot, dot] :=
  repaired_eq_iff_of_alone
    (List.forall_mem_cons.mpr ⟨by decide, List.forall_mem_singleton.mpr (by decide)⟩)

theorem pieceComponent?_repaired (piece : Bytes) :
    pieceComponent? (Text.repaired piece) = (pieceComponent? piece).map Component.repaired := by
  simp only [pieceComponent?, repaired_eq_nil_iff, repaired_eq_dot_iff, repaired_eq_dots_iff]
  split
  · rfl
  · split <;> rfl

theorem bodyComponents_repaired (body : Bytes) :
    bodyComponents (Text.repaired body) = (bodyComponents body).map Component.repaired := by
  rw [bodyComponents, pieces_repaired, List.filterMap_map, bodyComponents, List.map_filterMap]
  exact List.filterMap_congr fun piece _ => pieceComponent?_repaired piece

theorem atEnd_repaired {rest : Bytes} (h : atEnd rest = true) :
    atEnd (Text.repaired rest) = true := by
  rcases atEnd_iff.mp h with rfl | ⟨body, rfl⟩
  · rfl
  · rw [repaired_cons_alone slash_alone]
    rfl

theorem atEnd_of_repaired {rest : Bytes} (h : atEnd (Text.repaired rest) = true) :
    atEnd rest = true := by
  rcases atEnd_iff.mp h with h | ⟨body, h⟩
  · rw [repaired_eq_nil_iff.mp h]
    rfl
  · obtain ⟨back, rfl, -⟩ := exists_of_repaired_eq_cons slash_alone h
    rfl

theorem plain_repaired {cs : Bytes} (h : Plain cs) : Plain (Text.repaired cs) := by
  rcases spelling_cases (Text.repaired cs) with ⟨body, spelled⟩ | ⟨body, spelled, ends⟩ | plain
  · obtain ⟨back, rfl, -⟩ := exists_of_repaired_eq_cons slash_alone spelled
    exact absurd (.inl rfl) (plain_cons_iff.mp h)
  · obtain ⟨back, rfl, rfl⟩ := exists_of_repaired_eq_cons dot_alone spelled
    exact absurd (.inr ⟨rfl, atEnd_of_repaired ends⟩) (plain_cons_iff.mp h)
  · exact plain

theorem componentsOf_repaired (cs : Bytes) :
    componentsOf (Text.repaired cs) = (componentsOf cs).map Component.repaired := by
  rcases spelling_cases cs with ⟨body, rfl⟩ | ⟨body, rfl, ends⟩ | plain
  · rw [repaired_cons_alone slash_alone, componentsOf_slash, componentsOf_slash,
      bodyComponents_repaired]
    rfl
  · rw [repaired_cons_alone dot_alone, componentsOf_dot (atEnd_repaired ends),
      componentsOf_dot ends, bodyComponents_repaired]
    rfl
  · rw [componentsOf_of_plain plain, componentsOf_of_plain (plain_repaired plain),
      bodyComponents_repaired]

theorem components_ofText_text (p : Path) :
    (ofText p.text).components = p.components.map Component.repaired :=
  componentsOf_repaired p.bytes

theorem isAbsolute_ofText_text (p : Path) : (ofText p.text).isAbsolute = p.isAbsolute := by
  have root : ∀ c : Component, c.repaired = .root ↔ c = .root := by
    intro c
    cases c <;> simp [Component.repaired]
  rw [Bool.eq_iff_iff, isAbsolute_iff, isAbsolute_iff, components_ofText_text, List.head?_map]
  simp [root]

/-! ## Which paths come back -/

theorem intercalate_pieces (body : Bytes) : [slash].intercalate (pieces body) = body := by
  induction body with
  | nil => rfl
  | cons c body ih =>
    by_cases h : c = slash
    · rw [h, pieces_slash]
      obtain ⟨first, others, hpieces⟩ : ∃ first others, pieces body = first :: others := ⟨_, _, rfl⟩
      rw [hpieces] at ih ⊢
      rw [List.intercalate_cons_cons, ih]
      rfl
    · obtain ⟨first, others, hpieces, hcons⟩ := pieces_cons h body
      rw [hpieces] at ih
      rw [hcons, ← ih]
      cases others <;> simp [List.intercalate_cons_cons]

theorem bodyComponents_splitLead (cs : Bytes) :
    bodyComponents (splitLead cs).2 = bodyComponents cs := by
  rcases spelling_cases cs with ⟨body, rfl⟩ | ⟨body, rfl, ends⟩ | plain
  · simp [splitLead]
  · rw [splitLead_dot ends, bodyComponents_dot ends]
  · rw [plain]

/-- A path is a text if its names are. -/
theorem isText_of_components {p : Path} (h : ∀ c ∈ p.components, c.repaired = c) :
    IsText p.bytes := by
  have spelled : ∀ piece ∈ pieces p.bytes, Text.repaired piece = piece := by
    intro piece mem
    by_cases none : piece = [] ∨ piece = [dot]
    · rcases none with rfl | rfl
      · rfl
      · exact repaired_eq_dot_iff.mpr rfl
    by_cases up : piece = [dot, dot]
    · subst up
      exact repaired_eq_dots_iff.mpr rfl
    · have name : pieceComponent? piece = some (.name piece) := by
        rw [pieceComponent?, if_neg none, if_neg up]
      have listed : .name piece ∈ p.components := by
        rw [components_eq, componentsOf, bodyComponents_splitLead]
        exact List.mem_append_right _ (List.mem_filterMap.mpr ⟨piece, mem, name⟩)
      exact Component.name.inj (h _ listed)
  rw [IsText, ← intercalate_pieces (Text.repaired p.bytes), pieces_repaired,
    List.map_congr_left spelled, List.map_id', intercalate_pieces]

theorem components_of_isText {p : Path} (h : IsText p.bytes) :
    ∀ c ∈ p.components, c.repaired = c := by
  have same := components_ofText_text p
  rw [ofText_text h] at same
  exact List.map_inj_left.mp (same.symm.trans (List.map_id _).symm)

/-! ## From a base -/

section

variable {base p : Path} (h : base.components <+: p.components ∨ p.isAbsolute = true)
include h

/-- What is shown of a path from a base leads back to the path with what was shown repaired: all
that is behind the base, or all of it. -/
theorem exists_components_join_shown : ∃ k,
    (p.relativeTo base).components = p.components.drop k ∧
    (base.join (.ofText (p.relativeTo base).text)).components =
      p.components.take k ++ (p.components.drop k).map Component.repaired ∧
    (k = base.components.length ∨ ¬ base.components <+: p.components) := by
  by_cases below : base.components <+: p.components
  · refine ⟨base.components.length, components_relativeTo below, ?_, .inl rfl⟩
    by_cases filled : base.bytes = []
    · rw [join_of_empty filled, components_ofText_text, components_relativeTo below,
        components_eq_nil_iff.mpr filled]
      rfl
    · have relative := (isAbsolute_ofText_text _).trans (isAbsolute_relativeTo below filled)
      have spelled : (ofText (p.relativeTo base).text).bytes =
        Text.repaired (p.relativeTo base).bytes := rfl
      rw [components_join filled relative, spelled, bodyComponents_repaired,
        relativeTo_of_below below filled, bodyComponents_below filled,
        ← List.prefix_iff_eq_take.mp below]
  · refine ⟨0, ?_, ?_, .inr below⟩
    · rw [relativeTo_of_not_below below, List.drop_zero]
    · have absolute := (isAbsolute_ofText_text p).trans (h.resolve_left below)
      rw [relativeTo_of_not_below below, join, if_pos absolute, components_ofText_text]
      rfl

/-- It leads back to the path exactly when what is shown was a text. -/
theorem components_join_shown_iff :
    (base.join (.ofText (p.relativeTo base).text)).components = p.components ↔
      IsText (p.relativeTo base).bytes := by
  constructor
  · intro same
    obtain ⟨k, seen, found, -⟩ := exists_components_join_shown h
    have behind :=
      List.append_cancel_left ((found.symm.trans same).trans (List.take_append_drop k _).symm)
    apply isText_of_components
    rw [seen]
    exact List.map_inj_left.mp (behind.trans (List.map_id _).symm)
  · intro text
    rw [ofText_text text]
    exact components_join_relativeTo h

end

/-- Nothing in the place of a directory is repaired that is given by a text. -/
theorem repaired_of_mem_drop {root dir : Path} (text : IsText dir.bytes) {k : Nat}
    (h : k = root.components.length ∨ ¬ root.components <+: (root.join dir).components) :
    ∀ c ∈ (root.join dir).components.drop k, c.repaired = c := by
  intro c mem
  have whole : root.join dir = dir → c.repaired = c := by
    intro same
    rw [same] at mem
    exact components_of_isText text c (List.mem_of_mem_drop mem)
  cases absolute : dir.isAbsolute with
  | true => exact whole (if_pos absolute)
  | false =>
    by_cases filled : root.bytes = []
    · exact whole (join_of_empty filled)
    · rw [h.resolve_right (not_not.mpr (prefix_join_of_relative absolute)),
        components_join filled absolute, List.drop_left] at mem
      apply components_of_isText text
      rw [components_eq, componentsOf, bodyComponents_splitLead]
      exact List.mem_append_right _ mem

/-- So a path below such a directory is found below it again, by names that are shown alike. -/
theorem exists_extends_join_shown {root dir p : Path} {names : List Bytes} (text : IsText dir.bytes)
    (h : p.Extends (root.join dir) names) : ∃ names', names'.map lossy = names.map lossy ∧
      (root.join (.ofText (p.relativeTo root).text)).Extends (root.join dir) names' := by
  obtain ⟨k, -, found, place⟩ := exists_components_join_shown (below_or_isAbsolute_of_extends h)
  have place : k = root.components.length ∨ ¬ root.components <+: (root.join dir).components := by
    refine place.imp_right fun outside inside => outside (inside.trans ?_)
    rw [h]
    exact List.prefix_append _ _
  have kept : ((root.join dir).components.drop k).map Component.repaired =
      (root.join dir).components.drop k :=
    (List.map_inj_left.mpr (repaired_of_mem_drop text place)).trans (List.map_id _)
  obtain ⟨j, offset⟩ : ∃ j, k - (root.join dir).components.length = j := ⟨_, rfl⟩
  refine ⟨names.take j ++ (names.drop j).map Text.repaired, ?_, ?_⟩
  · have shown : (names.drop j).map (lossy ∘ Text.repaired) = (names.drop j).map lossy :=
      List.map_congr_left fun name _ => lossy_repaired name
    rw [List.map_append, List.map_map, shown, ← List.map_append, List.take_append_drop]
  · rw [Extends, found, h, List.take_append, List.drop_append, List.map_append,
      kept, List.append_assoc, List.map_append, offset, ← List.map_take, ← List.map_drop,
      List.map_map, List.map_map]
    rcases Nat.le_total k (root.join dir).components.length with inside | behind
    · have none : j = 0 := offset ▸ Nat.sub_eq_zero_of_le inside
      rw [none, List.take_zero, List.map_nil, List.nil_append, List.nil_append, ← List.append_assoc,
        List.take_append_drop]
      rfl
    · rw [List.take_of_length_le behind, List.drop_of_length_le behind, List.nil_append]
      rfl

end Path

end CodeAtlas
