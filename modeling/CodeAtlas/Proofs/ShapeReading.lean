import CodeAtlas.Shape

/-!
# What shapes take from a text

The pieces of a shape are read one after the other, each from where the one before it ended. Pieces
occur in a text wherever they can be read behind some beginning of it. Word characters and white
space exclude each other, so that a word behind white space starts at a word boundary.
-/
namespace CodeAtlas

namespace Text

/-- The code points of white space. -/
def spaceCodes : List Nat :=
  List.range' 9 5 ++ [0x20, 0x85, 0xA0, 0x1680] ++ List.range' 0x2000 11 ++
    [0x2028, 0x2029, 0x202F, 0x205F, 0x3000]

theorem mem_spaceCodes {c : Char} (h : isSpace c = true) : c.toNat ∈ spaceCodes := by
  simp only [isSpace, Bool.or_eq_true, Bool.and_eq_true, decide_eq_true_eq, beq_iff_eq] at h
  simp only [spaceCodes, List.mem_append, List.mem_range'_1, List.mem_cons,
    List.not_mem_nil, or_false]
  grind

theorem isWord_of_isSpace {c : Char} (h : isSpace c = true) : isWord c = false := by
  have all : ∀ n ∈ spaceCodes, isWord (Char.ofNat n) = false := by decide +kernel
  have code := all c.toNat (mem_spaceCodes h)
  rwa [Char.ofNat_toNat] at code

theorem isBoundary_of_word {before : Option Char} {c : Char} {cs : List Char}
    (apart : before.any isWord = false) (word : isWord c = true) :
    isBoundary before (c :: cs).head? = true := by
  simp [isBoundary, apart, word]

end Text

namespace Piece

variable {before : Option Char} {cs taken rest : List Char}

theorem run_append (p : Char → Bool) (cs : List Char) : (run p cs).1 ++ (run p cs).2 = cs :=
  List.takeWhile_append_dropWhile

theorem readAll?_cons {piece : Piece} {pieces : List Piece}
    (h : readAll? (piece :: pieces) before cs = some (taken, rest)) :
    ∃ first middle more, piece.read? before cs = some (first, middle) ∧
      readAll? pieces (first.getLast?.or before) middle = some (more, rest) ∧
      taken = first ++ more := by
  simp only [readAll?, Option.bind_eq_bind] at h
  obtain ⟨⟨first, middle⟩, hfirst, h⟩ := Option.bind_eq_some_iff.mp h
  obtain ⟨⟨more, last⟩, hmore, h⟩ := Option.bind_eq_some_iff.mp h
  cases h
  exact ⟨first, middle, more, hfirst, hmore, rfl⟩

/-- Pieces that can be read behind a beginning of a text occur in it. -/
theorem occur_of_append {pieces : List Piece} {lead : List Char}
    (h : (readAll? pieces (lead.getLast?.or before) rest).isSome = true) :
    occur pieces before (lead ++ rest) = true := by
  induction lead generalizing before with
  | nil =>
    cases rest with
    | nil => exact h
    | cons c cs => exact Bool.or_eq_true_iff.mpr (.inl h)
  | cons c lead ih =>
    rw [List.cons_append, occur, Bool.or_eq_true]
    refine .inr (ih ?_)
    cases lead with
    | nil => exact h
    | cons d lead => simpa [List.getLast?_cons] using h

end Piece

end CodeAtlas
