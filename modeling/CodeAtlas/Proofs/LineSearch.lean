import CodeAtlas.Text.Case
import CodeAtlas.Text.Search

/-!
# Searching lines that are joined

The lines of a function are searched as one text, joined by newlines. A piece without a newline
stands in that text exactly when it stands in one of the lines: one that reached over a join would
hold the newline there.

The same text is searched in lower case. Only the capital sigma looks around when it is mapped, and
it never looks past a newline, which is neither cased nor passed over. So lower case can be taken
line by line, and a piece of ASCII that is in lower case already is still there afterwards.
-/
namespace CodeAtlas.Text

/-- `piece` stands somewhere in `text`. -/
def Contains (text piece : String) : Prop :=
  piece.toList <:+: text.toList

/-! ## Pieces -/

theorem occursIn_eq_true_iff {piece cs : List Char} : occursIn piece cs = true ↔ piece <:+: cs := by
  induction cs with
  | nil => rw [occursIn, List.isEmpty_iff, List.infix_nil]
  | cons c cs ih =>
    rw [occursIn, Bool.or_eq_true, List.isPrefixOf_iff_prefix, ih, List.infix_cons_iff]

theorem holds_eq_true_iff {text piece : String} : holds text piece = true ↔ Contains text piece :=
  occursIn_eq_true_iff

/-- A piece without a newline does not reach over one. -/
theorem infix_newline_iff {piece first rest : List Char} (plain : '\n' ∉ piece) :
    piece <:+: first ++ '\n' :: rest ↔ piece <:+: first ∨ piece <:+: rest := by
  have here : ∀ {front : List Char}, '\n' ∉ front → front <+: '\n' :: rest → front = [] := by
    intro front avoids starts
    rcases List.prefix_cons_iff.mp starts with empty | ⟨more, rfl, -⟩
    · exact empty
    · exact absurd List.mem_cons_self avoids
  rw [List.infix_append_iff, List.infix_cons_iff]
  constructor
  · intro h
    -- a piece that starts at the newline, or reaches it from the left, ends there
    rcases h with inFirst | (starts | inRest) | ⟨left, right, rfl, ends, starts⟩
    · exact .inl inFirst
    · rw [here plain starts]
      exact .inl List.nil_infix
    · exact .inr inRest
    · rw [here (fun mem => plain (List.mem_append_right left mem)) starts, List.append_nil]
      exact .inl ends.isInfix
  · intro h
    rcases h with inFirst | inRest
    · exact .inl inFirst
    · exact .inr (.inl (.inr inRest))

theorem toList_intercalate_newline (line next : String) (lines : List String) :
    ("\n".intercalate (line :: next :: lines)).toList =
      line.toList ++ '\n' :: ("\n".intercalate (next :: lines)).toList := by
  rw [String.intercalate_cons_cons, String.toList_append, String.toList_append, List.append_assoc]
  rfl

theorem contains_intercalate {piece : String} (filled : piece ≠ "") (plain : '\n' ∉ piece.toList)
    (lines : List String) : Contains ("\n".intercalate lines) piece ↔ ∃ line ∈ lines,
      Contains line piece := by
  induction lines with
  | nil => simpa [Contains] using filled
  | cons line lines ih =>
    cases lines with
    | nil => simp
    | cons next lines =>
      rw [Contains, toList_intercalate_newline, infix_newline_iff plain]
      simp only [List.mem_cons, exists_eq_or_imp] at ih ⊢
      exact or_congr_right ih

/-! ## Lower case -/

/-- Lower case of a text behind `before`, nearest character first. -/
def lowered (before : List Char) : List Char → List Char
  | [] => []
  | c :: cs => lowerChar before cs c ++ lowered (c :: before) cs

theorem lowerFrom_eq (before written cs : List Char) :
    lowerFrom before written cs = written.reverse ++ lowered before cs := by
  induction cs generalizing before written with
  | nil => rw [lowerFrom, lowered, List.append_nil]
  | cons c cs ih =>
    rw [lowerFrom, ih, lowered, List.reverse_append, List.reverse_reverse, List.append_assoc]

theorem toList_lowerCase (s : String) : (lowerCase s).toList = lowered [] s.toList := by
  rw [lowerCase, String.toList_ofList, lowerFrom_eq, List.reverse_nil, List.nil_append]

/-- Nothing behind a newline bears on the case of what stands before it. -/
theorem meetsCased_newline (cs rest : List Char) :
    meetsCased (cs ++ '\n' :: rest) = meetsCased cs := by
  have stops : caseIgnorableSet.contains '\n' = false := by decide +kernel
  have uncased : casedSet.contains '\n' = false := by decide +kernel
  unfold meetsCased
  rw [List.dropWhile_append]
  split
  next passed =>
    rw [List.isEmpty_iff.mp passed, List.dropWhile_cons_of_neg (by simp [stops])]
    exact uncased
  next met =>
    cases left : cs.dropWhile caseIgnorableSet.contains with
    | nil => simp [left] at met
    | cons c left => rfl

theorem lowered_past_newline (near far cs : List Char) :
    lowered (near ++ '\n' :: far) cs = lowered near cs := by
  induction cs generalizing near with
  | nil => rfl
  | cons c cs ih =>
    have first : lowerChar (near ++ '\n' :: far) cs c = lowerChar near cs c := by
      rw [lowerChar, meetsCased_newline, lowerChar]
    rw [lowered, lowered, first, ← List.cons_append, ih]

theorem lowered_newline (before first rest : List Char) :
    lowered before (first ++ '\n' :: rest) = lowered before first ++ '\n' :: lowered [] rest := by
  induction first generalizing before with
  | nil => exact congrArg ('\n' :: ·) (lowered_past_newline [] before rest)
  | cons c first ih =>
    have head : lowerChar before (first ++ '\n' :: rest) c = lowerChar before first c := by
      rw [lowerChar, meetsCased_newline, lowerChar]
    rw [List.cons_append, lowered, lowered, head, ih, List.append_assoc]

/-- Lower case can be taken line by line. -/
theorem lowerCase_intercalate (lines : List String) :
    lowerCase ("\n".intercalate lines) = "\n".intercalate (lines.map lowerCase) := by
  induction lines with
  | nil => rfl
  | cons line lines ih =>
    cases lines with
    | nil => simp
    | cons next lines =>
      apply String.toList_inj.mp
      rw [toList_lowerCase, toList_intercalate_newline, lowered_newline, ← toList_lowerCase,
        ← toList_lowerCase, ih]
      exact (toList_intercalate_newline (lowerCase line) (lowerCase next)
        (lines.map lowerCase)).symm

/-! ### Text in lower case already -/

/-- A character of ASCII that is its own lower case. -/
def isLowerAscii (c : Char) : Bool :=
  c.toNat < 128 && c.toLower == c

theorem lowerChar_of_isLowerAscii {c : Char} (h : isLowerAscii c = true)
    (before after : List Char) :
    lowerChar before after c = [c] := by
  obtain ⟨small, own⟩ := Bool.and_eq_true_iff.mp h
  have small : c.toNat < 128 := of_decide_eq_true small
  have other : c ≠ 'Σ' := by
    intro same
    rw [same] at small
    exact absurd small (by decide)
  rw [lowerChar, if_neg other, if_pos small, eq_of_beq own]

theorem lowered_append_of_isLowerAscii {piece : List Char} (h : ∀ c ∈ piece, isLowerAscii c = true)
    (before rest : List Char) : lowered before (piece ++ rest) = piece ++
      lowered (piece.reverse ++ before) rest := by
  induction piece generalizing before with
  | nil => rfl
  | cons c piece ih =>
    rw [List.cons_append, lowered, lowerChar_of_isLowerAscii (h c List.mem_cons_self),
      ih fun d hd => h d (List.mem_cons_of_mem c hd), List.reverse_cons, List.append_assoc]
    rfl

theorem lowered_suffix (before front rest : List Char) :
    lowered (front.reverse ++ before) rest <:+ lowered before (front ++ rest) := by
  induction front generalizing before with
  | nil => exact List.suffix_rfl
  | cons c front ih =>
    rw [List.cons_append, lowered, List.reverse_cons, List.append_assoc]
    exact (ih (c :: before)).trans (List.suffix_append _ _)

/-- Text of ASCII in lower case is not changed, wherever it stands. -/
theorem contains_lowerCase {text piece : String} (plain : ∀ c ∈ piece.toList, isLowerAscii c = true)
    (h : Contains text piece) : Contains (lowerCase text) piece := by
  obtain ⟨front, rest, parts⟩ := h
  have ends := lowered_suffix [] front (piece.toList ++ rest)
  rw [lowered_append_of_isLowerAscii plain, ← List.append_assoc front, parts] at ends
  rw [Contains, toList_lowerCase]
  exact (List.prefix_append piece.toList _).isInfix.trans ends.isInfix

end CodeAtlas.Text
