import CodeAtlas.Health
import CodeAtlas.Proofs.BraceCount

/-!
# What the health of a function depends on

The flags of a function are read off its body, which is cut out of the whole file with a length that
was counted from the first brace and not from the declaration. The count is never larger than the
window, so the body is a beginning of the window (`Extent.body_ofLine_eq_take`), and neither the
extent nor the flags depend on any other line.

A file that grows at its end only adds lines to the window. A count that had come to a balance of
zero does not look at them, any other goes on.
-/
namespace CodeAtlas

namespace Extent

variable {depth : Int} {taken : Nat} {lines : List String}

/-! ## Longer windows -/

theorem le_closing (depth : Int) (taken : Nat) (lines : List String) :
    taken ≤ closing depth taken lines := by
  induction lines generalizing depth taken with
  | nil => exact le_rfl
  | cons line lines ih =>
    rw [closing]
    split
    · exact Nat.le_succ taken
    · exact Nat.le_of_succ_le (ih (depth + balance line) (taken + 1))

theorem closing_le_closing_append (depth : Int) (taken : Nat) (lines more : List String) :
    closing depth taken lines ≤ closing depth taken (lines ++ more) := by
  induction lines generalizing depth taken with
  | nil => exact le_closing depth taken more
  | cons line lines ih =>
    rw [List.cons_append, closing, closing]
    split
    · exact le_rfl
    · exact ih (depth + balance line) (taken + 1)

/-- A count that ends with a balance of zero does not look further. -/
theorem closing_append_of_stops {k : Nat} (h : Stops depth taken lines k) (more : List String) :
    closing depth taken (lines ++ more) = closing depth taken lines := by
  induction lines generalizing depth taken k with
  | nil => exact absurd h (not_stops_nil k)
  | cons line lines ih =>
    rw [List.cons_append, closing, closing]
    split
    next => rfl
    next onward =>
      obtain ⟨j, rfl⟩ := h.exists_eq_succ
      rcases stops_cons_succ.mp h with here | later
      · exact absurd here.2 onward
      · exact ih later

theorem count_le_count_append (window more : List String) :
    count window ≤ count (window ++ more) := by
  unfold count
  rw [List.dropWhile_append]
  split
  next closed =>
    rw [List.isEmpty_iff.mp closed, closing]
    exact Nat.zero_le _
  next => exact closing_le_closing_append 0 0 _ more

theorem count_append_of_stops {window : List String} {k : Nat}
    (h : Stops 0 0 (window.dropWhile fun line => !opens line) k) (more : List String) :
    count (window ++ more) = count window := by
  unfold count
  rw [List.dropWhile_append, if_neg]
  · exact closing_append_of_stops h more
  · intro closed
    rw [List.isEmpty_iff.mp closed] at h
    exact not_stops_nil k h

theorem window_append (lines extra : List String) (line : Nat) :
    ∃ more, window (lines ++ extra) line = window lines line ++ more := by
  unfold window
  rw [List.take_append, List.drop_append]
  exact ⟨_, rfl⟩

/-! ## The body lies in the window -/

theorem window_congr {other : List String} {line : Nat}
    (agree : ∀ i, line - 1 ≤ i → i < line + 500 → lines[i]? = other[i]?) :
    window lines line = window other line := by
  apply List.ext_getElem?
  intro i
  rw [window, window, List.getElem?_drop, List.getElem?_drop,
    List.getElem?_take, List.getElem?_take]
  split
  next inside => exact agree (line - 1 + i) (Nat.le_add_right _ _) inside
  next => rfl

theorem body_ofLine_eq_take (lines : List String) (line : Nat) :
    (ofLine lines line).body lines = (window lines line).take (count (window lines line)) := by
  have short : count (window lines line) ≤ line + 500 - (line - 1) := by
    have le := count_le (window lines line)
    rw [length_window] at le
    omega
  rw [body_ofLine]
  change (lines.drop (line - 1)).take (count (window lines line)) = _
  generalize count (window lines line) = n at short ⊢
  rw [window, reach, List.drop_take, List.take_take, Nat.min_eq_left short]

/-- Lines that open a brace and come back to a balance of zero are counted alike when more lines
follow. -/
theorem OpensFirst.count_append {line s k : Nat}
    (h : OpensFirst lines (line - 1) (min (line + 500) lines.length) s)
    (closes : Closes lines (min (line + 500) lines.length) s k) (more : List String) :
    count (window lines line ++ more) = count (window lines line) := by
  apply count_append_of_stops (k := k)
  rw [window_eq, h.dropWhile_eq]
  exact (stops_drop_iff (Nat.min_le_right _ _)).mpr closes

end Extent

namespace HealthRules

open Extent

/-- The flags are read off the window. -/
theorem check_eq (rules : HealthRules) (lines : List String) (line : Nat) :
    rules.check lines line =
      rules.flags (count (window lines line))
        ("\n".intercalate ((window lines line).take (count (window lines line)))) := by
  rw [check, body_ofLine_eq_take]
  rfl

/-- Files that agree from the declaration of a function to the end of its window give it the same
extent and the same flags, whatever the rules. Lines added at the end of a file never make an extent
shorter, and change neither the extent nor the flags of a function whose braces come to a balance of
zero. -/
theorem check_local_and_stable (line : Nat) :
    (∀ lines other : List String, (∀ i, line - 1 ≤ i → i < line + 500 → lines[i]? = other[i]?) →
      ofLine lines line = ofLine other line ∧
      ∀ rules : HealthRules, rules.check lines line = rules.check other line) ∧
    ∀ lines extra : List String,
      (ofLine lines line).length ≤ (ofLine (lines ++ extra) line).length ∧
      ∀ s k, OpensFirst lines (line - 1) (min (line + 500) lines.length) s →
        Closes lines (min (line + 500) lines.length) s k →
        ofLine (lines ++ extra) line = ofLine lines line ∧
        ∀ rules : HealthRules, rules.check (lines ++ extra) line = rules.check lines line := by
  constructor
  · intro lines other agree
    have same := window_congr agree
    refine ⟨by rw [ofLine, ofLine, same], ?_⟩
    intro rules
    rw [check_eq, check_eq, same]
  · intro lines extra
    obtain ⟨more, longer⟩ := window_append lines extra line
    constructor
    · change count (window lines line) ≤ count (window (lines ++ extra) line)
      rw [longer]
      exact count_le_count_append _ more
    · intro s k opened closes
      have same := opened.count_append closes more
      refine ⟨by rw [ofLine, ofLine, longer, same], ?_⟩
      intro rules
      rw [check_eq, check_eq, longer, same, List.take_append_of_le_length (count_le _)]

/-- The first line may change and lines may follow. -/
theorem check_local_and_stable_around_function :
    let lines := ["", "function f(a)", "\x7b", "\x7d"]
    let other := ["// console.log", "function f(a)", "\x7b", "\x7d"]
    (∀ i, 1 ≤ i → i < 502 → lines[i]? = other[i]?) ∧ OpensFirst lines 1 4 2 ∧ Closes lines 4 2 2 ∧
      ∀ rules : HealthRules, rules.check lines 2 = rules.check other 2 ∧
        rules.check (lines ++ ["console.log(a);"]) 2 = rules.check lines 2 := by
  intro lines other
  have agree : ∀ i, 1 ≤ i → i < 502 → lines[i]? = other[i]? := by
    intro i le lt
    cases i with
    | zero => omega
    | succ i => rfl
  have opened : OpensFirst lines 1 4 2 := by
    refine ⟨by decide, by decide, ⟨"\x7b", rfl, by decide⟩, ?_⟩
    intro i line le lt at_i
    obtain rfl : i = 1 := by omega
    cases at_i
    decide
  have closes : Closes lines 4 2 2 := ⟨by decide, by decide, by decide⟩
  refine ⟨agree, opened, closes, ?_⟩
  intro rules
  have spec := check_local_and_stable 2
  exact ⟨(spec.1 lines other agree).2 rules, ((spec.2 lines _).2 2 2 opened closes).2 rules⟩

end HealthRules

end CodeAtlas
