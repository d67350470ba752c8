import CodeAtlas.Extent
import Mathlib.Data.List.TakeWhile
import Mathlib.Data.Nat.Find
import Mathlib.Order.Bounds.Basic

/-!
# What counting braces measures

The count runs line by line with a balance that may go below zero and come back.
`Extent.closing_cases` says where it ends, for any balance to start with: after the least number of
lines that bring it to zero, not counting the very first line, or with the last line. Said of a
file, the length of an extent is the least number of lines, two at least, that hold as many closing
braces as opening ones, beginning with the first line of the window that opens one.

The length never leaves the window, so that the body, which begins at the start of the window and
not at the first brace, has all its lines.
-/
namespace CodeAtlas.Extent

/-! ## Balance -/

/-- How often a brace stands in some lines. -/
def braces (brace : Char) (lines : List String) : Nat :=
  (lines.flatMap String.toList).count brace

/-- The lines hold as many opening braces as closing ones. -/
def Balanced (lines : List String) : Prop :=
  braces '{' lines = braces '}' lines

instance (lines : List String) : Decidable (Balanced lines) :=
  inferInstanceAs (Decidable (braces '{' lines = braces '}' lines))

theorem braces_nil (brace : Char) : braces brace [] = 0 := rfl

theorem braces_cons (brace : Char) (line : String) (lines : List String) :
    braces brace (line :: lines) = line.toList.count brace + braces brace lines := by
  rw [braces, List.flatMap_cons, List.count_append, braces]

/-! ## Where the count ends -/

/-- The count may end after `k` more lines, where `taken` lines with balance `depth` came before:
the balance is zero, and they are not one line only. -/
structure Stops (depth : Int) (taken : Nat) (lines : List String) (k : Nat) : Prop where
  pos : 0 < k
  le_length : k ≤ lines.length
  two_le : 2 ≤ taken + k
  balance_eq : depth + braces '{' (lines.take k) - braces '}' (lines.take k) = 0

variable {depth : Int} {taken k : Nat} {line : String} {lines : List String}

theorem not_stops_nil (k : Nat) : ¬ Stops depth taken [] k := by
  intro h
  have pos := h.pos
  have le := h.le_length
  rw [List.length_nil] at le
  omega

theorem Stops.exists_eq_succ (h : Stops depth taken lines k) : ∃ j, k = j + 1 :=
  Nat.exists_eq_add_one.mpr h.pos

theorem stops_cons_succ : Stops depth taken (line :: lines) (k + 1) ↔
    (k = 0 ∧ depth + balance line = 0 ∧ 0 < taken) ∨
    Stops (depth + balance line) (taken + 1) lines k := by
  have first : balance line = (line.toList.count '{' : Int) - (line.toList.count '}' : Int) := rfl
  constructor
  · intro h
    have even := h.balance_eq
    have le := h.le_length
    have two := h.two_le
    rw [List.take_succ_cons, braces_cons, braces_cons] at even
    rw [List.length_cons] at le
    cases k with
    | zero =>
      rw [List.take_zero, braces_nil, braces_nil] at even
      exact .inl ⟨rfl, by omega, by omega⟩
    | succ k => exact .inr ⟨by omega, by omega, by omega, by omega⟩
  · intro h
    rcases h with h | h
    · obtain ⟨rfl, even, pos⟩ := h
      refine ⟨by omega, by simp, by omega, ?_⟩
      rw [List.take_succ_cons, List.take_zero, braces_cons, braces_cons, braces_nil, braces_nil]
      omega
    · have pos := h.pos
      have le := h.le_length
      have even := h.balance_eq
      refine ⟨by omega, by rw [List.length_cons]; omega, by omega, ?_⟩
      rw [List.take_succ_cons, braces_cons, braces_cons]
      omega

/-- The count ends at the first place where it may, or with the last line. -/
theorem closing_cases (depth : Int) (taken : Nat) (lines : List String) :
    (∃ k, IsLeast {k | Stops depth taken lines k} k ∧ closing depth taken lines = taken + k) ∨
      (∀ k, ¬ Stops depth taken lines k) ∧ closing depth taken lines = taken + lines.length := by
  induction lines generalizing depth taken with
  | nil => exact .inr ⟨not_stops_nil, rfl⟩
  | cons line lines ih =>
    rw [closing]
    by_cases here : depth + balance line = 0 ∧ 0 < taken
    · rw [if_pos here]
      refine .inl ⟨1, ⟨stops_cons_succ.mpr (.inl ⟨rfl, here⟩), ?_⟩, rfl⟩
      intro j h
      exact h.pos
    · rw [if_neg here]
      -- the first line does not end the count, so the places are those of the other lines, one
      -- further on
      have shift : ∀ j, Stops depth taken (line :: lines) (j + 1) ↔
          Stops (depth + balance line) (taken + 1) lines j := by
        intro j
        rw [stops_cons_succ, or_iff_right]
        intro h
        exact here h.2
      rcases ih (depth + balance line) (taken + 1) with ⟨k, least, value⟩ | ⟨never, value⟩
      · refine .inl ⟨k + 1, ⟨(shift k).mpr least.1, ?_⟩, by omega⟩
        intro j h
        obtain ⟨i, rfl⟩ := Stops.exists_eq_succ h
        exact Nat.succ_le_succ (least.2 ((shift i).mp h))
      · refine .inr ⟨?_, by rw [List.length_cons]; omega⟩
        intro j h
        obtain ⟨i, rfl⟩ := Stops.exists_eq_succ h
        exact never i ((shift i).mp h)

theorem closing_le (depth : Int) (taken : Nat) (lines : List String) :
    closing depth taken lines ≤ taken + lines.length := by
  rcases closing_cases depth taken lines with ⟨k, least, value⟩ | ⟨-, value⟩
  · have le := least.1.le_length
    omega
  · omega

theorem count_le (window : List String) : count window ≤ window.length := by
  have le := closing_le 0 0 (window.dropWhile fun line => !opens line)
  have dropped := (List.dropWhile_suffix (l := window) fun line => !opens line).length_le
  unfold count
  omega

/-! ## The window -/

/-- Of the lines from `first` up to `stop`, the line `s` is the first that opens a brace. -/
structure OpensFirst (lines : List String) (first stop s : Nat) : Prop where
  first_le : first ≤ s
  lt_stop : s < stop
  opens : ∃ line, lines[s]? = some line ∧ '{' ∈ line.toList
  before : ∀ i line, first ≤ i → i < s → lines[i]? = some line → '{' ∉ line.toList

/-- The `k` lines from `s` on, at least two, end before `stop` and hold as many opening braces as
closing ones. -/
structure Closes (lines : List String) (stop s k : Nat) : Prop where
  two_le : 2 ≤ k
  le_stop : s + k ≤ stop
  balanced : Balanced ((lines.drop s).take k)

theorem opens_eq_true_iff (line : String) : opens line = true ↔ '{' ∈ line.toList :=
  List.contains_iff_mem

variable {first stop s : Nat}

theorem mem_drop_take_iff : line ∈ (lines.take stop).drop first ↔
    ∃ i, first ≤ i ∧ i < stop ∧ lines[i]? = some line := by
  rw [List.mem_iff_getElem?]
  constructor
  · intro h
    obtain ⟨i, at_i⟩ := h
    rw [List.getElem?_drop, List.getElem?_take, Option.ite_none_right_eq_some] at at_i
    exact ⟨first + i, Nat.le_add_right first i, at_i⟩
  · intro h
    obtain ⟨i, le, lt, at_i⟩ := h
    refine ⟨i - first, ?_⟩
    rw [List.getElem?_drop, Nat.add_sub_cancel' le, List.getElem?_take_of_lt lt, at_i]

/-- Dropping the lines that open no brace leaves those from the first brace on. -/
theorem OpensFirst.dropWhile_eq (h : OpensFirst lines first stop s) :
    ((lines.take stop).drop first).dropWhile (fun line => !Extent.opens line) =
      (lines.take stop).drop s := by
  have split : (lines.take stop).drop first = (lines.take s).drop first ++
      (lines.take stop).drop s := by
    have rejoin := List.take_append_drop (s - first) ((lines.take stop).drop first)
    rw [List.take_drop, List.take_take, List.drop_drop, Nat.add_sub_cancel' h.first_le,
      Nat.min_eq_left h.lt_stop.le] at rejoin
    exact rejoin.symm
  have closed : ∀ line ∈ (lines.take s).drop first, (!Extent.opens line) = true := by
    intro line mem
    obtain ⟨i, le, lt, at_i⟩ := mem_drop_take_iff.mp mem
    rw [Bool.not_eq_true', ← Bool.not_eq_true, opens_eq_true_iff]
    exact h.before i line le lt at_i
  obtain ⟨line, there, opened⟩ := h.opens
  have shown : (lines.take stop)[s]? = some line := by
    rw [List.getElem?_take_of_lt h.lt_stop, there]
  obtain ⟨bound, value⟩ := List.getElem?_eq_some_iff.mp shown
  rw [split, List.dropWhile_append_of_pos closed, List.drop_eq_getElem_cons bound, value,
    List.dropWhile_cons_of_neg (by simpa [opens_eq_true_iff] using opened)]

/-- Where no line is the first to open a brace, none opens one. -/
theorem dropWhile_eq_nil (never : ¬ ∃ s, OpensFirst lines first stop s) :
    ((lines.take stop).drop first).dropWhile (fun line => !opens line) = [] := by
  classical
  rw [List.dropWhile_eq_nil_iff]
  intro line mem
  by_contra opened
  have opened : '{' ∈ line.toList := by simpa [opens_eq_true_iff] using opened
  obtain ⟨i, le, lt, at_i⟩ := mem_drop_take_iff.mp mem
  have some_opens : ∃ s, first ≤ s ∧ ∃ line, lines[s]? = some line ∧ '{' ∈ line.toList :=
    ⟨i, le, line, at_i, opened⟩
  have least : Nat.find some_opens ≤ i := Nat.find_min' some_opens ⟨le, line, at_i, opened⟩
  obtain ⟨first_le, opens⟩ := Nat.find_spec some_opens
  refine never ⟨Nat.find some_opens, first_le, by omega, opens, ?_⟩
  intro j other le before at_j mem_j
  exact Nat.find_min some_opens before ⟨le, other, at_j, mem_j⟩

theorem stops_drop_iff (le : stop ≤ lines.length) : Stops 0 0 ((lines.take stop).drop s) k ↔
    Closes lines stop s k := by
  have length_eq : ((lines.take stop).drop s).length = stop - s := by
    rw [List.length_drop, List.length_take, Nat.min_eq_left le]
  have inside : s + k ≤ stop → ((lines.take stop).drop s).take k = (lines.drop s).take k := by
    intro fits
    rw [List.take_drop, List.take_take, Nat.min_eq_left fits, List.take_drop]
  constructor
  · intro h
    have pos := h.pos
    have short := h.le_length
    have two := h.two_le
    have even := h.balance_eq
    have fits : s + k ≤ stop := by omega
    rw [inside fits] at even
    refine ⟨by omega, fits, ?_⟩
    unfold Balanced
    omega
  · intro h
    have two := h.two_le
    have fits := h.le_stop
    have even : braces '{' ((lines.drop s).take k) = braces '}' ((lines.drop s).take k) :=
      h.balanced
    refine ⟨by omega, by omega, by omega, ?_⟩
    rw [inside fits]
    omega

/-! ## The extent -/

theorem window_eq (lines : List String) (line : Nat) :
    window lines line = (lines.take (min (line + 500) lines.length)).drop (line - 1) := by
  rw [window, ← List.take_eq_take_min, reach]

theorem length_window (lines : List String) (line : Nat) :
    (window lines line).length = min (line + 500) lines.length - (line - 1) := by
  rw [window, List.length_drop, List.length_take, reach]

theorem length_ofLine_le (lines : List String) (line : Nat) :
    (ofLine lines line).length ≤ min (line + 500) lines.length - (line - 1) := by
  have le := count_le (window lines line)
  rwa [length_window] at le

theorem length_ofLine_eq_zero {lines : List String} {line : Nat}
    (never : ¬ ∃ s, OpensFirst lines (line - 1) (min (line + 500) lines.length) s) :
    (ofLine lines line).length = 0 := by
  change count (window lines line) = 0
  rw [window_eq, count, dropWhile_eq_nil never, closing]

/-- Whether the count of a window that opens a brace ends with a balance of zero, and where. -/
theorem OpensFirst.length_cases {lines : List String} {line s : Nat}
    (h : OpensFirst lines (line - 1) (min (line + 500) lines.length) s) :
    IsLeast {k | Closes lines (min (line + 500) lines.length) s k} (ofLine lines line).length ∨
      (¬ ∃ k, Closes lines (min (line + 500) lines.length) s k) ∧
        (ofLine lines line).length = min (line + 500) lines.length - s := by
  change IsLeast _ (count (window lines line)) ∨ _ ∧ count (window lines line) = _
  rw [window_eq, count, h.dropWhile_eq]
  have places : ∀ k, Stops 0 0 ((lines.take (min (line + 500) lines.length)).drop s) k ↔
      Closes lines (min (line + 500) lines.length) s k :=
        fun k => stops_drop_iff (Nat.min_le_right _ _)
  rcases closing_cases 0 0 ((lines.take (min (line + 500) lines.length)).drop s) with
    ⟨k, least, value⟩ | ⟨never, value⟩
  · refine .inl ?_
    rw [value, Nat.zero_add]
    simpa only [places] using least
  · refine .inr ⟨?_, ?_⟩
    · intro h
      obtain ⟨k, closes⟩ := h
      exact never k ((places k).mpr closes)
    · rw [value, List.length_drop, List.length_take]
      omega

theorem body_ofLine (lines : List String) (line : Nat) :
    (ofLine lines line).body lines = (lines.drop (line - 1)).take (ofLine lines line).length :=
  List.take_drop.symm

/-- The body has as many lines as were counted. -/
theorem length_body_ofLine (lines : List String) (line : Nat) :
    ((ofLine lines line).body lines).length = (ofLine lines line).length := by
  have le := length_ofLine_le lines line
  rw [body_ofLine, List.length_take, List.length_drop]
  omega

theorem OpensFirst.pos_length {lines : List String} {line s : Nat}
    (h : OpensFirst lines (line - 1) (min (line + 500) lines.length) s) :
    0 < (ofLine lines line).length := by
  rcases h.length_cases with least | ⟨-, value⟩
  · have two := least.1.two_le
    omega
  · have lt := h.lt_stop
    omega

/-- The body ends as many lines before the last one counted as the first brace is after the
declaration. -/
theorem OpensFirst.getLast?_body {lines : List String} {line s : Nat}
    (h : OpensFirst lines (line - 1) (min (line + 500) lines.length) s) :
    ((ofLine lines line).body lines).getLast? =
      lines[(s + (ofLine lines line).length - 1) - (s - (line - 1))]? := by
  have pos := h.pos_length
  have le := h.first_le
  have last : line - 1 + ((ofLine lines line).length - 1) =
      (s + (ofLine lines line).length - 1) - (s - (line - 1)) := by omega
  rw [List.getLast?_eq_getElem?, length_body_ofLine, body_ofLine,
    List.getElem?_take_of_lt (by omega), List.getElem?_drop, last]

/-- The extent of a function starts where it is declared. Its length is zero where no line of the
window opens a brace. Otherwise it is the least number of lines, two at least, that begin with the
first such line, lie in the window and hold as many opening braces as closing ones, or the number of
all lines from there to the end of the window if none do. The body is that many lines from the
declaration on, and so it ends before the last line counted by the distance from the declaration to
the first brace. -/
theorem ofLine_counts_braces (lines : List String) (line : Nat) :
    let extent := ofLine lines line
    let stop := min (line + 500) lines.length
    extent.start = line - 1 ∧
    ((¬ ∃ s, OpensFirst lines (line - 1) stop s) → extent.length = 0) ∧
    (∀ s, OpensFirst lines (line - 1) stop s →
      ((∃ k, Closes lines stop s k) → IsLeast {k | Closes lines stop s k} extent.length) ∧
      ((¬ ∃ k, Closes lines stop s k) → extent.length = stop - s) ∧
      (extent.body lines).getLast? = lines[(s + extent.length - 1) - (s - extent.start)]?) ∧
    extent.length ≤ 501 ∧
    extent.body lines = (lines.drop extent.start).take extent.length ∧
    (extent.body lines).length = extent.length := by
  refine ⟨rfl, length_ofLine_eq_zero, ?_, ?_, body_ofLine lines line, length_body_ofLine lines line⟩
  · intro s h
    refine ⟨?_, ?_, h.getLast?_body⟩
    · intro closes
      rcases h.length_cases with least | ⟨never, -⟩
      · exact least
      · exact absurd closes never
    · intro never
      rcases h.length_cases with least | ⟨-, value⟩
      · exact absurd ⟨_, least.1⟩ never
      · exact value
  · have le := length_ofLine_le lines line
    omega

/-- The brace opens and closes on one line, which ends nothing; the balance then falls below zero
and comes back. -/
theorem ofLine_counts_braces_below_zero :
    let lines := ["", "function f(a)", "\x7b \x7d", "\x7d", "\x7b", "g();"]
    OpensFirst lines 1 6 2 ∧ Closes lines 6 2 3 ∧ IsLeast {k | Closes lines 6 2 k} 3 ∧
      ((ofLine lines 2).body lines).getLast? = some "\x7d" := by
  intro lines
  have opens : OpensFirst lines 1 6 2 := by
    refine ⟨by decide, by decide, ⟨"\x7b \x7d", rfl, by decide⟩, ?_⟩
    intro i line le lt at_i
    obtain rfl : i = 1 := by omega
    cases at_i
    decide
  have closes : Closes lines 6 2 3 := ⟨by decide, by decide, by decide⟩
  have spec := (ofLine_counts_braces lines 2).2.2.1 2 opens
  exact ⟨opens, closes, spec.1 ⟨3, closes⟩, spec.2.2⟩

end CodeAtlas.Extent
