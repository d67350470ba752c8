import CodeAtlas.Proofs.BraceCount
import Mathlib.Algebra.Order.Ring.Int

/-!
# Extents in words

Where line numbers are words of sixty-four bits, the end of a window can wrap around and come before
its start. No lines are this far on, so the window is empty, as it is without a bound, and an extent
in words is the extent. Its length was counted in the window and fits behind its start, so that the
sum of the two does not wrap where it matters and the body is cut out between bounds in order.

The same holds if the balance and the length are words as well. A balance may wrap only if more
braces were counted than a word can hold; even then the length stays in the window, and only what is
taken for the end may be wrong.
-/
namespace CodeAtlas.Extent

variable {lines : List String} {line : UInt64}

/-! ## The window -/

/-- The lines that are looked at where the end of the window wraps around. -/
def wordWindow (lines : List String) (line : UInt64) : List String :=
  (lines.take (min (line + UInt64.ofNat reach).toNat lines.length)).drop (line.toNat - 1)

theorem ofWord_eq (lines : List String) (line : UInt64) :
    ofWord lines line = ⟨line.toNat - 1, count (wordWindow lines line)⟩ := by
  have start : (if line = 0 then 0 else line - 1).toNat = line.toNat - 1 := by
    split
    next zero => rw [zero]; rfl
    next pos =>
      refine UInt64.toNat_sub_of_le line 1 ?_
      rw [UInt64.le_iff_toNat_le]
      have ne : line.toNat ≠ 0 := fun zero => pos (UInt64.toNat_inj.mp zero)
      change 1 ≤ line.toNat
      omega
  unfold ofWord wordWindow
  dsimp only
  rw [start]

theorem toNat_add_reach (line : UInt64) : (line + UInt64.ofNat reach).toNat =
    (line.toNat + 500) % 2 ^ 64 :=
  UInt64.toNat_add line 500

theorem wordWindow_eq_nil (few : lines.length < 2 ^ 63) (wraps : 2 ^ 64 ≤ line.toNat + 500) :
    wordWindow lines line = [] := by
  apply List.drop_eq_nil_of_le
  have le := List.length_take_le' (min (line + UInt64.ofNat reach).toNat lines.length) lines
  omega

theorem wordWindow_eq_window (few : lines.length < 2 ^ 63) :
    wordWindow lines line = window lines line.toNat := by
  by_cases wraps : 2 ^ 64 ≤ line.toNat + 500
  · rw [wordWindow_eq_nil few wraps, window, eq_comm]
    apply List.drop_eq_nil_of_le
    have le := List.length_take_le' (line.toNat + reach) lines
    omega
  · rw [wordWindow, toNat_add_reach, Nat.mod_eq_of_lt (by omega), window_eq]

theorem length_wordWindow_le (lines : List String) (line : UInt64) :
    (wordWindow lines line).length ≤ lines.length - (line.toNat - 1) := by
  rw [wordWindow, List.length_drop, List.length_take]
  omega

theorem ofWord_eq_ofLine (few : lines.length < 2 ^ 63) :
    ofWord lines line = ofLine lines line.toNat := by
  rw [ofWord_eq, wordWindow_eq_window few, ofLine]

/-! ## Counting -/

/-- The number of lines up to the one that closes what was opened, where the balance is a word with
a sign and the number a word without. -/
def closingWord (depth : Int64) (taken : UInt64) : List String → UInt64
  | [] => taken
  | line :: rest =>
    let depth := depth + (Int64.ofNat (line.toList.count '{') - Int64.ofNat (line.toList.count '}'))
    if depth = 0 ∧ 1 < taken + 1 then taken + 1 else closingWord depth (taken + 1) rest

def countWord (window : List String) : UInt64 :=
  closingWord 0 0 (window.dropWhile fun line => !opens line)

/-- An extent where everything is counted in words. -/
def ofWordCounted (lines : List String) (line : UInt64) : Extent :=
  ⟨line.toNat - 1, (countWord (wordWindow lines line)).toNat⟩

theorem toNat_add_one (taken : UInt64) (fits : taken.toNat + 1 < 2 ^ 64) :
    (taken + 1).toNat = taken.toNat + 1 := by
  rw [UInt64.toNat_add, UInt64.toNat_one, Nat.mod_eq_of_lt fits]

/-- However the balance wraps, no more lines are counted than there are. -/
theorem toNat_closingWord_le (lines : List String) (depth : Int64) (taken : UInt64)
    (fits : taken.toNat + lines.length < 2 ^ 64) :
    (closingWord depth taken lines).toNat ≤ taken.toNat + lines.length := by
  induction lines generalizing depth taken with
  | nil => simp [closingWord]
  | cons line lines ih =>
    rw [List.length_cons] at fits ⊢
    have next := toNat_add_one taken (by omega)
    rw [closingWord]
    split
    · omega
    · have le := ih
          (depth + (Int64.ofNat (line.toList.count '{') - Int64.ofNat (line.toList.count '}')))
            (taken + 1)
        (by omega)
      omega

theorem toInt_add_balance (depth : Int64) (line : String)
    (low : -2 ^ 63 ≤ depth.toInt + balance line) (high : depth.toInt + balance line < 2 ^ 63) :
    (depth + (Int64.ofNat (line.toList.count '{') - Int64.ofNat (line.toList.count '}'))).toInt =
      depth.toInt + balance line := by
  have word : depth + (Int64.ofNat (line.toList.count '{') - Int64.ofNat (line.toList.count '}')) =
      Int64.ofInt (depth.toInt + balance line) := by
    rw [balance, Int64.ofInt_add, Int64.ofInt_sub, Int64.ofInt_toInt, Int64.ofInt_eq_ofNat,
      Int64.ofInt_eq_ofNat]
  rw [word, Int64.toInt_ofInt_of_le low high]

/-- As long as the braces can be counted, the balance never wraps, and the count in words is the
count. -/
theorem toNat_closingWord (depth : Int64) (taken : UInt64)
    (fits : taken.toNat + lines.length < 2 ^ 64) (high : depth.toInt + braces '{' lines < 2 ^ 63)
    (low : -2 ^ 63 ≤ depth.toInt - braces '}' lines) :
    (closingWord depth taken lines).toNat = closing depth.toInt taken.toNat lines := by
  induction lines generalizing depth taken with
  | nil => rfl
  | cons line lines ih =>
    rw [List.length_cons] at fits
    rw [braces_cons] at high low
    have difference :
      balance line = (line.toList.count '{' : Int) - (line.toList.count '}' : Int) := rfl
    have next := toNat_add_one taken (by omega)
    have after := toInt_add_balance depth line (by omega) (by omega)
    rw [closingWord, closing]
    have test : depth + (Int64.ofNat (line.toList.count '{') - Int64.ofNat
        (line.toList.count '}')) = 0 ∧
        1 < taken + 1 ↔ depth.toInt + balance line = 0 ∧ 0 < taken.toNat := by
      rw [← Int64.toInt_inj, after, Int64.toInt_zero, UInt64.lt_iff_toNat_lt, next,
        UInt64.toNat_one]
      omega
    by_cases ends : depth.toInt + balance line = 0 ∧ 0 < taken.toNat
    · rw [if_pos (test.mpr ends), if_pos ends, next]
    · rw [if_neg (mt test.mp ends), if_neg ends, ih _ _ (by omega) (by omega) (by omega), after,
        next]

theorem braces_dropWhile_le (brace : Char) (p : String → Bool) (lines : List String) :
    braces brace (lines.dropWhile p) ≤ braces brace lines := by
  have split := List.takeWhile_append_dropWhile (p := p) (l := lines)
  have sum : braces brace lines = braces brace (lines.takeWhile p) + braces brace
      (lines.dropWhile p) := by
    rw [braces, braces, braces, ← List.count_append, ← List.flatMap_append, split]
  omega

theorem ofWordCounted_eq_ofLine (few : lines.length < 2 ^ 63)
    (opened : braces '{' (window lines line.toNat) < 2 ^ 63)
    (closed : braces '}' (window lines line.toNat) < 2 ^ 63) :
    ofWordCounted lines line = ofLine lines line.toNat := by
  rw [ofWordCounted, wordWindow_eq_window few, countWord, ofLine, count]
  have opened' := braces_dropWhile_le '{' (fun line => !opens line) (window lines line.toNat)
  have closed' := braces_dropWhile_le '}' (fun line => !opens line) (window lines line.toNat)
  have shorter :=
    (List.dropWhile_suffix (l := window lines line.toNat) fun line => !opens line).length_le
  have length := length_window lines line.toNat
  rw [toNat_closingWord 0 0 (by rw [UInt64.toNat_zero]; omega) (by rw [Int64.toInt_zero]; omega)
    (by rw [Int64.toInt_zero]; omega), Int64.toInt_zero, UInt64.toNat_zero]

/-! ## The body -/

/-- The first and the last bound of the body, each clipped to the number of lines, where their sum
wraps around. -/
def wordBounds (e : Extent) (lines : List String) : Nat × Nat :=
  (min e.start lines.length, min (UInt64.ofNat e.start + UInt64.ofNat e.length).toNat lines.length)

/-- The lines between two bounds, if these are in order and there are so many lines. -/
def slice? (lines : List String) (bounds : Nat × Nat) : Option (List String) :=
  if bounds.1 ≤ bounds.2 ∧ bounds.2 ≤ lines.length then some ((lines.take bounds.2).drop bounds.1)
    else none

/-- Nothing is counted, or the lines counted fit behind the start. -/
def Inside (e : Extent) (lines : List String) : Prop :=
  e.start + e.length ≤ lines.length ∨ e.length = 0

theorem Inside.wordBounds_eq {e : Extent} (few : lines.length < 2 ^ 63) (word : e.start < 2 ^ 64)
    (h : e.Inside lines) :
    e.wordBounds lines = (min e.start lines.length, min (e.start + e.length) lines.length) := by
  have sum : (UInt64.ofNat e.start + UInt64.ofNat e.length).toNat = e.start + e.length := by
    rw [← UInt64.ofNat_add, UInt64.toNat_ofNat']
    apply Nat.mod_eq_of_lt
    rcases h with fits | none
    · omega
    · omega
  rw [wordBounds, sum]

theorem Inside.slice?_eq {e : Extent} (few : lines.length < 2 ^ 63) (word : e.start < 2 ^ 64)
    (h : e.Inside lines) :
    (e.wordBounds lines).1 ≤ (e.wordBounds lines).2 ∧ (e.wordBounds lines).2 ≤ lines.length ∧
      slice? lines (e.wordBounds lines) = some (e.body lines) := by
  rw [h.wordBounds_eq few word]
  have ordered : min e.start lines.length ≤ min (e.start + e.length) lines.length := by omega
  refine ⟨ordered, Nat.min_le_right _ _, ?_⟩
  rw [slice?, if_pos ⟨ordered, Nat.min_le_right _ _⟩, body, ← List.take_eq_take_min,
    Option.some.injEq]
  rcases Nat.le_total e.start lines.length with le | past
  · rw [Nat.min_eq_left le]
  · have nothing : ∀ k, (lines.take k).length ≤ lines.length :=
      fun k => List.length_take_le' k lines
    rw [Nat.min_eq_right past, List.drop_eq_nil_of_le (nothing _),
      List.drop_eq_nil_of_le (Nat.le_trans (nothing _) past)]

theorem inside_of_le {k : Nat} (le : k ≤ (wordWindow lines line).length) :
    Inside ⟨line.toNat - 1, k⟩ lines := by
  have behind := length_wordWindow_le lines line
  unfold Inside
  dsimp only
  omega

theorem toNat_countWord_le (few : lines.length < 2 ^ 63) :
    (countWord (wordWindow lines line)).toNat ≤ (wordWindow lines line).length := by
  have shorter :=
    (List.dropWhile_suffix (l := wordWindow lines line) fun line => !opens line).length_le
  have behind := length_wordWindow_le lines line
  have le := toNat_closingWord_le ((wordWindow lines line).dropWhile fun line => !opens line) 0 0
    (by rw [UInt64.toNat_zero]; omega)
  rw [UInt64.toNat_zero, Nat.zero_add] at le
  exact Nat.le_trans le shorter

/-- With fewer than `2 ^ 63` lines, an extent in words is the extent without a bound. It has length
zero where the end of the window wraps around. Counting in words gives it too, unless the window
holds more braces than a word can count. In any case nothing is counted or the lines counted fit
behind the start, so that the body is cut out of the lines between bounds in order. -/
theorem ofWord_safe (lines : List String) (line : UInt64) (few : lines.length < 2 ^ 63) :
    ofWord lines line = ofLine lines line.toNat ∧
    (2 ^ 64 ≤ line.toNat + 500 → (ofWord lines line).length = 0) ∧
    (braces '{' (window lines line.toNat) < 2 ^ 63 → braces '}' (window lines line.toNat) < 2 ^ 63 →
      ofWordCounted lines line = ofLine lines line.toNat) ∧
    ∀ e, e = ofWord lines line ∨ e = ofWordCounted lines line →
      (e.start + e.length ≤ lines.length ∨ e.length = 0) ∧
      (e.wordBounds lines).1 ≤ (e.wordBounds lines).2 ∧ (e.wordBounds lines).2 ≤ lines.length ∧
      slice? lines (e.wordBounds lines) = some (e.body lines) := by
  refine ⟨ofWord_eq_ofLine few, ?_, ofWordCounted_eq_ofLine few, ?_⟩
  · intro wraps
    rw [ofWord_eq, wordWindow_eq_nil few wraps]
    rfl
  · intro e found
    have counted : ∃ k, e = ⟨line.toNat - 1, k⟩ ∧ k ≤ (wordWindow lines line).length := by
      rcases found with rfl | rfl
      · exact ⟨_, ofWord_eq lines line, count_le _⟩
      · exact ⟨_, rfl, toNat_countWord_le few⟩
    obtain ⟨k, rfl, le⟩ := counted
    have word : line.toNat - 1 < 2 ^ 64 := Nat.lt_of_le_of_lt (Nat.sub_le _ _) line.toNat_lt
    exact ⟨inside_of_le le, (inside_of_le le).slice?_eq few word⟩

/-- The last line number there is: the end of its window is line 499, far before its start. -/
theorem ofWord_safe_at_last_line :
    let lines := ["function f() \x7b", "\x7d"]
    let line : UInt64 := 18446744073709551615
    2 ^ 64 ≤ line.toNat + 500 ∧ ofWord lines line = ofLine lines 18446744073709551615 ∧
      (ofWord lines line).start = 18446744073709551614 ∧ (ofWord lines line).length = 0 ∧
      ofWordCounted lines line = ofLine lines 18446744073709551615 ∧
      slice? lines ((ofWord lines line).wordBounds lines) = some [] := by
  intro lines line
  obtain ⟨same, wrapped, counted, cut⟩ := ofWord_safe lines line (by decide)
  have wraps : 2 ^ 64 ≤ line.toNat + 500 := by decide
  have beyond : window lines line.toNat = [] := by decide
  have body : (ofWord lines line).body lines = [] := by decide
  refine ⟨wraps, same, by decide, wrapped wraps, counted ?_ ?_, body ▸ (cut _ (.inl rfl)).2.2.2⟩
  · rw [beyond]
    decide
  · rw [beyond]
    decide

end CodeAtlas.Extent
