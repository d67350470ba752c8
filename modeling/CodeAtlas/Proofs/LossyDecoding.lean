import CodeAtlas.Path
import Mathlib.Data.List.Forall2

/-!
# Bytes shown as a text

A character takes one to four bytes, and which bytes may follow each other is a short table of
bounds. The table leaves out what a lenient reader lets pass: a character in more bytes than it
needs, half of a surrogate pair, a number above the last character, a sequence that is cut off. The
encodings of characters are exactly the sequences of the table.

Bytes are shown as a text by putting a replacement where no character is encoded. A text that was
encoded is shown as it is. A byte below 128 is always a character of its own, so bytes are shown
part by part between such bytes, and these stay where they are.
-/
namespace CodeAtlas.Text

/-! ## Sequences of bytes -/

/-- The bytes of one character. -/
def IsSequence (bytes : List UInt8) : Prop :=
  ∃ row ∈ sequences, List.Forall₂ Within row bytes

instance (bytes : List UInt8) : Decidable (IsSequence bytes) :=
  inferInstanceAs (Decidable (∃ row ∈ sequences, List.Forall₂ Within row bytes))

section

variable {a b c d : UInt8}

theorem isSequence_one_iff : IsSequence [a] ↔ a.toNat ≤ 0x7F := by
  simp [IsSequence, sequences, Within]

theorem isSequence_two_iff : IsSequence [a, b] ↔ Within (0xC2, 0xDF) a ∧ Within (0x80, 0xBF) b := by
  simp [IsSequence, sequences]

/-- The second byte keeps the number above those of two bytes, and off the surrogates. -/
theorem isSequence_three_iff : IsSequence [a, b, c] ↔
    (Within (0xE0, 0xEF) a ∧ Within (0x80, 0xBF) b ∧ Within (0x80, 0xBF) c) ∧
      (a.toNat = 0xE0 → 0xA0 ≤ b.toNat) ∧ (a.toNat = 0xED → b.toNat ≤ 0x9F) := by
  simp only [IsSequence, sequences, Within, List.mem_cons, List.not_mem_nil, or_false,
    exists_eq_or_imp, ↓existsAndEq, List.forall₂_cons, List.forall₂_nil_left_iff,
    List.forall₂_nil_right_iff, List.cons_ne_self, reduceCtorEq, and_false,
    and_true, false_or, or_self]
  omega

/-- The second byte keeps the number above those of three bytes, and within the characters. -/
theorem isSequence_four_iff : IsSequence [a, b, c, d] ↔
    (Within (0xF0, 0xF4) a ∧ Within (0x80, 0xBF) b ∧ Within (0x80, 0xBF) c ∧
      Within (0x80, 0xBF) d) ∧
      (a.toNat = 0xF0 → 0x90 ≤ b.toNat) ∧ (a.toNat = 0xF4 → b.toNat ≤ 0x8F) := by
  simp only [IsSequence, sequences, Within, List.mem_cons, List.not_mem_nil, or_false,
    exists_eq_or_imp, ↓existsAndEq, List.forall₂_cons, List.forall₂_nil_left_iff,
    List.forall₂_nil_right_iff, List.cons_ne_self, reduceCtorEq, and_false,
    and_true, false_or, true_and]
  omega

end

-- a slash and a character of three bytes with a byte too many, a surrogate, a number too high, a
-- character cut off
example : ∀ bytes ∈ [[0xC0, 0xAF], [0xF0, 0x8F, 0xBF, 0xBF], [0xED, 0xA0, 0x80],
    [0xF4, 0x90, 0x80, 0x80], [0xF0, 0x9F, 0x98]], ¬ IsSequence bytes := by
  decide

/-! ## Encodings -/

theorem exists_char (n : Nat) (scalar : n < 0xD800 ∨ 0xDFFF < n ∧ n < 0x110000) : ∃ char : Char,
    char.val.toNat = n :=
  ⟨Char.ofNatAux n scalar, UInt32.toNat_ofNatLT⟩

theorem ofNat_eq_of_toNat (byte : UInt8) {n : Nat} (h : n = byte.toNat) : UInt8.ofNat n = byte := by
  rw [h, UInt8.ofNat_toNat]

/-- A sequence of the table is the encoding of the character whose digits to the base 64 it
gives. -/
theorem exists_utf8EncodeChar_eq {bytes : List UInt8} (h : IsSequence bytes) :
    ∃ char, String.utf8EncodeChar char = bytes := by
  unfold String.utf8EncodeChar
  dsimp only
  match bytes with
  | [] => simp [IsSequence, sequences] at h
  | [a] =>
    rw [isSequence_one_iff] at h
    obtain ⟨char, value⟩ := exists_char a.toNat (by omega)
    refine ⟨char, ?_⟩
    rw [value, if_pos h, UInt8.ofNat_toNat]
  | [a, b] =>
    rw [isSequence_two_iff] at h
    unfold Within at h
    obtain ⟨char, value⟩ := exists_char ((a.toNat - 0xC0) * 64 + (b.toNat - 0x80)) (by omega)
    refine ⟨char, ?_⟩
    rw [value, if_neg (by omega), if_pos (by omega), ofNat_eq_of_toNat a (by omega),
      ofNat_eq_of_toNat b (by omega)]
  | [a, b, c] =>
    rw [isSequence_three_iff] at h
    unfold Within at h
    obtain ⟨char, value⟩ := exists_char
      ((a.toNat - 0xE0) * 4096 + (b.toNat - 0x80) * 64 + (c.toNat - 0x80)) (by omega)
    refine ⟨char, ?_⟩
    rw [value, if_neg (by omega), if_neg (by omega), if_pos (by omega),
      ofNat_eq_of_toNat a (by omega), ofNat_eq_of_toNat b (by omega),
      ofNat_eq_of_toNat c (by omega)]
  | [a, b, c, d] =>
    rw [isSequence_four_iff] at h
    unfold Within at h
    obtain ⟨char, value⟩ := exists_char
      ((a.toNat - 0xF0) * 262144 + (b.toNat - 0x80) * 4096 + (c.toNat - 0x80) * 64 +
        (d.toNat - 0x80)) (by omega)
    refine ⟨char, ?_⟩
    rw [value, if_neg (by omega), if_neg (by omega), if_neg (by omega),
      ofNat_eq_of_toNat a (by omega), ofNat_eq_of_toNat b (by omega),
      ofNat_eq_of_toNat c (by omega), ofNat_eq_of_toNat d (by omega)]
  | _ :: _ :: _ :: _ :: _ :: _ => simp [IsSequence, sequences] at h

theorem isSequence_utf8EncodeChar (char : Char) : IsSequence (String.utf8EncodeChar char) := by
  have scalar : char.val.toNat < 0xD800 ∨ 0xDFFF < char.val.toNat ∧ char.val.toNat < 0x110000 :=
    char.valid
  unfold String.utf8EncodeChar
  generalize char.val.toNat = n at scalar ⊢
  dsimp only
  split
  · rw [isSequence_one_iff, UInt8.toNat_ofNat']
    omega
  split
  · rw [isSequence_two_iff]
    simp only [Within, UInt8.toNat_ofNat']
    omega
  split
  · rw [isSequence_three_iff]
    simp only [Within, UInt8.toNat_ofNat']
    omega
  · rw [isSequence_four_iff]
    simp only [Within, UInt8.toNat_ofNat']
    omega

/-! ## Encoded texts -/

theorem encode_eq_flatMap (text : String) :
    encode text = text.toList.flatMap String.utf8EncodeChar := by
  obtain ⟨chars, rfl⟩ : ∃ chars, text = String.ofList chars :=
    ⟨text.toList, String.ofList_toList.symm⟩
  rw [String.toList_ofList, encode]
  exact congrArg Array.toList List.data_toByteArray

theorem encode_injective {a b : String} (h : encode a = encode b) : a = b := by
  apply String.toByteArray_inj.mp
  apply ByteArray.ext
  exact Array.toList_inj.mp h

/-- Bytes begin with the character whose encoding stands in front of them. -/
theorem firstChar?_eq_some_iff {bytes : List UInt8} {c : Char} :
    firstChar? bytes = some c ↔ String.utf8EncodeChar c <+: bytes := by
  constructor
  · intro h
    have there : ((bytes.take 4).toByteArray.utf8DecodeChar? 0).isSome = true :=
      Option.isSome_of_eq_some h
    have same : (bytes.take 4).toByteArray.utf8DecodeChar 0 there = c := by
      simp only [ByteArray.utf8DecodeChar]
      exact Option.get_of_eq_some there h
    have part := ByteArray.utf8EncodeChar_utf8DecodeChar (b := (bytes.take 4).toByteArray)
      (i := 0) (h := there)
    rw [same] at part
    have listed := congrArg (fun b => b.data.toList) part
    simp only [List.data_toByteArray, ByteArray.data_extract, Array.toList_extract,
      List.extract_eq_take_drop] at listed
    rw [listed]
    exact (List.take_prefix _ _).trans (List.take_prefix _ _)
  · rintro ⟨rest, rfl⟩
    have short : (String.utf8EncodeChar c).length ≤ 4 := by
      rw [String.length_utf8EncodeChar]
      exact c.utf8Size_le_four
    rw [firstChar?, List.take_append, List.take_of_length_le short, List.toByteArray_append,
      ← List.utf8Encode_singleton, List.utf8DecodeChar?_utf8Encode_singleton_append]

theorem lossyFrom_eq_drop (skip : Nat) (bytes : List UInt8) :
    lossyFrom skip bytes = lossyFrom 0 (bytes.drop skip) := by
  induction skip generalizing bytes with
  | zero => rfl
  | succ skip ih =>
    cases bytes with
    | nil => rfl
    | cons byte bytes => rw [lossyFrom, ih, List.drop_succ_cons]

theorem lossyFrom_append_char (c : Char) (rest : List UInt8) :
    lossyFrom 0 (String.utf8EncodeChar c ++ rest) = c :: lossyFrom 0 rest := by
  have first := firstChar?_eq_some_iff.mpr (List.prefix_append (String.utf8EncodeChar c) rest)
  have size := String.length_utf8EncodeChar c
  have pos := c.utf8Size_pos
  cases spelled : String.utf8EncodeChar c with
  | nil =>
    rw [spelled, List.length_nil] at size
    omega
  | cons byte bytes =>
    rw [spelled] at first size
    rw [List.cons_append] at first ⊢
    rw [List.length_cons] at size
    rw [lossyFrom, first]
    dsimp only
    rw [lossyFrom_eq_drop, ← size, Nat.add_sub_cancel, List.drop_left]

/-- A text that was encoded is shown as it is. -/
@[simp] theorem lossy_encode (text : String) : lossy (encode text) = text := by
  have shown : ∀ chars, lossyFrom 0 (chars.flatMap String.utf8EncodeChar) = chars := by
    intro chars
    induction chars with
    | nil => rfl
    | cons c chars ih => rw [List.flatMap_cons, lossyFrom_append_char, ih]
  rw [lossy, encode_eq_flatMap, shown, String.ofList_toList]

/-- The bytes of the text that bytes are shown as. -/
def repaired (bytes : List UInt8) : List UInt8 :=
  encode (lossy bytes)

@[simp] theorem lossy_repaired (bytes : List UInt8) : lossy (repaired bytes) = lossy bytes :=
  lossy_encode _

theorem repaired_eq_nil_iff {bytes : List UInt8} : repaired bytes = [] ↔ bytes = [] := by
  constructor
  · intro h
    have empty : lossyFrom 0 bytes = [] :=
      String.toList_ofList.symm.trans (congrArg String.toList (encode_injective (b := "") h))
    cases bytes with
    | nil => rfl
    | cons byte bytes =>
      rw [lossyFrom] at empty
      split at empty <;> cases empty
  · rintro rfl
    rfl

/-! ## Parts between single bytes

A byte below 128 stands alone. -/

/-- No byte of a character but the first can stand alone. -/
theorem le_of_mem_tail_utf8EncodeChar {c : Char} {byte : UInt8}
    (h : byte ∈ (String.utf8EncodeChar c).tail) :
    0x80 ≤ byte.toNat := by
  have continued : ∀ n : Nat, 0x80 ≤ (UInt8.ofNat (n % 64 + 128)).toNat := by
    intro n
    rw [UInt8.toNat_ofNat']
    omega
  unfold String.utf8EncodeChar at h
  dsimp only at h
  split at h
  · cases h
  split at h
  · rw [List.tail_cons, List.mem_singleton] at h
    exact h ▸ continued _
  split at h
  · simp only [List.tail_cons, List.mem_cons, List.not_mem_nil, or_false] at h
    rcases h with rfl | rfl <;> exact continued _
  · simp only [List.tail_cons, List.mem_cons, List.not_mem_nil, or_false] at h
    rcases h with rfl | rfl | rfl <;> exact continued _

theorem le_of_mem_tail_sequences : ∀ row ∈ sequences, ∀ bounds ∈ row.tail, 0x80 ≤ bounds.1 := by
  decide

theorem fitting_le (row : List (Nat × Nat)) (bytes : List UInt8) :
    fitting row bytes ≤ bytes.length := by
  fun_induction fitting row bytes with
  | case1 bounds row byte bytes within ih => exact Nat.succ_le_succ ih
  | case2 => exact Nat.zero_le _
  | case3 => exact Nat.zero_le _

theorem brokenLength_pos (bytes : List UInt8) : 0 < brokenLength bytes :=
  Nat.le_max_left _ _

theorem brokenLength_le {bytes : List UInt8} (filled : bytes ≠ []) :
    brokenLength bytes ≤ bytes.length := by
  have fold : ∀ (rows : List (List (Nat × Nat))) (n : Nat), n ≤ bytes.length →
      (rows.map fun row => fitting row bytes).foldl max n ≤ bytes.length := by
    intro rows
    induction rows with
    | nil => exact fun n le => le
    | cons row rows ih => exact fun n le => ih _ (Nat.max_le.mpr ⟨le, fitting_le row bytes⟩)
  exact Nat.max_le.mpr ⟨List.length_pos_iff.mpr filled, fold sequences 0 (Nat.zero_le _)⟩

theorem subset_of_mem_lossyFrom {skip : Nat} {bytes : List UInt8} {c : Char}
    (h : c ∈ lossyFrom skip bytes) :
    c = Char.ofNat 0xFFFD ∨ String.utf8EncodeChar c ⊆ bytes := by
  fun_induction lossyFrom skip bytes with
  | case1 => cases h
  | case2 skip byte bytes ih => exact (ih h).imp_right (List.subset_cons_of_subset byte)
  | case3 byte bytes first found ih =>
    rcases List.mem_cons.mp h with rfl | h
    · exact .inr (firstChar?_eq_some_iff.mp found).subset
    · exact (ih h).imp_right (List.subset_cons_of_subset byte)
  | case4 byte bytes found ih =>
    rcases List.mem_cons.mp h with rfl | h
    · exact .inl rfl
    · exact (ih h).imp_right (List.subset_cons_of_subset byte)

section

variable {a : UInt8} (alone : a.toNat < 0x80)
include alone

theorem utf8EncodeChar_of_alone : String.utf8EncodeChar (Char.ofNat a.toNat) = [a] := by
  have value : (Char.ofNat a.toNat).val.toNat = a.toNat := by
    rw [Char.ofNat, dif_pos (.inl (by omega))]
    exact UInt32.toNat_ofNatLT
  unfold String.utf8EncodeChar
  dsimp only
  rw [value, if_pos (by omega), UInt8.ofNat_toNat]

theorem firstChar?_append_alone {front : List UInt8} (filled : front ≠ []) (back : List UInt8) :
    firstChar? (front ++ a :: back) = firstChar? front := by
  ext c
  rw [firstChar?_eq_some_iff, firstChar?_eq_some_iff]
  refine ⟨?_, fun h => h.trans (List.prefix_append _ _)⟩
  rintro ⟨rest, spelled⟩
  rcases List.append_eq_append_iff.mp spelled with ⟨more, within, -⟩ | ⟨more, beyond, follows⟩
  · exact ⟨more, within.symm⟩
  · cases more with
    | nil => exact ⟨[], by rw [beyond, List.append_nil, List.append_nil]⟩
    | cons b more =>
      rw [List.cons_append, List.cons.injEq] at follows
      have high : 0x80 ≤ a.toNat := by
        apply le_of_mem_tail_utf8EncodeChar (c := c)
        rw [beyond, List.tail_append_of_ne_nil filled, follows.1]
        exact List.mem_append_right _ List.mem_cons_self
      omega

theorem fitting_append_alone {row : List (Nat × Nat)} (high : ∀ bounds ∈ row, 0x80 ≤ bounds.1)
    (front back : List UInt8) : fitting row (front ++ a :: back) = fitting row front := by
  induction row generalizing front with
  | nil => cases front <;> rfl
  | cons bounds row ih =>
    cases front with
    | nil =>
      have outside : ¬ Within bounds a := by
        intro within
        have := Nat.le_trans (high bounds List.mem_cons_self) within.1
        omega
      rw [List.nil_append, fitting, if_neg outside]
      rfl
    | cons byte front =>
      rw [List.cons_append, fitting, fitting, ih fun b hb => high b (List.mem_cons_of_mem _ hb)]

theorem brokenLength_append_alone {front : List UInt8} (filled : front ≠ []) (back : List UInt8) :
    brokenLength (front ++ a :: back) = brokenLength front := by
  have rows : ∀ row ∈ sequences, fitting row (front ++ a :: back) = fitting row front := by
    intro row listed
    cases front with
    | nil => exact absurd rfl filled
    | cons byte front =>
      cases row with
      | nil => rfl
      | cons bounds row =>
        have others := fitting_append_alone alone (le_of_mem_tail_sequences _ listed) front back
        rw [List.tail_cons] at others
        rw [List.cons_append, fitting, fitting, others]
  rw [brokenLength, List.map_congr_left rows, brokenLength]

/-- A byte that stands alone is shown, and the bytes before and after it are shown as they are
without it. -/
theorem lossyFrom_append_alone (front back : List UInt8) :
    lossyFrom 0 (front ++ a :: back) = lossyFrom 0 front ++ Char.ofNat a.toNat ::
      lossyFrom 0 back := by
  -- Each round takes at least one byte of the front and none behind it.
  induction size : front.length using Nat.strongRecOn generalizing front with
  | ind n ih =>
    cases front with
    | nil =>
      have shown := lossyFrom_append_char (Char.ofNat a.toNat) back
      rw [utf8EncodeChar_of_alone alone] at shown
      exact shown
    | cons byte front =>
      rw [List.length_cons] at size
      have goOn : ∀ k, 0 < k → k ≤ (byte :: front).length → lossyFrom (k - 1) (front ++ a :: back) =
          lossyFrom (k - 1) front ++ Char.ofNat a.toNat :: lossyFrom 0 back := by
        intro k pos le
        rw [List.length_cons] at le
        rw [lossyFrom_eq_drop, lossyFrom_eq_drop (k - 1) front,
          List.drop_append_of_le_length (by omega),
          ih (front.drop (k - 1)).length (by rw [List.length_drop]; omega) _ rfl]
      have first := firstChar?_append_alone alone (List.cons_ne_nil byte front) back
      have broken := brokenLength_append_alone alone (List.cons_ne_nil byte front) back
      rw [List.cons_append] at first broken ⊢
      rw [lossyFrom, lossyFrom, first, broken]
      cases found : firstChar? (byte :: front) with
      | some c =>
        have fits := (firstChar?_eq_some_iff.mp found).length_le
        rw [String.length_utf8EncodeChar] at fits
        dsimp only
        rw [goOn _ c.utf8Size_pos fits, List.cons_append]
      | none =>
        dsimp only
        rw [goOn _ (brokenLength_pos _) (brokenLength_le (List.cons_ne_nil _ _)), List.cons_append]

theorem repaired_append_alone (front back : List UInt8) :
    repaired (front ++ a :: back) = repaired front ++ a :: repaired back := by
  simp only [repaired, encode_eq_flatMap, lossy, String.toList_ofList]
  rw [lossyFrom_append_alone alone, List.flatMap_append, List.flatMap_cons,
    utf8EncodeChar_of_alone alone, List.singleton_append]

theorem repaired_cons_alone (back : List UInt8) : repaired (a :: back) = a :: repaired back :=
  repaired_append_alone alone [] back

theorem eq_of_alone_mem {c : Char} (h : a ∈ String.utf8EncodeChar c) : c = Char.ofNat a.toNat := by
  cases spelled : String.utf8EncodeChar c with
  | nil =>
    rw [spelled] at h
    cases h
  | cons first others =>
    have later : a ∉ others := by
      intro mem
      have high :=
        le_of_mem_tail_utf8EncodeChar
          (by rw [spelled]; exact mem : a ∈ (String.utf8EncodeChar c).tail)
      omega
    rw [spelled, List.mem_cons, or_iff_left later] at h
    subst h
    have mine := firstChar?_eq_some_iff.mpr (List.prefix_refl (String.utf8EncodeChar c))
    have its : firstChar? (String.utf8EncodeChar c) = some (Char.ofNat a.toNat) := by
      rw [firstChar?_eq_some_iff, utf8EncodeChar_of_alone alone, spelled]
      exact List.prefix_append [a] others
    exact Option.some.inj (mine.symm.trans its)

theorem mem_encode_iff {text : String} : a ∈ encode text ↔ Char.ofNat a.toNat ∈ text.toList := by
  rw [encode_eq_flatMap, List.mem_flatMap]
  constructor
  · rintro ⟨c, mem, h⟩
    exact eq_of_alone_mem alone h ▸ mem
  · intro mem
    refine ⟨_, mem, ?_⟩
    rw [utf8EncodeChar_of_alone alone]
    exact List.mem_cons_self

/-- A byte that stands alone is shown, and nothing else looks like it. -/
theorem mem_repaired_iff {bytes : List UInt8} : a ∈ repaired bytes ↔ a ∈ bytes := by
  constructor
  · intro h
    rw [repaired, encode_eq_flatMap, lossy, String.toList_ofList, List.mem_flatMap] at h
    obtain ⟨c, mem, inside⟩ := h
    rcases subset_of_mem_lossyFrom mem with rfl | spelled
    · have replacement : ∀ byte ∈ String.utf8EncodeChar (Char.ofNat 0xFFFD), 0x80 ≤ byte.toNat := by
        decide +kernel
      have high := replacement a inside
      omega
    · exact spelled inside
  · intro h
    obtain ⟨front, back, rfl⟩ := List.append_of_mem h
    rw [repaired_append_alone alone]
    exact List.mem_append_right _ List.mem_cons_self

theorem exists_of_repaired_eq_cons {bytes rest : List UInt8} (h : repaired bytes = a :: rest) :
    ∃ back, bytes = a :: back ∧ repaired back = rest := by
  have mem : a ∈ bytes := by
    rw [← mem_repaired_iff alone, h]
    exact List.mem_cons_self
  obtain ⟨front, back, rfl, first⟩ := List.eq_append_cons_of_mem mem
  rw [repaired_append_alone alone] at h
  rw [← mem_repaired_iff alone] at first
  cases shown : repaired front with
  | nil =>
    rw [shown, List.nil_append, List.cons.injEq] at h
    exact ⟨back, by rw [repaired_eq_nil_iff.mp shown, List.nil_append], h.2⟩
  | cons b others =>
    rw [shown, List.cons_append, List.cons.injEq] at h
    rw [shown, h.1] at first
    exact absurd List.mem_cons_self first

end

/-- Bytes that are shown as bytes which stand alone are these. -/
theorem repaired_eq_iff_of_alone {bytes shown : List UInt8} (alone : ∀ a ∈ shown, a.toNat < 0x80) :
    repaired bytes = shown ↔ bytes = shown := by
  induction shown generalizing bytes with
  | nil => exact repaired_eq_nil_iff
  | cons a shown ih =>
    obtain ⟨this, others⟩ := List.forall_mem_cons.mp alone
    constructor
    · intro h
      obtain ⟨back, rfl, rest⟩ := exists_of_repaired_eq_cons this h
      rw [(ih others).mp rest]
    · rintro rfl
      rw [repaired_cons_alone this, (ih others).mpr rfl]

/-! ## Texts among the bytes -/

/-- Bytes that are the encoding of a text. -/
def IsText (bytes : List UInt8) : Prop :=
  repaired bytes = bytes

instance (bytes : List UInt8) : Decidable (IsText bytes) :=
  inferInstanceAs (Decidable (repaired bytes = bytes))

end CodeAtlas.Text

namespace CodeAtlas.Path

@[simp] theorem text_ofText (text : String) : (ofText text).text = text :=
  Text.lossy_encode text

/-- A path that is a text can be found from how it is shown. -/
theorem ofText_text {p : Path} (h : Text.IsText p.bytes) : ofText p.text = p :=
  congrArg Path.mk h

end CodeAtlas.Path
