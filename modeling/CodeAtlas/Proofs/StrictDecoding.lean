import CodeAtlas.Proofs.FileClasses
import CodeAtlas.Proofs.LossyDecoding
import Mathlib.Data.Set.List
import Mathlib.Order.Bounds.Basic

/-!
# Which bytes are a text, and where others go wrong

A character takes one to four bytes, and which bytes may follow each other is a short table of
bounds. The table leaves out what a lenient reader lets pass: a character in more bytes than it
needs, half of a surrogate pair, a number above the last character, a sequence that is cut off. The
encodings of characters are exactly the sequences of the table, so a text is any number of these in
a row, and nothing else is read.

Of other bytes the reader reports how many come before the first one that it cannot place. No longer
front of them is a text: characters are read one after the other without a choice, so a longer text
would begin with the characters already read and go on with one more.
-/
namespace CodeAtlas.Text

/-! ## Sequences of bytes -/

/-- Bytes that are sequences of the table, one after the other. -/
def WellFormed (bytes : ByteArray) : Prop :=
  ∃ parts : List (List UInt8), (∀ part ∈ parts, IsSequence part) ∧ bytes.data.toList = parts.flatten

theorem wellFormed_iff_isValidUTF8 (bytes : ByteArray) : WellFormed bytes ↔ bytes.IsValidUTF8 := by
  constructor
  · intro h
    obtain ⟨parts, table, spelled⟩ := h
    have encoded : parts ∈ Set.range (List.map String.utf8EncodeChar) := by
      rw [Set.range_list_map]
      intro part mem
      exact exists_utf8EncodeChar_eq (table part mem)
    obtain ⟨chars, rfl⟩ := encoded
    refine ⟨chars, ?_⟩
    apply ByteArray.ext
    apply Array.toList_inj.mp
    rw [spelled, List.utf8Encode, List.data_toByteArray, List.flatMap_def]
  · intro h
    obtain ⟨chars, rfl⟩ := h
    refine ⟨chars.map String.utf8EncodeChar, ?_, ?_⟩
    · intro part mem
      obtain ⟨char, -, rfl⟩ := List.mem_map.mp mem
      exact isSequence_utf8EncodeChar char
    · rw [List.utf8Encode, List.data_toByteArray, List.flatMap_def]

/-! ## The longest front that is a text -/

/-- What follows a text in a text is a text. -/
theorem isValidUTF8_of_append {front back : ByteArray} (first : front.IsValidUTF8)
    (whole : (front ++ back).IsValidUTF8) : back.IsValidUTF8 := by
  obtain ⟨chars, rfl⟩ := first
  induction chars with
  | nil => rwa [List.utf8Encode_nil, ByteArray.empty_append] at whole
  | cons char chars ih =>
    obtain ⟨others, spelled⟩ := whole
    rw [List.utf8Encode_cons, ByteArray.append_assoc] at spelled
    have decoded : others.utf8Encode.utf8DecodeChar? 0 = some char := by
      rw [← spelled, List.utf8DecodeChar?_utf8Encode_singleton_append]
    cases others with
    | nil => cases decoded
    | cons other others =>
      rw [List.utf8DecodeChar?_utf8Encode_cons] at decoded
      cases decoded
      rw [List.utf8Encode_cons (l := others), ByteArray.append_right_inj] at spelled
      exact ih ⟨others, spelled⟩

variable {bytes : ByteArray} {offset : Nat}

theorem isValidUTF8_extract_add {char : Char} (valid : (bytes.extract 0 offset).IsValidUTF8)
    (next : bytes.utf8DecodeChar? offset = some char) :
    (bytes.extract 0 (offset + char.utf8Size)).IsValidUTF8 := by
  have there : (bytes.utf8DecodeChar? offset).isSome = true := by rw [next]; rfl
  have same : bytes.utf8DecodeChar offset there = char := by simp [ByteArray.utf8DecodeChar, next]
  have part := ByteArray.utf8EncodeChar_utf8DecodeChar (b := bytes) (i := offset) (h := there)
  rw [same, ← List.utf8Encode_singleton] at part
  rw [ByteArray.extract_eq_extract_append_extract offset (Nat.zero_le _) (Nat.le_add_right _ _),
    ← part]
  exact valid.append ByteArray.isValidUTF8_utf8Encode

/-- Going on from the end of a text, character by character, ends behind a text where no character
begins. -/
theorem validUpTo_stops {steps : Nat} (valid : (bytes.extract 0 offset).IsValidUTF8)
    (le : offset ≤ bytes.size) (enough : bytes.size ≤ offset + steps) :
    validUpTo bytes steps offset ≤ bytes.size ∧
    (bytes.extract 0 (validUpTo bytes steps offset)).IsValidUTF8 ∧
      bytes.utf8DecodeChar? (validUpTo bytes steps offset) = none := by
  induction steps generalizing offset with
  | zero =>
    refine ⟨le, valid, ?_⟩
    rw [Option.eq_none_iff_forall_ne_some]
    intro char next
    have fits := ByteArray.le_size_of_utf8DecodeChar?_eq_some next
    have pos := char.utf8Size_pos
    change offset + char.utf8Size ≤ bytes.size at fits
    omega
  | succ steps ih =>
    rw [validUpTo]
    cases next : bytes.utf8DecodeChar? offset with
    | none => exact ⟨le, valid, next⟩
    | some char =>
      have pos := char.utf8Size_pos
      exact ih (isValidUTF8_extract_add valid next)
        (ByteArray.le_size_of_utf8DecodeChar?_eq_some next) (by omega)

/-- A text behind which no character begins is the longest one. -/
theorem le_of_isValidUTF8 {k : Nat} (valid : (bytes.extract 0 offset).IsValidUTF8)
    (stuck : bytes.utf8DecodeChar? offset = none) (le : k ≤ bytes.size)
    (longer : (bytes.extract 0 k).IsValidUTF8) : k ≤ offset := by
  by_contra behind
  have split : bytes.extract 0 k = bytes.extract 0 offset ++ bytes.extract offset k :=
    ByteArray.extract_eq_extract_append_extract offset (Nat.zero_le _) (by omega)
  rw [split] at longer
  obtain ⟨chars, spelled⟩ := isValidUTF8_of_append valid longer
  cases chars with
  | nil =>
    have none := ByteArray.extract_eq_empty_iff.mp (spelled.trans List.utf8Encode_nil)
    omega
  | cons char chars =>
    have next : (bytes.extract offset k).utf8DecodeChar? 0 = some char := by
      rw [spelled, List.utf8DecodeChar?_utf8Encode_cons]
    have rest : bytes.extract offset bytes.size = bytes.extract offset k ++
        bytes.extract k bytes.size :=
      ByteArray.extract_eq_extract_append_extract k (by omega) le
    rw [ByteArray.utf8DecodeChar?_eq_utf8DecodeChar?_extract, rest,
      ByteArray.utf8DecodeChar?_append_eq_some next]
      at stuck
    cases stuck

/-- The offset for bytes that are not a text: the length of the longest text in front. -/
theorem validUpTo_isGreatest (bytes : ByteArray) :
    IsGreatest {k | k ≤ bytes.size ∧ WellFormed (bytes.extract 0 k)}
      (validUpTo bytes bytes.size 0) := by
  simp only [wellFormed_iff_isValidUTF8]
  have start : (bytes.extract 0 0).IsValidUTF8 := by
    rw [ByteArray.extract_same]
    exact ByteArray.isValidUTF8_empty
  obtain ⟨le, valid, stuck⟩ := validUpTo_stops start (Nat.zero_le _) (Nat.le_add_left _ _)
  refine ⟨⟨le, valid⟩, ?_⟩
  intro k h
  exact le_of_isValidUTF8 valid stuck h.1 h.2

end CodeAtlas.Text

namespace CodeAtlas

open Text

theorem decodeSource_of_not_isValidUTF8 {bytes : ByteArray} (h : ¬ bytes.IsValidUTF8) :
    decodeSource bytes = .error (.decode (validUpTo bytes bytes.size 0)) := by
  unfold decodeSource Text.decode String.fromUTF8?
  simp only [h, dite_false, Except.mapError]

/-- Reading a file gives the text that is spelled by its bytes, or the length of the longest text in
front of them, and there are more bytes than that. It fails only if the bytes are not sequences of
the table in a row. -/
theorem readSource_strict (tree : FileTree) (path : Path) (bytes : ByteArray)
    (stored : tree.read path = .ok bytes) :
    ∃ result, (readSource path : StateM FileTree _).run tree = pure (result, tree) ∧
      ((∃ text, result = .ok text ∧ text.toUTF8 = bytes) ∨
        ∃ offset, result = .error (.decode offset) ∧ offset < bytes.size ∧
          IsGreatest {k | k ≤ bytes.size ∧ WellFormed (bytes.extract 0 k)} offset) ∧
      ((∃ error, result = .error error) ↔ ¬ WellFormed bytes) := by
  refine ⟨decodeSource bytes, ?_, ?_, ?_⟩
  · rw [FileTree.run_readSource, stored]
  · by_cases valid : bytes.IsValidUTF8
    · exact .inl ⟨.fromUTF8 bytes valid, decodeSource_eq_ok_iff.mpr rfl, rfl⟩
    · have greatest := validUpTo_isGreatest bytes
      refine .inr ⟨_, decodeSource_of_not_isValidUTF8 valid, ?_, greatest⟩
      apply Nat.lt_of_le_of_ne greatest.1.1
      intro all
      have whole := greatest.1.2
      rw [all, ByteArray.extract_zero_size, wellFormed_iff_isValidUTF8] at whole
      exact valid whole
  · rw [decodeSource_eq_error_iff, wellFormed_iff_isValidUTF8]

/-- Half of a surrogate pair behind two characters: the front of three bytes is a text. -/
theorem readSource_strict_of_surrogate :
    let bytes : ByteArray := ⟨#[0xC3, 0xA9, 0x61, 0xED, 0xA0, 0x80, 0x7A]⟩
    let tree := (FileTree.empty ["work"]).create (.ofText "a.gs") (.file bytes)
    tree.read (.ofText "a.gs") = .ok bytes ∧ ¬ WellFormed bytes ∧
      (readSource (.ofText "a.gs") : StateM FileTree _).run tree = pure (.error (.decode 3), tree) ∧
      IsGreatest {k | k ≤ bytes.size ∧ WellFormed (bytes.extract 0 k)} 3 := by
  intro bytes tree
  have stored : tree.read (.ofText "a.gs") = .ok bytes := rfl
  have answer : decodeSource bytes = .error (.decode 3) := by decide +kernel
  obtain ⟨result, runs, outcome, fails⟩ := readSource_strict tree (.ofText "a.gs") bytes stored
  have decoded : result = .error (.decode 3) := by
    rw [FileTree.run_readSource, stored] at runs
    exact (congrArg Prod.fst runs).symm.trans answer
  refine ⟨stored, fails.mp ⟨_, decoded⟩, decoded ▸ runs, ?_⟩
  rcases outcome with ⟨text, read, -⟩ | ⟨offset, read, -, greatest⟩
  · cases decoded.symm.trans read
  · cases decoded.symm.trans read
    exact greatest

end CodeAtlas
