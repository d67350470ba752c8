/-!
# The order of names, byte by byte

Names are compared by their code points. The encoding of a greater code point has a greater byte at
the first place where the two encodings differ, whatever comes behind them, so that the order of
names is also that of their bytes: a list of names in increasing order is in increasing order for a
reader who sees bytes only.
-/
namespace CodeAtlas

/-- A name before another in the order of encoded bytes. -/
def BytesLt (s t : String) : Prop :=
  s.toUTF8.data.toList < t.toUTF8.data.toList

theorem bytes_eq_flatMap (s : String) :
    s.toUTF8.data.toList = s.toList.flatMap String.utf8EncodeChar := by
  rw [← String.ofList_toList (s := s), String.toUTF8_eq_toByteArray, String.toByteArray_ofList,
    List.utf8Encode, List.data_toByteArray, String.ofList_toList]

/-- The first bytes decide, or, if they are equal, what follows them. -/
theorem ofNat_cons_lt_iff {m n : Nat} (hm : m < 256) (hn : n < 256) {x y : List UInt8} :
    UInt8.ofNat m :: x < UInt8.ofNat n :: y ↔ m < n ∨ m = n ∧ x < y := by
  have equal : UInt8.ofNat m = UInt8.ofNat n ↔ m = n := by
    rw [← UInt8.toNat_inj, UInt8.toNat_ofNat_of_lt' hm, UInt8.toNat_ofNat_of_lt' hn]
  rw [List.cons_lt_cons_iff, UInt8.ofNat_lt_iff_lt hm hn, equal]

/-- The digits of two numbers to the base 64, the last three of them apart: the first that differs
decides. -/
theorem digits_lt {m n : Nat} (h : m < n) :
    m / 262144 < n / 262144 ∨ m / 262144 = n / 262144 ∧
      (m / 4096 % 64 < n / 4096 % 64 ∨ m / 4096 % 64 = n / 4096 % 64 ∧
        (m / 64 % 64 < n / 64 % 64 ∨ m / 64 % 64 = n / 64 % 64 ∧ m % 64 < n % 64)) := by
  have last : ∀ {m n : Nat}, m < n → m / 64 < n / 64 ∨ m / 64 = n / 64 ∧ m % 64 < n % 64 := by omega
  have shift : ∀ k : Nat, k / 4096 = k / 64 / 64 ∧ k / 262144 = k / 64 / 64 / 64 := by omega
  rw [(shift m).1, (shift m).2, (shift n).1, (shift n).2]
  rcases last h with above | ⟨same, less⟩
  · rcases last above with above | ⟨same, less⟩
    · rcases last above with above | ⟨same, less⟩
      · exact .inl above
      · exact .inr ⟨same, .inl less⟩
    · exact .inr ⟨by rw [same], .inr ⟨by rw [same], .inl less⟩⟩
  · exact .inr ⟨by rw [same], .inr ⟨by rw [same], .inr ⟨by rw [same], less⟩⟩⟩

/-- The encoding of a smaller code point comes first, with anything behind the two. A shorter
encoding starts with a smaller byte, and encodings of one length are compared digit by digit. -/
theorem utf8EncodeChar_append_lt {a b : Char} (h : a < b) (x y : List UInt8) :
    String.utf8EncodeChar a ++ x < String.utf8EncodeChar b ++ y := by
  have points : a.val.toNat < b.val.toNat := h
  have bound : b.val.toNat < 1114112 := by
    have valid := b.valid
    unfold UInt32.isValidChar Nat.isValidChar at valid
    omega
  unfold String.utf8EncodeChar
  generalize a.val.toNat = m at points ⊢
  generalize b.val.toNat = n at points bound ⊢
  have digits := digits_lt points
  have first_m : m / 262144 % 8 = m / 262144 := Nat.mod_eq_of_lt (by omega)
  have first_n : n / 262144 % 8 = n / 262144 := Nat.mod_eq_of_lt (by omega)
  dsimp only
  rw [first_m, first_n]
  -- each of the two encodings has one of four lengths
  repeat' split
  all_goals
    simp (disch := omega) only [List.cons_append, List.nil_append, ofNat_cons_lt_iff]
    omega

theorem flatMap_utf8EncodeChar_lt {l l' : List Char} (h : l < l') :
    l.flatMap String.utf8EncodeChar < l'.flatMap String.utf8EncodeChar := by
  induction l generalizing l' with
  | nil =>
    cases l' with
    | nil => exact absurd h (List.not_lt_nil [])
    | cons b l' =>
      have filled : String.utf8EncodeChar b ≠ [] := by
        unfold String.utf8EncodeChar
        dsimp only
        repeat' split
        all_goals exact List.cons_ne_nil _ _
      obtain ⟨byte, bytes, encoded⟩ := List.exists_cons_of_ne_nil filled
      rw [List.flatMap_cons, encoded]
      exact List.nil_lt_cons byte _
  | cons a l ih =>
    cases l' with
    | nil => exact absurd h (List.not_lt_nil _)
    | cons b l' =>
      rw [List.flatMap_cons, List.flatMap_cons]
      rcases List.cons_lt_cons_iff.mp h with before | ⟨rfl, behind⟩
      · exact utf8EncodeChar_append_lt before _ _
      · exact List.append_left_lt (ih behind)

theorem bytesLt_of_lt {s t : String} (h : s < t) : BytesLt s t := by
  unfold BytesLt
  rw [bytes_eq_flatMap, bytes_eq_flatMap]
  exact flatMap_utf8EncodeChar_lt h

end CodeAtlas
