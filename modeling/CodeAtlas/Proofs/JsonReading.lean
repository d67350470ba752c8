import CodeAtlas.Json
import CodeAtlas.Proofs.Reading

/-!
# JSON text read back

Readers for the texts of `CodeAtlas.Json`: quoted texts, numbers, arrays without blanks, and the
fields of an object. Each takes what its writer wrote and gives the value that was written.

Digits do not say where a number ends, so a number is read with the comma that follows it. Of the
escapes that are written with four hexadecimal digits, a writer needs only those below the blank;
the reader takes any four.
-/
namespace CodeAtlas.Json

open Reader

/-- The character that a letter behind a backslash stands for. -/
def escapedLetter? : Char → Option Char
  | '"' => some '"'
  | '\\' => some '\\'
  | 'n' => some '\n'
  | 'r' => some '\r'
  | 't' => some '\t'
  | 'b' => some (Char.ofNat 8)
  | 'f' => some (Char.ofNat 12)
  | _ => none

def hexValue? (c : Char) : Option Nat :=
  if c.isDigit then some (c.toNat - 48)
  else if 97 ≤ c.toNat ∧ c.toNat ≤ 102 then some (c.toNat - 87)
  else none

/-- The characters that an escaped text stands for. -/
def unescape? : List Char → Option (List Char)
  | [] => some []
  | '\\' :: 'u' :: a :: b :: c :: d :: rest => do
    let code := ((← hexValue? a) * 16 + (← hexValue? b)) * 256 +
      (← hexValue? c) * 16 + (← hexValue? d)
    return Char.ofNat code :: (← unescape? rest)
  | '\\' :: c :: rest => do return (← escapedLetter? c) :: (← unescape? rest)
  | c :: rest => do return c :: (← unescape? rest)

def quotedText : Reader String :=
  quoted unescape?

/-- Takes the digits of a number. -/
def digits : Reader Nat := fun cs =>
  if (cs.takeWhile Char.isDigit).isEmpty then none
  else some (Nat.ofDigitChars 10 (cs.takeWhile Char.isDigit) 0, cs.dropWhile Char.isDigit)

/-- Takes a number and the comma after it. -/
def numberComma : Reader Nat := do
  let n ← digits
  expect ","
  return n

def field {α : Type} (name : String) (value : Reader α) : Reader α := do
  expect (text name ++ ":")
  value

/-- Takes an array of items. -/
def arrayOf {α : Type} (item : Reader α) : Reader (List α) := do
  expect "["
  separatedUntil item "," "]"

/-! ## Quoted texts -/

theorem hexValue?_hexDigit {n : Nat} (h : n < 16) : hexValue? (hexDigit n) = some n := by
  have all : ∀ n < 16, hexValue? (hexDigit n) = some n := by decide
  exact all n h

/-- A character is written as it is, by a letter behind a backslash, or by its code. -/
theorem escape_cases (c : Char) :
    (escape c = [c] ∧ c ≠ '"' ∧ c ≠ '\\') ∨
      (∃ letter, escape c = ['\\', letter] ∧ letter ≠ 'u' ∧ escapedLetter? letter = some c) ∨
      (escape c = ['\\', 'u', '0', '0', hexDigit (c.toNat / 16), hexDigit (c.toNat % 16)] ∧
        c.toNat < 32) := by
  have of_code : ∀ n, c.toNat = n → c = Char.ofNat n := by
    intro n h
    rw [← h, Char.ofNat_toNat]
  unfold escape
  split
  next h => exact .inr (.inl ⟨'"', rfl, by decide, by rw [h]; rfl⟩)
  split
  next h => exact .inr (.inl ⟨'\\', rfl, by decide, by rw [h]; rfl⟩)
  split
  next h => exact .inr (.inl ⟨'n', rfl, by decide, by rw [h]; rfl⟩)
  split
  next h => exact .inr (.inl ⟨'r', rfl, by decide, by rw [h]; rfl⟩)
  split
  next h => exact .inr (.inl ⟨'t', rfl, by decide, by rw [h]; rfl⟩)
  split
  next h => exact .inr (.inl ⟨'b', rfl, by decide, by rw [of_code 8 h]; rfl⟩)
  split
  next h => exact .inr (.inl ⟨'f', rfl, by decide, by rw [of_code 12 h]; rfl⟩)
  split
  next h => exact .inr (.inr ⟨rfl, h⟩)
  next quote backslash _ _ _ _ _ _ => exact .inl ⟨rfl, quote, backslash⟩

theorem hexDigit_plain {n : Nat} (h : n < 16) : hexDigit n ≠ '"' ∧ hexDigit n ≠ '\\' := by
  have all : ∀ n < 16, hexDigit n ≠ '"' ∧ hexDigit n ≠ '\\' := by decide
  exact all n h

theorem seals_escape : Seals escape := by
  intro c rest
  rcases escape_cases c with ⟨h, quote, backslash⟩ | ⟨letter, h, -, -⟩ | ⟨h, low⟩
  · rw [h]
    exact enclosedFrom_plain quote backslash rest
  · rw [h]
    rfl
  · have high := hexDigit_plain (n := c.toNat / 16) (by omega)
    have last := hexDigit_plain (n := c.toNat % 16) (by omega)
    rw [h]
    simp only [List.cons_append, List.nil_append]
    rw [enclosedFrom, enclosedFrom_plain (by decide) (by decide),
      enclosedFrom_plain (by decide) (by decide), enclosedFrom_plain high.1 high.2,
      enclosedFrom_plain last.1 last.2]
    simp only [Option.map_map, Function.comp_def]

theorem unescape?_plain {c : Char} (notBackslash : c ≠ '\\') (rest : List Char) :
    unescape? (c :: rest) = (unescape? rest).map (c :: ·) := by
  cases read : unescape? rest <;> simp [unescape?, notBackslash, read]

theorem unescape?_letter {letter c : Char} (notCode : letter ≠ 'u')
    (stands : escapedLetter? letter = some c) (rest : List Char) :
    unescape? ('\\' :: letter :: rest) = (unescape? rest).map (c :: ·) := by
  cases read : unescape? rest <;> simp [unescape?, notCode, stands, read]

theorem unescape?_code {high low : Char} {a b : Nat} (hhigh : hexValue? high = some a)
    (hlow : hexValue? low = some b) (rest : List Char) :
    unescape? ('\\' :: 'u' :: '0' :: '0' :: high :: low :: rest) =
      (unescape? rest).map (Char.ofNat (a * 16 + b) :: ·) := by
  have zero : hexValue? '0' = some 0 := rfl
  cases read : unescape? rest <;> simp [unescape?, hhigh, hlow, zero, read]

theorem unescape?_escape_append (c : Char) (rest : List Char) :
    unescape? (escape c ++ rest) = (unescape? rest).map (c :: ·) := by
  rcases escape_cases c with ⟨h, -, backslash⟩ | ⟨letter, h, notCode, stands⟩ | ⟨h, low⟩
  · rw [h]
    exact unescape?_plain backslash rest
  · rw [h]
    exact unescape?_letter notCode stands rest
  · have high := hexValue?_hexDigit (n := c.toNat / 16) (by omega)
    have last := hexValue?_hexDigit (n := c.toNat % 16) (by omega)
    have code : c.toNat / 16 * 16 + c.toNat % 16 = c.toNat := by omega
    have read := unescape?_code high last rest
    rw [code, Char.ofNat_toNat] at read
    rw [h]
    exact read

theorem unescape?_flatMap (cs : List Char) : unescape? (cs.flatMap escape) = some cs := by
  induction cs with
  | nil => rfl
  | cons c cs ih =>
    rw [List.flatMap_cons, unescape?_escape_append, ih]
    rfl

theorem reads_text (s : String) : Reads quotedText (text s) s :=
  seals_escape.reads_quoted unescape?_flatMap s

/-! ## Numbers, fields and arrays -/

/-- The digits of a number are all taken where no other digit follows. -/
theorem run_digits (n : Nat) {rest : List Char} (ends : ∀ c ∈ rest.head?, c.isDigit = false) :
    digits.run (Nat.toDigits 10 n ++ rest) = some (n, rest) := by
  have all : ∀ c ∈ Nat.toDigits 10 n, c.isDigit = true := by
    intro c hc
    exact Nat.isDigit_of_mem_toDigits (by decide) (by decide) hc
  have stops : rest.takeWhile Char.isDigit = [] ∧ rest.dropWhile Char.isDigit = rest := by
    cases rest with
    | nil => exact ⟨rfl, rfl⟩
    | cons c rest => simp [ends c rfl]
  have taken : (Nat.toDigits 10 n ++ rest).takeWhile Char.isDigit = Nat.toDigits 10 n := by
    rw [List.takeWhile_append_of_pos all, stops.1, List.append_nil]
  have left : (Nat.toDigits 10 n ++ rest).dropWhile Char.isDigit = rest := by
    rw [List.dropWhile_append_of_pos all, stops.2]
  have some_digit : (Nat.toDigits 10 n).isEmpty = false := by
    simp [Nat.toDigits_ne_nil]
  rw [StateT.run, digits, taken, left, some_digit, Nat.ofDigitChars_ten_toDigits]
  rfl

theorem reads_number_comma (n : Nat) : Reads numberComma (number n ++ ",") n := by
  intro rest
  have split : (number n ++ ",").toList ++ rest = Nat.toDigits 10 n ++ ',' :: rest := by
    simp [number]
  have comma : ∀ c ∈ (',' :: rest).head?, c.isDigit = false := by
    simp
  rw [split, numberComma, StateT.run_bind, run_digits n comma]
  exact (reads_expect ",").map (fun _ => n) rest

theorem reads_field {α : Type} {r : Reader α} {s : String} {a : α}
    (name : String) (h : Reads r s a) :
    Reads (field name r) (text name ++ ":" ++ s) a :=
  (reads_expect _).bind h

theorem reads_array {α β : Type} {r : Reader α} {write : β → String} {value : β → α} {bs : List β}
    (each : ∀ b ∈ bs, Reads r (write b) (value b)) (refused : ∀ rest, r.run (']' :: rest) = none) :
    Reads (arrayOf r) (array (bs.map write)) (bs.map value) := by
  have items :
      Reads (separatedUntil r "," "]") (",".intercalate (bs.map write) ++ "]") (bs.map value) :=
    reads_separatedUntil each (by decide) refused (by simp)
  rw [array, String.append_assoc]
  exact (reads_expect "[").bind items

end CodeAtlas.Json
