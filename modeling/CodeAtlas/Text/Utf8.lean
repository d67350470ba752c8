/-!
# Bytes and texts

The content of a file is a text when its bytes are valid UTF-8; nothing is repaired or replaced
there. Bytes that are not are refused with the offset of the first byte that does not continue a
valid text.

A file name may be any bytes, and it is shown as a text all the same: what is not a character is
replaced by the replacement character, once for each longest front of a character that was broken
off.
-/
namespace CodeAtlas.Text

/-- The offset behind the characters that can be decoded one after the other from `offset` on, at
most `steps` of them. -/
def validUpTo (bytes : ByteArray) : Nat → Nat → Nat
  | 0, offset => offset
  | steps + 1, offset =>
    match bytes.utf8DecodeChar? offset with
    | some c => validUpTo bytes steps (offset + c.utf8Size)
    | none => offset

/-- The text that the bytes encode, or the offset of the first bad byte. -/
def decode (bytes : ByteArray) : Except Nat String :=
  match String.fromUTF8? bytes with
  | some text => .ok text
  | none => .error (validUpTo bytes bytes.size 0)

def encode (text : String) : List UInt8 :=
  text.toUTF8.data.toList

/-- The bounds of the bytes of one character, in order. -/
def sequences : List (List (Nat × Nat)) := [
  [(0x00, 0x7F)],
  [(0xC2, 0xDF), (0x80, 0xBF)],
  [(0xE0, 0xE0), (0xA0, 0xBF), (0x80, 0xBF)],
  [(0xE1, 0xEC), (0x80, 0xBF), (0x80, 0xBF)],
  [(0xED, 0xED), (0x80, 0x9F), (0x80, 0xBF)],
  [(0xEE, 0xEF), (0x80, 0xBF), (0x80, 0xBF)],
  [(0xF0, 0xF0), (0x90, 0xBF), (0x80, 0xBF), (0x80, 0xBF)],
  [(0xF1, 0xF3), (0x80, 0xBF), (0x80, 0xBF), (0x80, 0xBF)],
  [(0xF4, 0xF4), (0x80, 0x8F), (0x80, 0xBF), (0x80, 0xBF)]]

def Within (bounds : Nat × Nat) (byte : UInt8) : Prop :=
  bounds.1 ≤ byte.toNat ∧ byte.toNat ≤ bounds.2

instance (bounds : Nat × Nat) (byte : UInt8) : Decidable (Within bounds byte) :=
  inferInstanceAs (Decidable (bounds.1 ≤ byte.toNat ∧ byte.toNat ≤ bounds.2))

def fitting : List (Nat × Nat) → List UInt8 → Nat
  | bounds :: row, byte :: bytes => if Within bounds byte then fitting row bytes + 1 else 0
  | _, _ => 0

/-- The number of bytes that one replacement stands for: those that begin some character, and at
least one. -/
def brokenLength (bytes : List UInt8) : Nat :=
  max 1 ((sequences.map fun row => fitting row bytes).foldl max 0)

/-- The character that the bytes begin with. No character has more than four bytes. -/
def firstChar? (bytes : List UInt8) : Option Char :=
  (bytes.take 4).toByteArray.utf8DecodeChar? 0

/-- The characters of the bytes after the next `skip` ones, which have been read already. -/
def lossyFrom : Nat → List UInt8 → List Char
  | _, [] => []
  | skip + 1, _ :: bytes => lossyFrom skip bytes
  | 0, byte :: bytes =>
    match firstChar? (byte :: bytes) with
    | some c => c :: lossyFrom (c.utf8Size - 1) bytes
    | none => Char.ofNat 0xFFFD :: lossyFrom (brokenLength (byte :: bytes) - 1) bytes

def lossy (bytes : List UInt8) : String :=
  String.ofList (lossyFrom 0 bytes)

end CodeAtlas.Text
