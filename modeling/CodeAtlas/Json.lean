/-!
# JSON text

The two layouts in which documents are written: compact, without any blank, and indented, two blanks
a level with every item on a line of its own. Items are passed as texts that are already written.

In a quoted text the quotation mark, the backslash and the control characters below the blank are
escaped, five of these by a letter and the others by four hexadecimal digits. All other characters
stand for themselves.
-/
namespace CodeAtlas.Json

def hexDigit (n : Nat) : Char :=
  if n < 10 then Char.ofNat (48 + n) else Char.ofNat (87 + n)

def escape (c : Char) : List Char :=
  if c = '"' then ['\\', '"']
  else if c = '\\' then ['\\', '\\']
  else if c = '\n' then ['\\', 'n']
  else if c = '\r' then ['\\', 'r']
  else if c = '\t' then ['\\', 't']
  else if c.toNat = 8 then ['\\', 'b']
  else if c.toNat = 12 then ['\\', 'f']
  else if c.toNat < 32 then ['\\', 'u', '0', '0', hexDigit (c.toNat / 16), hexDigit (c.toNat % 16)]
  else [c]

def text (s : String) : String :=
  String.ofList ('"' :: s.toList.flatMap escape ++ ['"'])

def number (n : Nat) : String :=
  String.ofList (Nat.toDigits 10 n)

def array (items : List String) : String :=
  "[" ++ ",".intercalate items ++ "]"

def object (fields : List (String × String)) : String :=
  "\x7b" ++ ",".intercalate (fields.map fun f => text f.1 ++ ":" ++ f.2) ++ "\x7d"

/-- The blanks at the start of a line at some level. -/
def indent (level : Nat) : String :=
  String.ofList (List.replicate (2 * level) ' ')

/-- Items on lines of their own, one level further in than the brackets around them; nothing stands
between the brackets of an empty list. -/
def indentedItems (left right : String) (level : Nat) (items : List String) : String :=
  if items.isEmpty then left ++ right
  else
    left ++ "\n" ++ ",\n".intercalate (items.map fun item => indent (level + 1) ++ item) ++ "\n" ++
      indent level ++ right

def indentedArray (level : Nat) (items : List String) : String :=
  indentedItems "[" "]" level items

def indentedObject (level : Nat) (fields : List (String × String)) : String :=
  indentedItems "\x7b" "\x7d" level (fields.map fun f => text f.1 ++ ": " ++ f.2)

end CodeAtlas.Json
