import CodeAtlas.Toml.Value

/-!
# Strings, numbers and dates of TOML

Readers for the values that hold no others. A reader takes the start of a text and returns the value
and the rest, or nothing when the text does not start with such a value. What may follow a value is
for those who read around it.
-/
namespace CodeAtlas.Toml

abbrev Reader (α : Type) := List Char → Option (α × List Char)

def isBlank (c : Char) : Bool :=
  c = ' ' || c = '\t'

def skipBlanks (cs : List Char) : List Char :=
  cs.dropWhile isBlank

def newline? : List Char → Option (List Char)
  | '\n' :: cs => some cs
  | '\r' :: '\n' :: cs => some cs
  | _ => none

/-- Characters that may stand in a comment or, quotes and escapes apart, in a string. -/
def isPlain (c : Char) : Bool :=
  c = '\t' || (32 ≤ c.toNat && c.toNat ≤ 126) || 128 ≤ c.toNat

def digitValue? (base : Nat) (c : Char) : Option Nat :=
  let n :=
    if '0' ≤ c ∧ c ≤ '9' then some (c.toNat - 48)
    else if 'a' ≤ c ∧ c ≤ 'f' then some (c.toNat - 87)
    else if 'A' ≤ c ∧ c ≤ 'F' then some (c.toNat - 55)
    else none
  n.filter (· < base)

def isDigit (c : Char) : Bool :=
  (digitValue? 10 c).isSome

def valueOf (base : Nat) (digits : List Char) : Nat :=
  digits.foldl (fun n c => n * base + (digitValue? base c).getD 0) 0

/-- The character whose number the first `count` characters give in hexadecimal, and how many
characters were taken with the letter in front. -/
def codePoint? (count : Nat) (cs : List Char) : Option (Char × Nat) :=
  let digits := cs.take count
  let n := valueOf 16 digits
  if digits.length = count ∧ digits.all (fun c => (digitValue? 16 c).isSome) ∧ n.isValidChar then
    some (Char.ofNat n, count + 1)
  else none

def escape? : List Char → Option (Char × Nat)
  | 'b' :: _ => some (Char.ofNat 8, 1)
  | 't' :: _ => some ('\t', 1)
  | 'n' :: _ => some ('\n', 1)
  | 'f' :: _ => some (Char.ofNat 12, 1)
  | 'r' :: _ => some ('\r', 1)
  | '"' :: _ => some ('"', 1)
  | '\\' :: _ => some ('\\', 1)
  | 'u' :: cs => codePoint? 4 cs
  | 'U' :: cs => codePoint? 8 cs
  | _ => none

/-- The rest of a string with escapes on one line, `read` being what was read of it, reversed;
`skip` characters still belong to an escape. -/
def basicRest (read : List Char) : Nat → Reader String
  | _, [] => none
  | skip + 1, _ :: cs => basicRest read skip cs
  | 0, c :: cs =>
    if c = '"' then some (String.ofList read.reverse, cs)
    else if c = '\\' then
      match escape? cs with
      | some (meant, taken) => basicRest (meant :: read) taken cs
      | none => none
    else if isPlain c then basicRest (c :: read) 0 cs
    else none

def literalRest (cs : List Char) : Option (String × List Char) :=
  let body := cs.takeWhile fun c => isPlain c && c ≠ '\''
  match cs.drop body.length with
  | '\'' :: cs => some (String.ofList body, cs)
  | _ => none

def endsLine (cs : List Char) : Bool :=
  (newline? (skipBlanks cs)).isSome

/-- The rest of a string of several lines between triple `quote`s; one or two quotes may stand
anywhere in it, also in front of the closing ones. Line ends count as newlines. `skip` characters
still belong to an escape; behind a backslash that ends a line, blanks and line ends are passed
over. -/
def multilineRest (quote : Char) (escapes : Bool) (read : List Char) (passing : Bool) :
    Nat → Reader String
  | _, [] => none
  | skip + 1, _ :: cs => multilineRest quote escapes read passing skip cs
  | 0, c :: cs =>
    let quotes := ((c :: cs).takeWhile (· = quote)).length
    if passing && (isBlank c || (newline? (c :: cs)).isSome) then
      multilineRest quote escapes read passing 0 cs
    else if 3 ≤ quotes then
      let inside := min (quotes - 3) 2
      some (String.ofList (List.replicate inside quote ++ read).reverse,
        (c :: cs).drop (inside + 3))
    else if c = '\n' then multilineRest quote escapes ('\n' :: read) false 0 cs
    else if c = '\r' then
      if cs.head? = some '\n' then multilineRest quote escapes read false 0 cs else none
    else if escapes && c = '\\' then
      if endsLine cs then multilineRest quote escapes read true 0 cs
      else
        match escape? cs with
        | some (meant, taken) => multilineRest quote escapes (meant :: read) false taken cs
        | none => none
    else if isPlain c then multilineRest quote escapes (c :: read) false 0 cs
    else none

/-- A string on one line, as it may also stand for a key. -/
def simpleString? : Reader String
  | '"' :: cs => basicRest [] 0 cs
  | '\'' :: cs => literalRest cs
  | _ => none

def string? : Reader String
  | '"' :: '"' :: '"' :: cs =>
    multilineRest '"' true [] false 0 ((newline? cs).getD cs)
  | '\'' :: '\'' :: '\'' :: cs =>
    multilineRest '\'' false [] false 0 ((newline? cs).getD cs)
  | cs => simpleString? cs

/-- Digits of a base, single underscores between them left out. -/
def digits? (base : Nat) (cs : List Char) : Option (List Char × List Char) :=
  match cs with
  | c :: rest => if (digitValue? base c).isSome then some (more [c] rest) else none
  | [] => none
where
  more (read : List Char) : List Char → List Char × List Char
    | '_' :: c :: cs =>
      if (digitValue? base c).isSome then more (c :: read) cs else (read.reverse, '_' :: c :: cs)
    | c :: cs => if (digitValue? base c).isSome then more (c :: read) cs
      else (read.reverse, c :: cs)
    | [] => (read.reverse, [])

def sign : List Char → Bool × List Char
  | '-' :: cs => (true, cs)
  | '+' :: cs => (false, cs)
  | cs => (false, cs)

def wholeDigits? : List Char → Option (List Char × List Char)
  | '0' :: cs => some (['0'], cs)
  | cs => digits? 10 cs

def inRange (n : Int) : Bool :=
  -9223372036854775808 ≤ n && n ≤ 9223372036854775807

def basedInteger? (base : Nat) (cs : List Char) : Option (Value × List Char) := do
  let (digits, cs) ← digits? base cs
  let n : Int := valueOf base digits
  if inRange n then return (.integer n, cs) else none

def integer? : Reader Value
  | '0' :: 'x' :: cs => basedInteger? 16 cs
  | '0' :: 'o' :: cs => basedInteger? 8 cs
  | '0' :: 'b' :: cs => basedInteger? 2 cs
  | cs => do
    let (negative, cs) := sign cs
    let (digits, cs) ← wholeDigits? cs
    let n : Int := valueOf 10 digits
    let n := if negative then -n else n
    if inRange n then return (.integer n, cs) else none

def fraction? : List Char → Option (List Char × List Char)
  | '.' :: cs => digits? 10 cs
  | _ => none

def exponent? : List Char → Option (Int × List Char)
  | 'e' :: cs => signed cs
  | 'E' :: cs => signed cs
  | _ => none
where
  signed (cs : List Char) : Option (Int × List Char) := do
    let (negative, cs) := sign cs
    let (digits, cs) ← digits? 10 cs
    let n : Int := valueOf 10 digits
    return (if negative then -n else n, cs)

/-- The double nearest to `digits · 10 ^ exponent`. Numbers far outside the range of the format are
settled by their number of digits. -/
def nearest (negative : Bool) (digits : List Char) (exponent : Int) : Float :=
  let digits := digits.dropWhile (· = '0')
  let size : Int := digits.length + exponent
  if digits.isEmpty || size < -400 then .finite negative ⟨0, 0⟩
  else if 400 < size then .infinite negative
  else
    let d : Decimal := ⟨valueOf 10 digits, exponent⟩
    let x := Binary.round d.num d.den
    if x.overflows then .infinite negative
    else if x.mantissa = 0 then .finite negative ⟨0, 0⟩
    else .finite negative x

/-- A number with a fraction or an exponent. One that is too large is refused, unless it is
negative. -/
def decimalFloat? (cs : List Char) : Option (Value × List Char) := do
  let (negative, cs) := sign cs
  let (whole, cs) ← wholeDigits? cs
  let (fraction, exponent, cs) ←
    match fraction? cs with
    | some (fraction, rest) =>
      match exponent? rest with
      | some (e, rest) => some (fraction, e, rest)
      | none => some (fraction, 0, rest)
    | none => (exponent? cs).map fun (e, rest) => ([], e, rest)
  let x := nearest negative (whole ++ fraction) (exponent - fraction.length)
  if x = .infinite false then none else return (.float x, cs)

def namedFloat? (cs : List Char) : Option (Value × List Char) :=
  let (negative, cs) := sign cs
  match cs with
  | 'i' :: 'n' :: 'f' :: cs => some (.float (.infinite negative), cs)
  | 'n' :: 'a' :: 'n' :: cs => some (.float .nan, cs)
  | _ => none

def field? (count low high : Nat) (cs : List Char) : Option (Nat × List Char) :=
  let digits := cs.take count
  let n := valueOf 10 digits
  if digits.length = count ∧ digits.all isDigit ∧ low ≤ n ∧ n ≤ high then some (n, cs.drop count)
  else none

def expect? (c : Char) : List Char → Option (List Char)
  | d :: cs => if d = c then some cs else none
  | [] => none

def daysIn (year month : Nat) : Nat :=
  if month = 2 then
    if year % 4 = 0 ∧ (year % 100 ≠ 0 ∨ year % 400 = 0) then 29 else 28
  else if month ∈ [4, 6, 9, 11] then 30
  else 31

def date? (cs : List Char) : Option (List Char) := do
  let (year, cs) ← field? 4 0 9999 cs
  let cs ← expect? '-' cs
  let (month, cs) ← field? 2 1 12 cs
  let cs ← expect? '-' cs
  let (_, cs) ← field? 2 1 (daysIn year month) cs
  return cs

def time? (cs : List Char) : Option (List Char) := do
  let (_, cs) ← field? 2 0 23 cs
  let cs ← expect? ':' cs
  let (_, cs) ← field? 2 0 59 cs
  let cs ← expect? ':' cs
  let (_, cs) ← field? 2 0 60 cs
  match cs with
  | '.' :: rest => if rest.head?.any isDigit then return rest.dropWhile isDigit else none
  | _ => return cs

def skipOffset (cs : List Char) : List Char :=
  match cs with
  | 'Z' :: cs => cs
  | 'z' :: cs => cs
  | c :: rest =>
    if c = '+' || c = '-' then
      (do
        let (_, cs) ← field? 2 0 23 rest
        let cs ← expect? ':' cs
        let (_, cs) ← field? 2 0 59 cs
        return cs).getD cs
    else cs
  | [] => []

def datetime? (cs : List Char) : Option (Value × List Char) :=
  match date? cs with
  | some rest =>
    match rest with
    | c :: cs =>
      if c = 'T' || c = 't' || c = ' ' then
        match time? cs with
        | some cs => some (.datetime, skipOffset cs)
        | none => some (.datetime, rest)
      else some (.datetime, rest)
    | [] => some (.datetime, [])
  | none => (time? cs).map fun cs => (.datetime, cs)

def scalar? : Reader Value
  | cs@('"' :: _) => (string? cs).map fun (s, cs) => (.string s, cs)
  | cs@('\'' :: _) => (string? cs).map fun (s, cs) => (.string s, cs)
  | 't' :: 'r' :: 'u' :: 'e' :: cs => some (.boolean true, cs)
  | 'f' :: 'a' :: 'l' :: 's' :: 'e' :: cs => some (.boolean false, cs)
  | cs => datetime? cs <|> decimalFloat? cs <|> namedFloat? cs <|> integer? cs

end CodeAtlas.Toml
