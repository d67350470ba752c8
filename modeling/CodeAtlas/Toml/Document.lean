import CodeAtlas.Toml.Scalar

/-!
# TOML documents

A document is read line by line: blank lines, comments, headers, and keys with their values. Values
under a header are collected in a draft, which goes into the document when the next header begins or
the text ends; so the order of the tables is the order in which they were finished. A table that
headers have passed through can still be named by one, and then counts as new.

Brackets and braces can be nested seventy-nine deep, and a key has at most seventy-nine parts. A
text that breaks a rule is refused as a whole, and nothing is said about where.
-/
namespace CodeAtlas.Toml

/-- The number of levels, and of parts of a key, at which a document is refused. -/
def nestingLimit : Nat := 80

def skipComment : List Char → List Char
  | '#' :: cs => cs.dropWhile isPlain
  | cs => cs

def lineEnd? (cs : List Char) : Option (List Char) :=
  match skipComment (skipBlanks cs) with
  | [] => some []
  | cs => newline? cs

def skipLines : Nat → List Char → Option (List Char)
  | 0, _ => none
  | fuel + 1, cs =>
    match skipBlanks cs with
    | '#' :: rest => (newline? (skipComment ('#' :: rest))).bind (skipLines fuel)
    | '\n' :: rest => skipLines fuel rest
    | '\r' :: rest => (newline? ('\r' :: rest)).bind (skipLines fuel)
    | cs => some cs

def isBareKey (c : Char) : Bool :=
  c.isAlphanum || c = '_' || c = '-'

def keyPart? (cs : List Char) : Option (String × List Char) :=
  match simpleString? cs with
  | some r => some r
  | none =>
    let part := cs.takeWhile isBareKey
    if part.isEmpty then none else some (String.ofList part, cs.drop part.length)

/-- The parts of a key, and the rest after it and the blanks around it. -/
def keyParts? : Nat → List Char → Option (List String × List Char)
  | 0, _ => none
  | fuel + 1, cs => do
    let (part, cs) ← keyPart? (skipBlanks cs)
    match skipBlanks cs with
    | '.' :: cs =>
      let (parts, cs) ← keyParts? fuel cs
      return (part :: parts, cs)
    | cs => return ([part], cs)

/-- A key, as the parts before its last one and the last one. -/
def key? (cs : List Char) : Option ((List String × String) × List Char) := do
  let (parts, cs) ← keyParts? nestingLimit cs
  if nestingLimit ≤ parts.length then none
  else return ((parts.dropLast, parts.getLastD ""), cs)

def keyValue? (value : Reader Value) (cs : List Char) :
    Option ((List String × String) × Value × List Char) := do
  let (key, cs) ← key? cs
  let cs ← expect? '=' cs
  let (v, cs) ← value (skipBlanks cs)
  return (key, v, cs)

/-- The items of an array, after the opening bracket or a comma. Here and below, `fuel` is at least
the number of characters left, and items are read with as much. -/
def arrayRest (value : Nat → Reader Value) (read : List Value) : Nat → Reader Value
  | 0, _ => none
  | fuel + 1, cs => do
    match ← skipLines (fuel + 1) cs with
    | ']' :: cs => return (.array false read.reverse, cs)
    | cs =>
      let (v, cs) ← value fuel cs
      match ← skipLines (fuel + 1) cs with
      | ',' :: cs => arrayRest value (v :: read) fuel cs
      | ']' :: cs => return (.array false (v :: read).reverse, cs)
      | _ => none

def inlineRest (value : Nat → Reader Value) (entries : Entries) : Nat → Reader Value
  | 0, _ => none
  | fuel + 1, cs => do
    let ((path, key), v, cs) ← keyValue? (value fuel) cs
    let entries ← entries.addDotted? path key v
    match skipBlanks cs with
    | ',' :: cs => inlineRest value entries fuel cs
    | '}' :: cs => return (.table .inline entries, cs)
    | _ => none

def inlineTable? (value : Nat → Reader Value) (fuel : Nat) (cs : List Char) :
    Option (Value × List Char) :=
  match skipBlanks cs with
  | '}' :: cs => some (.table .inline [], cs)
  | cs => inlineRest value [] fuel cs

/-- A value in which brackets and braces are at most `depth` deep. -/
def value? : Nat → Nat → Reader Value
  | 0, _, cs => scalar? cs
  | depth + 1, fuel, cs =>
    match cs with
    | '[' :: rest => arrayRest (value? depth) [] fuel rest
    | '{' :: rest => inlineTable? (value? depth) fuel rest
    | cs => scalar? cs

/-- A document in the making: what is finished, and the table that is being written. -/
structure Draft where
  finished : Entries := []
  /-- the key of the table being written; none while no header has come -/
  header : Option (List String × String) := none
  /-- whether it is one more table of an array -/
  repeated : Bool := false
  current : Entries := []

namespace Draft

def changeParent {α : Type} (entries : Entries) (path : List String)
    (f : Entries → Option (Entries × α)) : Option (Entries × α) :=
  entries.change .passed (· = .inline) (fun _ inner => f inner) path .header

def finish (d : Draft) : Option Entries :=
  match d.header with
  | none => some d.current
  | some (path, key) =>
    let table := Value.table .header d.current
    (changeParent d.finished path fun parent =>
      if d.repeated then
        match parent.lookup key with
        | none => some (parent ++ [(key, .array true [table])], ())
        | some (.array true items) => some (parent.replace key (.array true (items ++ [table])), ())
        | some _ => none
      else (parent.addNew? key table).map fun parent => (parent, ())).map (·.1)

/-- Begins the table of a header. One that earlier headers have passed through is taken up again. -/
def startTable (finished : Entries) (path : List String) (key : String) : Option Draft := do
  let (finished, current) ← changeParent finished path fun parent =>
    match parent.lookup key with
    | none => some (parent, [])
    | some (.table .passed inner) => some (parent.remove key, inner)
    | some _ => none
  return { finished, header := some (path, key), current }

def startRepeated (finished : Entries) (path : List String) (key : String) : Option Draft := do
  let (finished, _) ← changeParent finished path fun parent =>
    match parent.lookup key with
    | none => some (parent ++ [(key, .array true [])], ())
    | some (.array true _) => some (parent, ())
    | some _ => none
  return { finished, header := some (path, key), repeated := true }

def readHeader (d : Draft) (cs : List Char) : Option (Draft × List Char) := do
  let finished ← d.finish
  match cs with
  | '[' :: cs =>
    let ((path, key), cs) ← key? cs
    let cs ← expect? ']' cs >>= expect? ']' >>= lineEnd?
    return (← startRepeated finished path key, cs)
  | cs =>
    let ((path, key), cs) ← key? cs
    let cs ← expect? ']' cs >>= lineEnd?
    return (← startTable finished path key, cs)

def readLines (d : Draft) : Nat → List Char → Option Entries
  | 0, _ => none
  | fuel + 1, cs =>
    match skipBlanks cs with
    | [] => d.finish
    | '#' :: rest => (lineEnd? ('#' :: rest)).bind (readLines d fuel)
    | '\n' :: rest => readLines d fuel rest
    | '\r' :: rest => (newline? ('\r' :: rest)).bind (readLines d fuel)
    | '[' :: rest =>
      match d.readHeader rest with
      | some (d, cs) => readLines d fuel cs
      | none => none
    | cs =>
      match keyValue? (value? (nestingLimit - 1) fuel) cs with
      | some ((path, key), v, cs) =>
        match d.current.addDotted? path key v, lineEnd? cs with
        | some current, some cs => readLines { d with current } fuel cs
        | _, _ => none
      | none => none

end Draft

/-- The table that a text is, if it keeps the rules. A byte order mark may stand in front. -/
def parse? (text : String) : Option Entries :=
  let cs := text.toList
  let cs := if cs.head? = some (Char.ofNat 0xFEFF) then cs.drop 1 else cs
  Draft.readLines {} (cs.length + 1) cs

end CodeAtlas.Toml
