import CodeAtlas.Decimal.Shortest

/-!
# TOML values

The values of a document. Dates and times are recognised but not kept apart, since no setting takes
one.

A table remembers how it came to be, because that decides what may still be added to it: a table
that a header names is closed to dotted keys, one that a header only passes through can be named
later, and one written in braces is complete. An array is open when every part of it is a table of
its own header.
-/
namespace CodeAtlas.Toml

inductive Origin
  /-- named by a header, or the document itself -/
  | header
  /-- passed through on the way to a table that a header names -/
  | passed
  /-- made by a dotted key -/
  | dotted
  /-- written in braces -/
  | inline
deriving DecidableEq, Repr

inductive Float
  | finite (negative : Bool) (magnitude : Binary)
  | infinite (negative : Bool)
  | nan
deriving DecidableEq, Repr

/-- The shortest decimal of a number in positional notation. -/
def Float.text : Float → String
  | .finite negative x =>
    let digits := if x.mantissa = 0 then "0.0".toList else (Decimal.shortest x).positional
    String.ofList (if negative then '-' :: digits else digits)
  | .infinite negative => if negative then "-inf" else "inf"
  | .nan => "NaN"

inductive Value
  | string (text : String)
  | integer (n : Int)
  | float (x : Float)
  | boolean (b : Bool)
  | datetime
  | array (isOpen : Bool) (items : List Value)
  | table (origin : Origin) (entries : List (String × Value))

/-- Keys with their values, in the order in which they were first written. -/
abbrev Entries := List (String × Value)

def Entries.replace (entries : Entries) (key : String) (v : Value) : Entries :=
  entries.map fun e => if e.1 = key then (key, v) else e

def Entries.remove (entries : Entries) (key : String) : Entries :=
  entries.filter fun e => e.1 ≠ key

def Entries.addNew? (entries : Entries) (key : String) (v : Value) : Option Entries :=
  if (entries.lookup key).isSome then none else some (entries ++ [(key, v)])

/-- Changes the entries of the table that keys lead to, making the tables that are not there, of
origin `made`. An open array stands for the last of its tables. What is closed, as `closed` says of
a table's origin, cannot be entered. -/
def Entries.change {α : Type} (made : Origin) (closed : Origin → Bool)
    (f : Origin → Entries → Option (Entries × α)) :
    List String → Origin → Entries → Option (Entries × α)
  | [], origin, entries => f origin entries
  | key :: keys, _, entries =>
    match entries.lookup key with
    | none => do
      let (inner, a) ← change made closed f keys made []
      return (entries ++ [(key, .table made inner)], a)
    | some (.table origin inner) =>
      if closed origin then none
      else do
        let (inner, a) ← change made closed f keys origin inner
        return (Entries.replace entries key (.table origin inner), a)
    | some (.array true items) =>
      match items.getLast? with
      | some (.table origin inner) => do
        let (inner, a) ← change made closed f keys origin inner
        return (Entries.replace entries key (.array true (items.dropLast ++ [.table origin inner])),
          a)
      | _ => none
    | some _ => none

/-- Adds a value under a key of one or more parts. The table that a dotted key ends in must be one
that dotted keys made. -/
def Entries.addDotted? (entries : Entries) (path : List String) (key : String) (v : Value) :
    Option Entries := do
  let closed (o : Origin) : Bool := o = .header || o = .inline
  let (entries, _) ← Entries.change .dotted closed
    (fun origin inner =>
      if !path.isEmpty && origin ≠ .dotted then none
      else (Entries.addNew? inner key v).map fun inner => (inner, ()))
    path .header entries
  return entries

end CodeAtlas.Toml
