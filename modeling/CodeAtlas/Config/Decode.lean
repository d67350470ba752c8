import CodeAtlas.Audit
import CodeAtlas.Text.Quoted
import CodeAtlas.Toml.Document

/-!
# Reading settings from a table

A record of settings is described by its fields, in order, each with the way its value is read. Such
a record can be given as a table that names its fields, in any order, or as an array that lists
their values from the first field on; items past the last field are ignored. A field that is not
given keeps its default, and a name that is no field is an error. Of several errors the first in the
order of the table is reported.
-/
namespace CodeAtlas

inductive DecodeError
  | unknownField (name : String) (fields : List String)
  | wrongType (found : Toml.Value) (expected : String)
  | negative (n : Int) (expected : String)

namespace DecodeError

def describe : Toml.Value → String
  | .string text => "string " ++ Text.quoted text
  | .integer n => "integer `" ++ toString n ++ "`"
  | .float x => "floating point `" ++ x.text ++ "`"
  | .boolean b => "boolean `" ++ (if b then "true" else "false") ++ "`"
  | .array _ _ => "sequence"
  | .datetime => "map"
  | .table _ _ => "map"

def choices (fields : List String) : String :=
  match fields.map fun f => "`" ++ f ++ "`" with
  | [] => "there are no fields"
  | [a] => "expected " ++ a
  | [a, b] => "expected " ++ a ++ " or " ++ b
  | all => "expected one of " ++ ", ".intercalate all

def message : DecodeError → String
  | .unknownField name fields => "unknown field `" ++ name ++ "`, " ++ choices fields
  | .wrongType found expected => "invalid type: " ++ describe found ++ ", expected " ++ expected
  | .negative n expected => "invalid value: integer `" ++ toString n ++ "`, expected " ++ expected

end DecodeError

/-- A field of a record: its name, and how its value changes the record. -/
structure Field (σ : Type) where
  name : String
  set : Toml.Value → σ → Except DecodeError σ

namespace Decode

def path : Toml.Value → Except DecodeError Path
  | .string text => .ok (.ofText text)
  | v => .error (.wrongType v "path string")

def string : Toml.Value → Except DecodeError String
  | .string text => .ok text
  | v => .error (.wrongType v "a string")

def count : Toml.Value → Except DecodeError Nat
  | .integer n => if 0 ≤ n then .ok n.toNat else .error (.negative n "usize")
  | v => .error (.wrongType v "usize")

def list {α : Type} (item : Toml.Value → Except DecodeError α) :
    Toml.Value → Except DecodeError (List α)
  | .array _ items => items.mapM item
  | v => .error (.wrongType v "a sequence")

def entry {σ : Type} (fields : List (Field σ)) (record : σ) (e : String × Toml.Value) :
    Except DecodeError σ :=
  match fields.find? fun f => f.name == e.1 with
  | some field => field.set e.2 record
  | none => .error (.unknownField e.1 (fields.map (·.name)))

def entries {σ : Type} (fields : List (Field σ)) (record : σ) (es : Toml.Entries) :
    Except DecodeError σ :=
  es.foldlM (entry fields) record

/-- Reads items in the order of the fields. -/
def items {σ : Type} (fields : List (Field σ)) (record : σ) (vs : List Toml.Value) :
    Except DecodeError σ :=
  (fields.zip vs).foldlM (fun record (field, v) => field.set v record) record

/-- The field that a date or time shows in place of a table's. -/
def datetimeField : String := "$__toml_private_datetime"

/-- Reads a record given as a table or as an array. -/
def record {σ : Type} (name : String) (fields : List (Field σ)) (defaults : σ) :
    Toml.Value → Except DecodeError σ
  | .table _ es => entries fields defaults es
  | .array _ vs => items fields defaults vs
  | .datetime => .error (.unknownField datetimeField (fields.map (·.name)))
  | v => .error (.wrongType v ("struct " ++ name))

end Decode

end CodeAtlas
