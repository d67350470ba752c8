import CodeAtlas.Inventory.Document
import CodeAtlas.Proofs.IndentedReading
import CodeAtlas.Proofs.NameMapLookup

/-!
# The inventory document read back

An inventory is decoded from a JSON text in any layout: an object with an array of records for every
key, where a record is an object with the members `type`, `name`, `line` and `signature`, each
exactly once and in any order. Other members are passed over. The document of an inventory decodes
to that inventory, whatever its keys, names and signatures hold, so no two inventories have the same
document.

Nothing is said about texts that are not documents of inventories; where a key comes twice, the last
one stays.
-/
namespace CodeAtlas

open Reader Json

/-- A value of a record: a text or a number. -/
inductive Json.Scalar
  | text (s : String)
  | number (n : Nat)
deriving DecidableEq, Repr

def Json.Scalar.write : Scalar → String
  | .text s => Json.text s
  | .number n => Json.number n

def Json.scalar : Reader Scalar := fun cs =>
  match textToken.run cs with
  | some (s, rest) => some (.text s, rest)
  | none => (numberToken.run cs).map fun taken => (.number taken.1, taken.2)

def RecordKind.ofLabel? : String → Option RecordKind
  | "class" => some .classDecl
  | "constructor" => some .constructor
  | "static_method" => some .staticMethod
  | "method" => some .method
  | "function" => some .function
  | _ => none

namespace Record

/-- The value of a member that is there once. -/
def only? (members : List (String × Scalar)) (name : String) : Option Scalar :=
  match members.filter fun m => m.1 = name with
  | [m] => some m.2
  | _ => none

/-- The record with these members. -/
def ofMembers? (members : List (String × Scalar)) : Option Record :=
  match only? members "type", only? members "name", only? members "line",
    only? members "signature" with
  | some (.text label), some (.text name), some (.number line), some (.text signature) =>
    (RecordKind.ofLabel? label).map fun kind => { kind, name, line, signature }
  | _, _, _, _ => none

def reader : Reader Record := do
  let members ← objectOf scalar
  liftM (ofMembers? members)

end Record

namespace Inventory

def reader : Reader Inventory := do
  let entries ← objectOf (listOf Record.reader)
  return NameMap.ofList entries

/-- The inventory that a text writes. -/
def ofJson? (s : String) : Option Inventory :=
  reader.whole? s

end Inventory

/-! ## Records -/

theorem Json.takes_scalar (v : Scalar) : Takes scalar v.write v := by
  intro pad rest blank ends
  rw [StateT.run, scalar]
  cases v with
  | text s =>
    have taken := takes_text s pad rest blank ends
    simp only [Scalar.write, taken]
  | number n =>
    have refused := textToken_refuses_number n blank rest
    have taken := takes_number n pad rest blank ends
    simp only [Scalar.write, refused, taken, Option.map_some]

theorem RecordKind.ofLabel?_label (kind : RecordKind) : ofLabel? kind.label = some kind := by
  cases kind <;> rfl

namespace Record

/-- What a record says, member by member. -/
def members (r : Record) : List (String × Scalar) :=
  [("type", .text r.kind.label), ("name", .text r.name), ("line", .number r.line),
    ("signature", .text r.signature)]

theorem ofMembers?_members (r : Record) : ofMembers? r.members = some r := by
  have type : only? r.members "type" = some (.text r.kind.label) := rfl
  have name : only? r.members "name" = some (.text r.name) := rfl
  have line : only? r.members "line" = some (.number r.line) := rfl
  have signature : only? r.members "signature" = some (.text r.signature) := rfl
  simp only [ofMembers?, type, name, line, signature, RecordKind.ofLabel?_label, Option.map_some]

theorem recordText_eq (r : Record) :
    Inventory.recordText r = indentedObject 2 (r.members.map fun m => (m.1, m.2.write)) :=
  rfl

theorem takes_recordText (r : Record) : Takes reader (Inventory.recordText r) r := by
  have object :
      Takes (objectOf scalar) (Inventory.recordText r) (r.members.map fun m => (m.1, id m.2)) := by
    rw [recordText_eq]
    exact takes_indentedObject Scalar.write id 2 fun m _ => takes_scalar m.2
  intro pad rest blank ends
  rw [reader, StateT.run_bind, object pad rest blank ends]
  simp [ofMembers?_members]

theorem reader_closes : Closes "]" reader where
  marked := (objectOf_closes scalar).marked
  not_comma := (objectOf_closes scalar).not_comma
  refused := fun pad rest blank =>
    run_bind_of_refused ((objectOf_closes scalar).refused pad rest blank) _

end Record

/-! ## The document -/

namespace Inventory

def recordsText (records : List Record) : String :=
  indentedArray 1 (records.map recordText)

theorem json_eq (inventory : Inventory) :
    inventory.json = indentedObject 0 (inventory.entries.map fun e => (e.1, recordsText e.2)) :=
  rfl

theorem takes_recordsText (records : List Record) :
    Takes (listOf Record.reader) (recordsText records) records := by
  have taken :=
    takes_indentedArray recordText id 1 (fun r (_ : r ∈ records) => Record.takes_recordText r)
    Record.reader_closes
  rwa [List.map_id] at taken

theorem takes_json (inventory : Inventory) : Takes reader inventory.json inventory := by
  have object := takes_indentedObject recordsText id 0
    fun e (_ : e ∈ inventory.entries) => takes_recordsText e.2
  have entries : (inventory.entries.map fun e => (e.1, id e.2)) = inventory.entries := by
    simp
  rw [entries] at object
  have decoded := object.map NameMap.ofList
  rw [NameMap.ofList_entries] at decoded
  rw [json_eq]
  exact decoded

/-- The document of an inventory decodes to the inventory, and no other inventory has the same
document. -/
theorem json_lossless :
    (∀ inventory : Inventory, ofJson? inventory.json = some inventory) ∧
    Function.Injective json := by
  have decoded : ∀ inventory : Inventory, ofJson? inventory.json = some inventory :=
    fun inventory => (takes_json inventory).whole
  refine ⟨decoded, ?_⟩
  intro first second same
  have both := decoded first
  rw [same, decoded second, Option.some.injEq] at both
  exact both.symm

end Inventory

end CodeAtlas
