import CodeAtlas.Inventory
import CodeAtlas.Json

/-!
# Inventories as JSON

An indented document: an object with an array of records for every key.
-/
namespace CodeAtlas.Inventory

def recordText (r : Record) : String :=
  Json.indentedObject 2 [
    ("type", Json.text r.kind.label),
    ("name", Json.text r.name),
    ("line", Json.number r.line),
    ("signature", Json.text r.signature)]

def json (inventory : Inventory) : String :=
  Json.indentedObject 0 (inventory.entries.map fun (key, records) =>
    (key, Json.indentedArray 1 (records.map recordText)))

end CodeAtlas.Inventory
