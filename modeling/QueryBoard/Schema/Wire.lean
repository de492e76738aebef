import QueryBoard.Schema.Basic
import QueryBoard.Json.Decode

/-!
# Schemas as JSON
-/

set_option autoImplicit false

namespace QueryBoard

def SemanticType.ofDocument (d : Document) : Decoded SemanticType :=
  SemanticType.ofName <$> d.toText

def SemanticType.toJson (t : SemanticType) : Json := .str t.name

namespace Column

structure Slots where
  name : Option String := none
  type : Option SemanticType := none
  required : Option Bool := none
  primaryKey : Option Bool := none

def Slots.read (s : Slots) (entry : Document.Entry) : Decoded Slots :=
  match entry with
  | (some "name", d) => do return { s with name := ← Document.fill s.name Document.toText d }
  | (some "type", d) => do
    return { s with type := ← Document.fill s.type SemanticType.ofDocument d }
  | (some "required", d) => do
    return { s with required := ← Document.fill s.required Document.toBool d }
  | (some "isPKey", d) => do
    return { s with primaryKey := ← Document.fill s.primaryKey Document.toBool d }
  | entry => Document.skip s entry

def Slots.finish (s : Slots) : Decoded Column := do
  return {
    name := ← Document.required "name" s.name
    type := s.type.getD .unsupported
    required := s.required.getD false
    primaryKey := s.primaryKey.getD false }

def ofEntries (entries : List Document.Entry) : Decoded Column := do
  (← entries.foldlM Slots.read {}).finish

def ofItems : List Document → Decoded Column := Document.allItems do
  let name ← Document.item Document.toText
  let type ← Document.itemOr .unsupported SemanticType.ofDocument
  let required ← Document.itemOr false Document.toBool
  let primaryKey ← Document.itemOr false Document.toBool
  return { name, type, required, primaryKey }

def ofDocument : Document → Decoded Column
  | .obj entries => ofEntries entries
  | .arr items => ofItems items
  | _ => .error .wrongShape

def toFields (c : Column) : List (String × Json) :=
  [("name", .str c.name), ("type", c.type.toJson), ("required", .bool c.required),
    ("isPKey", .bool c.primaryKey)]

def toJson (c : Column) : Json := .obj c.toFields

end Column

namespace Table

structure Slots where
  name : Option String := none
  columns : Option (List Column) := none

def Slots.read (s : Slots) (entry : Document.Entry) : Decoded Slots :=
  match entry with
  | (some "name", d) => do return { s with name := ← Document.fill s.name Document.toText d }
  | (some "columns", d) => do
    return { s with columns := ← Document.fill s.columns (Document.toList Column.ofDocument) d }
  | entry => Document.skip s entry

def Slots.finish (s : Slots) : Decoded Table := do
  return {
    name := ← Document.required "name" s.name
    columns := ← Document.required "columns" s.columns }

def ofItems : List Document → Decoded Table := Document.allItems do
  let name ← Document.item Document.toText
  let columns ← Document.item (Document.toList Column.ofDocument)
  return { name, columns }

def ofDocument : Document → Decoded Table
  | .obj entries => do (← entries.foldlM Slots.read {}).finish
  | .arr items => ofItems items
  | _ => .error .wrongShape

def toJson (t : Table) : Json :=
  .obj [("name", .str t.name), ("columns", .arr (t.columns.map Column.toJson))]

end Table

namespace Catalog

def ofDocument : Document → Decoded Catalog := Document.toList Table.ofDocument

def toJson (c : Catalog) : Json := .arr (List.map Table.toJson c)

end Catalog

end QueryBoard
