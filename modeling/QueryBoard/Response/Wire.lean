import QueryBoard.Json.Decode
import QueryBoard.Response.Basic

/-!
# Responses as JSON

Rules are an object in the order of their keys, and absent parts of a response are left out.
-/

set_option autoImplicit false

namespace QueryBoard

namespace Rules

/-- Of a key that occurs twice the later entry counts. -/
def ofDocument : Document → Decoded Rules
  | .obj entries =>
    entries.foldlM (fun (r : Rules) (entry : Document.Entry) => do
      match entry with
      | (some key, d) => return r.put key (← d.toList Document.toText)
      | (none, _) => throw .malformed) []
  | _ => .error .wrongShape

def toJson (r : Rules) : Json := .obj (r.map fun e => (e.1, Json.ofTexts e.2))

end Rules

namespace SelectData

structure Slots where
  rules : Option Rules := none
  data : Option (List Record) := none
  total : Option UInt64 := none

def Slots.read (s : Slots) (entry : Document.Entry) : Decoded Slots :=
  match entry with
  | (some "rules", d) => do return { s with rules := ← Document.fill s.rules Rules.ofDocument d }
  | (some "data", d) => do
    return { s with data := ← Document.fill s.data (Document.toList Document.toRecord) d }
  | (some "total", d) => do return { s with total := ← Document.fill s.total Document.toUInt64 d }
  | entry => Document.skip s entry

def Slots.finish (s : Slots) : Decoded SelectData := do
  return {
    rules := ← Document.required "rules" s.rules
    data := ← Document.required "data" s.data
    total := ← Document.required "total" s.total }

def ofItems : List Document → Decoded SelectData := Document.allItems do
  let rules ← Document.item Rules.ofDocument
  let data ← Document.item (Document.toList Document.toRecord)
  let total ← Document.item Document.toUInt64
  return { rules, data, total }

def ofDocument : Document → Decoded SelectData
  | .obj entries => do (← entries.foldlM Slots.read {}).finish
  | .arr items => ofItems items
  | _ => .error .wrongShape

def toJson (d : SelectData) : Json :=
  .obj [("rules", d.rules.toJson), ("data", .arr (d.data.map Json.obj)),
    ("total", .int d.total.toNat)]

end SelectData

namespace QueryResponse

structure Slots where
  data : Option (Option SelectData) := none
  err : Option (Option String) := none
  rawSql : Option (Option String) := none

def Slots.read (s : Slots) (entry : Document.Entry) : Decoded Slots :=
  match entry with
  | (some "data", d) => do
    return { s with data := ← Document.fill s.data (Document.toOption SelectData.ofDocument) d }
  | (some "err", d) => do
    return { s with err := ← Document.fill s.err (Document.toOption Document.toText) d }
  | (some "rawSql", d) => do
    return { s with rawSql := ← Document.fill s.rawSql (Document.toOption Document.toText) d }
  | entry => Document.skip s entry

def Slots.finish (s : Slots) : QueryResponse :=
  { data := s.data.join, err := s.err.join, rawSql := s.rawSql.join }

def ofItems : List Document → Decoded QueryResponse := Document.allItems do
  let data ← Document.itemOr none (Document.toOption SelectData.ofDocument)
  let err ← Document.itemOr none (Document.toOption Document.toText)
  let rawSql ← Document.itemOr none (Document.toOption Document.toText)
  return { data, err, rawSql }

def ofDocument : Document → Decoded QueryResponse
  | .obj entries => do return (← entries.foldlM Slots.read {}).finish
  | .arr items => ofItems items
  | _ => .error .wrongShape

def toJson (r : QueryResponse) : Json :=
  .obj ((r.data.toList.map fun d => ("data", d.toJson)) ++
    (r.err.toList.map fun e => ("err", .str e)) ++
    (r.rawSql.toList.map fun s => ("rawSql", .str s)))

end QueryResponse

end QueryBoard
