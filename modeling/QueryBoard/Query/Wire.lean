import QueryBoard.Query.Basic
import QueryBoard.Schema.Wire

/-!
# Queries as JSON

Decoding and encoding of everything that a query is made of.  Table nodes, columns and payloads
are open or nested into their surroundings: the fields of a table key stand inside its node, those
of a schema column inside the column, and a payload keeps every entry it does not know.  Such an
object is read in two passes, its own fields first and the nested ones after them, for which it
keeps every entry that it does not know, and it has no array form.
-/

set_option autoImplicit false

namespace QueryBoard

def Document.toWord {α : Type} (parse : String → Except UnknownWord α) (d : Document) :
    Decoded α := do
  match parse (← d.toText) with
  | .ok a => return a
  | .error e => throw (.unknownWord e)

def Operation.ofDocument : Document → Decoded Operation := Document.toWord Operation.parse

def Operation.toJson (o : Operation) : Json := .str o.name

def JoinKind.ofDocument : Document → Decoded JoinKind := Document.toWord JoinKind.parse

def JoinKind.toJson (k : JoinKind) : Json := .str k.name

namespace Aggregate

/-- An aggregate by its name, or as an object with that one key and `null` for it. -/
def ofDocument (d : Document) : Decoded Aggregate := do
  match ← d.toJson with
  | .str s | .obj [(s, .null)] =>
    match parse s with
    | .ok f => return f
    | .error _ => throw .wrongShape
  | _ => throw .wrongShape

def toJson (f : Aggregate) : Json := .str f.name

/-- The aggregate of a column: absence, `null` and the empty text are no aggregate. -/
def ofDocument? (d : Document) : Decoded (Option Aggregate) := do
  match ← d.toOption Document.toText with
  | none => return none
  | some s => if s = "" then return none else some <$> Document.toWord parse d

end Aggregate

namespace TableKey

/-- The fields read so far. -/
structure Slots where
  name : Option String := none
  increment : Option UInt8 := none

def Slots.read (s : Slots) (entry : Document.Entry) : Decoded Slots :=
  match entry with
  | (some "name", d) => do return { s with name := ← Document.fill s.name Document.toText d }
  | (some "increment", d) => do
    return { s with increment := ← Document.fill s.increment Document.toUInt8 d }
  | entry => Document.skip s entry

def Slots.finish (s : Slots) : Decoded TableKey := do
  return { name := ← Document.required "name" s.name, increment := s.increment.getD 0 }

def ofEntries (entries : List Document.Entry) : Decoded TableKey := do
  (← entries.foldlM Slots.read {}).finish

def ofItems : List Document → Decoded TableKey := Document.allItems do
  let name ← Document.item Document.toText
  let increment ← Document.itemOr 0 Document.toUInt8
  return { name, increment }

def ofDocument : Document → Decoded TableKey
  | .obj entries => ofEntries entries
  | .arr items => ofItems items
  | _ => .error .wrongShape

def toFields (k : TableKey) : List (String × Json) :=
  [("name", .str k.name), ("increment", .int k.increment.toNat)]

def toJson (k : TableKey) : Json := .obj k.toFields

end TableKey

namespace Payload

structure Slots where
  metaKey : Option (Option String) := none
  order : Option (Option String) := none
  extra : List (String × Json) := []

def Slots.read (s : Slots) (entry : Document.Entry) : Decoded Slots :=
  match entry with
  | (some "metaKey", d) => do
    return { s with metaKey := ← Document.fill s.metaKey (Document.toOption Document.toText) d }
  | (some "order", d) => do
    return { s with order := ← Document.fill s.order (Document.toOption Document.toText) d }
  | (some key, d) => do return { s with extra := Json.upsert s.extra key (← d.toJson).dedup }
  | (none, _) => .error .malformed

def ofDocument : Document → Decoded Payload
  | .obj entries => do
    let s ← entries.foldlM Slots.read {}
    return { metaKey := s.metaKey.join, order := s.order.join, extra := s.extra }
  | _ => .error .wrongShape

def toJson (p : Payload) : Json :=
  .obj ((p.metaKey.toList.map fun s => ("metaKey", .str s)) ++
    (p.order.toList.map fun s => ("order", .str s)) ++ p.extra)

end Payload

namespace ColumnRef

/-- The column's own fields read so far. -/
structure Slots where
  tableKey : Option TableKey := none
  func : Option (Option Aggregate) := none
  payload : Option Payload := none
  value : Option (Option Value) := none

def Slots.read (s : Slots) (entry : Document.Entry) : Decoded Slots :=
  match entry with
  | (some "tableKey", d) => do
    return { s with tableKey := ← Document.fill s.tableKey TableKey.ofDocument d }
  | (some "func", d) => do
    return { s with func := ← Document.fill s.func Aggregate.ofDocument? d }
  | (some "payload", d) => do
    return { s with payload := ← Document.fill s.payload Payload.ofDocument d }
  | (some "value", d) => do
    return { s with value := ← Document.fill s.value (Document.toOption Value.ofDocument) d }
  | entry => Document.keep s entry

def ofDocument : Document → Decoded ColumnRef
  | .obj entries => do
    let s ← entries.foldlM Slots.read {}
    let column ← Column.ofEntries entries
    return {
      column
      tableKey := s.tableKey.getD ⟨"", 0⟩
      func := s.func.join
      payload := s.payload.getD {}
      value := s.value.join }
  | _ => .error .wrongShape

def toJson (c : ColumnRef) : Json :=
  .obj (c.column.toFields ++ [("tableKey", c.tableKey.toJson)] ++
    (c.func.toList.map fun f => ("func", f.toJson)) ++ [("payload", c.payload.toJson)] ++
    (c.value.toList.map fun v => ("value", v.toJson)))

end ColumnRef

namespace JoinCondition

/-- Both columns of a condition, parent first. -/
def columnsOfDocument : Document → Decoded (ColumnRef × ColumnRef)
  | .arr items => Document.allItems (do
      let left ← Document.item ColumnRef.ofDocument
      let right ← Document.item ColumnRef.ofDocument
      return (left, right)) items
  | _ => .error .wrongShape

structure Slots where
  columns : Option (ColumnRef × ColumnRef) := none
  operator : Option String := none

def Slots.read (s : Slots) (entry : Document.Entry) : Decoded Slots :=
  match entry with
  | (some "columns", d) => do
    return { s with columns := ← Document.fill s.columns columnsOfDocument d }
  | (some "operator", d) => do
    return { s with operator := ← Document.fill s.operator Document.toText d }
  | entry => Document.skip s entry

def Slots.finish (s : Slots) : Decoded JoinCondition := do
  let (left, right) ← Document.required "columns" s.columns
  return { left, right, operator := ← Document.required "operator" s.operator }

def ofItems : List Document → Decoded JoinCondition := Document.allItems do
  let (left, right) ← Document.item columnsOfDocument
  let operator ← Document.item Document.toText
  return { left, right, operator }

def ofDocument : Document → Decoded JoinCondition
  | .obj entries => do (← entries.foldlM Slots.read {}).finish
  | .arr items => ofItems items
  | _ => .error .wrongShape

def toJson (c : JoinCondition) : Json :=
  .obj [("columns", .arr [c.left.toJson, c.right.toJson]), ("operator", .str c.operator)]

end JoinCondition

namespace JoinRule

structure Slots where
  kind : Option JoinKind := none
  conditions : Option (List JoinCondition) := none

def Slots.read (s : Slots) (entry : Document.Entry) : Decoded Slots :=
  match entry with
  | (some "type", d) => do return { s with kind := ← Document.fill s.kind JoinKind.ofDocument d }
  | (some "conditions", d) => do
    let read := Document.toList JoinCondition.ofDocument
    return { s with conditions := ← Document.fill s.conditions read d }
  | entry => Document.skip s entry

def Slots.finish (s : Slots) : Decoded JoinRule := do
  return { kind := ← Document.required "type" s.kind, conditions := s.conditions.getD [] }

def ofItems : List Document → Decoded JoinRule := Document.allItems do
  let kind ← Document.item JoinKind.ofDocument
  let conditions ← Document.itemOr [] (Document.toList JoinCondition.ofDocument)
  return { kind, conditions }

def ofDocument : Document → Decoded JoinRule
  | .obj entries => do (← entries.foldlM Slots.read {}).finish
  | .arr items => ofItems items
  | _ => .error .wrongShape

def toJson (r : JoinRule) : Json :=
  .obj [("type", r.kind.toJson), ("conditions", .arr (r.conditions.map JoinCondition.toJson))]

end JoinRule

namespace TableNode

/-- The node's own fields read so far. -/
structure Slots where
  next : Option (List TableNode) := none
  rule : Option (Option JoinRule) := none

def Slots.finish (s : Slots) (key : TableKey) : TableNode :=
  { key, next := s.next.getD [], rule := s.rule.join }

mutual

def ofDocument : Document → Decoded TableNode
  | .obj entries => do
    let s ← readEntries {} entries
    return s.finish (← TableKey.ofEntries entries)
  | _ => .error .wrongShape

def readEntries : Slots → List (Option String × Document) → Decoded Slots
  | s, [] => .ok s
  | s, (key, d) :: rest => do
    let s ←
      if key = some "next" then
        match s.next with
        | some _ => throw .wrongShape
        | none => do pure { s with next := some (← ofDocumentNext d) }
      else if key = some "rule" then
        let read := Document.toOption JoinRule.ofDocument
        do pure { s with rule := ← Document.fill s.rule read d }
      else Document.keep s (key, d)
    readEntries s rest

def ofDocumentNext : Document → Decoded (List TableNode)
  | .arr items => ofDocumentList items
  | _ => .error .wrongShape

def ofDocumentList : List Document → Decoded (List TableNode)
  | [] => .ok []
  | d :: rest => do
    let t ← ofDocument d
    let ts ← ofDocumentList rest
    return t :: ts

end

mutual

def toJson : TableNode → Json
  | ⟨key, next, rule⟩ =>
    .obj (key.toFields ++
      (match next with
        | [] => []
        | t :: rest => [("next", .arr (t.toJson :: toJsonList rest))]) ++
      (rule.toList.map fun r => ("rule", r.toJson)))

def toJsonList : List TableNode → List Json
  | [] => []
  | t :: rest => t.toJson :: toJsonList rest

end

end TableNode

namespace Query

structure Slots where
  operation : Option Operation := none
  table : Option TableNode := none
  columns : Option (List ColumnRef) := none
  filters : Option (List ColumnRef) := none
  orderBy : Option (List ColumnRef) := none
  limit : Option UInt64 := none
  offset : Option UInt64 := none

def Slots.read (s : Slots) (entry : Document.Entry) : Decoded Slots :=
  let columns := Document.toList ColumnRef.ofDocument
  match entry with
  | (some "type", d) => do
    return { s with operation := ← Document.fill s.operation Operation.ofDocument d }
  | (some "table", d) => do
    return { s with table := ← Document.fill s.table TableNode.ofDocument d }
  | (some "columns", d) => do return { s with columns := ← Document.fill s.columns columns d }
  | (some "where", d) => do return { s with filters := ← Document.fill s.filters columns d }
  | (some "orderBy", d) => do return { s with orderBy := ← Document.fill s.orderBy columns d }
  | (some "limit", d) => do return { s with limit := ← Document.fill s.limit Document.toUInt64 d }
  | (some "offset", d) => do
    return { s with offset := ← Document.fill s.offset Document.toUInt64 d }
  | entry => Document.skip s entry

def Slots.finish (s : Slots) : Decoded Query := do
  return {
    operation := ← Document.required "type" s.operation
    table := ← Document.required "table" s.table
    columns := s.columns.getD []
    filters := s.filters.getD []
    orderBy := s.orderBy.getD []
    limit := s.limit.getD 0
    offset := s.offset.getD 0 }

def ofItems : List Document → Decoded Query := Document.allItems do
  let operation ← Document.item Operation.ofDocument
  let table ← Document.item TableNode.ofDocument
  let columns ← Document.itemOr [] (Document.toList ColumnRef.ofDocument)
  let filters ← Document.itemOr [] (Document.toList ColumnRef.ofDocument)
  let orderBy ← Document.itemOr [] (Document.toList ColumnRef.ofDocument)
  let limit ← Document.itemOr 0 Document.toUInt64
  let offset ← Document.itemOr 0 Document.toUInt64
  return { operation, table, columns, filters, orderBy, limit, offset }

def ofDocument : Document → Decoded Query
  | .obj entries => do (← entries.foldlM Slots.read {}).finish
  | .arr items => ofItems items
  | _ => .error .wrongShape

def toJson (q : Query) : Json :=
  .obj [("type", q.operation.toJson), ("table", q.table.toJson),
    ("columns", .arr (q.columns.map ColumnRef.toJson)),
    ("where", .arr (q.filters.map ColumnRef.toJson)),
    ("orderBy", .arr (q.orderBy.map ColumnRef.toJson)),
    ("limit", .int q.limit.toNat), ("offset", .int q.offset.toNat)]

end Query

namespace SourceQuery

structure Slots where
  sourceId : Option String := none
  query : Option Query := none

def Slots.read (s : Slots) (entry : Document.Entry) : Decoded Slots :=
  match entry with
  | (some "sourceId", d) => do
    return { s with sourceId := ← Document.fill s.sourceId Document.toText d }
  | (some "query", d) => do return { s with query := ← Document.fill s.query Query.ofDocument d }
  | entry => Document.skip s entry

def Slots.finish (s : Slots) : Decoded SourceQuery := do
  return {
    sourceId := ← Document.required "sourceId" s.sourceId
    query := ← Document.required "query" s.query }

def ofItems : List Document → Decoded SourceQuery := Document.allItems do
  let sourceId ← Document.item Document.toText
  let query ← Document.item Query.ofDocument
  return { sourceId, query }

def ofDocument : Document → Decoded SourceQuery
  | .obj entries => do (← entries.foldlM Slots.read {}).finish
  | .arr items => ofItems items
  | _ => .error .wrongShape

def toJson (r : SourceQuery) : Json :=
  .obj [("sourceId", .str r.sourceId), ("query", r.query.toJson)]

end SourceQuery

end QueryBoard
