import QueryBoard.Compile.Error
import QueryBoard.Compile.Rules
import QueryBoard.Query.Basic
import QueryBoard.Sql.Write

/-!
# Compiling queries

A query becomes a SQL statement with parameters, and a select also yields its rules.  The schema
is asked for one thing only: the primary key of the root table, when the query does not show it
itself.  Nothing is run here.

Faults are found in this order: an alias used twice; a table of the tree without a proper join
rule, in the order of the tree; a column of an unknown table, in the order of conditions, ordering
and columns; a failing look-up of the root table.
-/

set_option autoImplicit false

namespace QueryBoard

/-- The column that counts all rows of a result. -/
def totalColumn : String := "$$total"

/-- Output columns whose name starts like this are no data of the user. -/
def reservedStart : String := "$$"

/-- The column that carries the primary key of the root table. -/
def rootIdColumn : String := "$root_id"

structure Compiled where
  operation : Operation
  dialect : Sql.Dialect
  statement : Sql.Statement
  rules : Rules

namespace Compiled

def text (c : Compiled) : String := c.statement.text c.dialect

def params (c : Compiled) : List Value := c.statement.params

end Compiled

abbrev Compiling (α : Type) := Except CompileError α

/-- The comparisons that may relate two tables. -/
def joinOperator (op : String) : Compiling Sql.BinaryOp :=
  if op = "=" then .ok .eq
  else if op = "<>" ∨ op = "!=" then .ok .ne
  else if op = "<" then .ok .lt
  else if op = ">" then .ok .gt
  else if op = "<=" then .ok .le
  else if op = ">=" then .ok .ge
  else .error (.unsupportedOperator op)

def JoinKind.joinType : JoinKind → Sql.JoinType
  | .inner => .inner
  | .left => .left
  | .right => .right

def firstRepeated? (seen : List String) : List String → Option String
  | [] => none
  | a :: rest => if a ∈ seen then some a else firstRepeated? (a :: seen) rest

def TableNode.checkAliases (t : TableNode) : Compiling Unit :=
  match firstRepeated? [] t.aliases with
  | some a => .error (.duplicateAlias a)
  | none => .ok ()

def JoinCondition.predicate (parent child : String) (c : JoinCondition) : Compiling Sql.Expr := do
  let op ← joinOperator c.operator
  return .binary op (.tableCol parent c.left.name) (.tableCol child c.right.name)

def TableNode.join (parent : String) (key : TableKey) (rule : Option JoinRule) :
    Compiling Sql.Join := do
  match rule with
  | none => throw (.missingJoinRule key.label)
  | some r =>
    let predicates ← r.conditions.mapM (JoinCondition.predicate parent key.label)
    match Sql.Expr.conjunction predicates with
    | none => throw (.emptyJoinCondition key.label)
    | some condition =>
      return { type := r.kind.joinType, table := ⟨key.name, some key.label⟩, condition }

namespace TableNode

mutual

/-- The joins below a table: each joining table, then what joins that table. -/
def joins : TableNode → Compiling (List Sql.Join)
  | ⟨key, next, _⟩ => joinsTo key.label next

def joinsTo (parent : String) : List TableNode → Compiling (List Sql.Join)
  | [] => .ok []
  | ⟨key, next, rule⟩ :: rest => do
    let j ← TableNode.join parent key rule
    let below ← joinsTo key.label next
    let after ← joinsTo parent rest
    return j :: below ++ after

end

end TableNode

namespace ColumnRef

def checkTable (aliases : List String) (c : ColumnRef) : Compiling Unit :=
  if c.label ∈ aliases then .ok () else .error (.unknownTable c.label c.name)

def qualified (c : ColumnRef) : Sql.Expr := .tableCol c.label c.name

/-- The column, inside its aggregate if it has one. -/
def projected (c : ColumnRef) : Sql.Expr :=
  match c.func with
  | some f => .call f.name [c.qualified]
  | none => c.qualified

def selectItem (c : ColumnRef) : Sql.SelectItem := ⟨c.projected, some c.outputName⟩

/-- Descending only when the payload says exactly `DESC`. -/
def orderItem (c : ColumnRef) : Sql.OrderItem :=
  ⟨c.projected, if c.payload.order = some "DESC" then .desc else .asc⟩

/-- The condition that a column's value puts on an expression: membership for a list, equality
for any other value. -/
def condition? (target : Sql.Expr) (c : ColumnRef) : Option Sql.Expr :=
  match c.value with
  | none => none
  | some (.list items) => some (.member false target (items.map .param))
  | some v => some (.eq target (.param v))

/-- The value that an insert or update gives to the column; absent is null. -/
def assigned (c : ColumnRef) : Compiling Sql.Expr :=
  match c.value with
  | some (.list _) => .error (.invalidValue c.name)
  | some v => .ok (.param v)
  | none => .ok (.param .null)

end ColumnRef

namespace Query

/-- The output columns by key, in the order of projection. -/
def rules (q : Query) : Rules :=
  q.columns.foldl (fun r c => r.add c.metaKey c.outputName) []

def hasAggregate (q : Query) : Bool := q.columns.any (·.func.isSome)

/-- The primary key column of the root table: one that the query projects and marks as such, else
the one that the schema has. -/
def rootKey? (schema : SchemaLookup) (q : Query) : Compiling (Option String) :=
  let shown := q.columns.find? fun c =>
    c.func.isNone && c.column.primaryKey && c.label == q.table.label
  match shown with
  | some c => .ok (some c.name)
  | none =>
    match schema q.table.key.name with
    | .ok t => .ok (t.primaryKey?.map (·.name))
    | .error e => .error (.schema e)

def rootItem (q : Query) (key : String) : Sql.SelectItem :=
  ⟨.tableCol q.table.label key, some rootIdColumn⟩

/-- The items for the primary key of the root table; none where rows are grouped. -/
def rootItems (schema : SchemaLookup) (q : Query) : Compiling (List Sql.SelectItem) :=
  if q.hasAggregate then .ok []
  else (fun key : Option String => key.toList.map q.rootItem) <$> q.rootKey? schema

/-- The columns whose tables have to be in the tree, in the order in which they are looked at. -/
def checkedColumns (q : Query) : List ColumnRef := q.filters ++ q.orderBy ++ q.columns

def selectBlock (q : Query) (joins : List Sql.Join) (rootItems : List Sql.SelectItem) :
    Sql.Select where
  items := q.columns.map ColumnRef.selectItem ++ rootItems
  source := some ⟨q.table.key.name, some q.table.label⟩
  joins
  filters := q.filters.filterMap fun c => c.condition? c.qualified
  groupBy :=
    if q.hasAggregate then (q.columns.filter (·.func.isNone)).map ColumnRef.projected else []
  orderBy := q.orderBy.map ColumnRef.orderItem
  limit := if q.limit = 0 then none else some q.limit
  offset := if q.limit = 0 then none else some q.offset

def compileSelect (schema : SchemaLookup) (q : Query) : Compiling Sql.Select := do
  q.table.checkAliases
  let joins ← q.table.joins
  q.checkedColumns.forM (·.checkTable q.table.aliases)
  let rootItems ← q.rootItems schema
  return q.selectBlock joins rootItems

/-- The conditions of an update or delete, on columns without a table. -/
def writeFilters (q : Query) : List Sql.Expr :=
  q.filters.filterMap fun c => c.condition? (.col c.name)

/-- The values that an insert or update writes to its columns, of which there has to be one. -/
def writtenValues (what : String) (q : Query) : Compiling (List Sql.Expr) :=
  if q.columns.isEmpty then .error (.noColumns what) else q.columns.mapM ColumnRef.assigned

def compileInsert (q : Query) : Compiling Sql.Insert := do
  let values ← q.writtenValues "insert"
  return { table := q.table.key.name, columns := q.columns.map (·.name), rows := [values] }

def compileUpdate (q : Query) : Compiling Sql.Update := do
  let values ← q.writtenValues "update"
  return {
    table := q.table.key.name
    assignments := (q.columns.map (·.name)).zip values
    filters := q.writeFilters }

def compileDelete (q : Query) : Sql.Delete :=
  { table := q.table.key.name, filters := q.writeFilters }

def statement (schema : SchemaLookup) (q : Query) : Compiling Sql.Statement :=
  match q.operation with
  | .select => .select <$> q.compileSelect schema
  | .insert => .insert <$> q.compileInsert
  | .update => .update <$> q.compileUpdate
  | .delete => .ok (.delete q.compileDelete)

def compile (dialect : Sql.Dialect) (schema : SchemaLookup) (q : Query) : Compiling Compiled := do
  let statement ← q.statement schema
  return {
    operation := q.operation
    dialect
    statement
    rules := if q.operation = .select then q.rules else [] }

end Query

end QueryBoard
