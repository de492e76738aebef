import QueryBoard.Schema.Basic
import QueryBoard.Value

/-!
# Queries

A query is data: what is done, to which tree of joined tables, with which columns, conditions and
order.  A table occurs in the tree under an alias, its name or, for further occurrences, its name
with a number.  Columns name the occurrence that they belong to.
-/

set_option autoImplicit false

namespace QueryBoard

inductive Operation where
  | select
  | insert
  | update
  | delete
deriving DecidableEq, Repr

namespace Operation

def name : Operation → String
  | .select => "select"
  | .insert => "insert"
  | .update => "update"
  | .delete => "delete"

def parse (s : String) : Except UnknownWord Operation :=
  if s = "select" then .ok .select
  else if s = "insert" then .ok .insert
  else if s = "update" then .ok .update
  else if s = "delete" then .ok .delete
  else .error ⟨.operation, s⟩

end Operation

inductive JoinKind where
  | inner
  | left
  | right
deriving DecidableEq, Repr

namespace JoinKind

def name : JoinKind → String
  | .inner => "inner"
  | .left => "left"
  | .right => "right"

/-- The inner join has a second name. -/
def parse (s : String) : Except UnknownWord JoinKind :=
  if s = "inner" ∨ s = "join" then .ok .inner
  else if s = "left" then .ok .left
  else if s = "right" then .ok .right
  else .error ⟨.join, s⟩

end JoinKind

inductive Aggregate where
  | avg
  | count
  | sum
  | max
  | min
deriving DecidableEq, Repr

namespace Aggregate

def name : Aggregate → String
  | .avg => "avg"
  | .count => "count"
  | .sum => "sum"
  | .max => "max"
  | .min => "min"

/-- Every aggregate, in the order in which they are listed. -/
def all : List Aggregate := [.avg, .count, .sum, .max, .min]

def parse (s : String) : Except UnknownWord Aggregate :=
  match all.find? (·.name == s) with
  | some f => .ok f
  | none => .error ⟨.aggregate, s⟩

end Aggregate

/-- One occurrence of a table in a query. -/
structure TableKey where
  name : String
  increment : UInt8 := 0
deriving DecidableEq, Repr, Inhabited

def TableKey.label (k : TableKey) : String :=
  if k.increment = 0 then k.name else k.name ++ "_" ++ toString k.increment.toNat

/-- Open annotations of a column: the key that groups output columns, the sort direction, and
anything else. -/
structure Payload where
  metaKey : Option String := none
  order : Option String := none
  extra : List (String × Json) := []
deriving DecidableEq, Repr, Inhabited

structure ColumnRef where
  column : Column
  tableKey : TableKey := ⟨"", 0⟩
  func : Option Aggregate := none
  payload : Payload := {}
  value : Option Value := none
deriving DecidableEq, Repr, Inhabited

namespace ColumnRef

def name (c : ColumnRef) : String := c.column.name

def named (name : String) : ColumnRef := { column := { name } }

def of (key : TableKey) (name : String) : ColumnRef := { named name with tableKey := key }

def withFunc (c : ColumnRef) (f : Aggregate) : ColumnRef := { c with func := some f }

def withMetaKey (c : ColumnRef) (key : String) : ColumnRef :=
  { c with payload := { c.payload with metaKey := some key } }

def withOrder (c : ColumnRef) (order : String) : ColumnRef :=
  { c with payload := { c.payload with order := some order } }

def withValue (c : ColumnRef) (v : Value) : ColumnRef := { c with value := some v }

def asPrimaryKey (c : ColumnRef) : ColumnRef :=
  { c with column := { c.column with primaryKey := true } }

def label (c : ColumnRef) : String := c.tableKey.label

/-- The key that the column's output belongs to; empty when it has none. -/
def metaKey (c : ColumnRef) : String := c.payload.metaKey.getD ""

/-- The name of the output column: alias and name with a point between them, after the aggregate
if there is one. -/
def outputName (c : ColumnRef) : String :=
  match c.func with
  | some f => f.name ++ " " ++ c.label ++ "." ++ c.name
  | none => c.label ++ "." ++ c.name

end ColumnRef

/-- A condition that relates a column of the parent (left) to one of the child (right). -/
structure JoinCondition where
  left : ColumnRef
  right : ColumnRef
  operator : String
deriving DecidableEq, Repr

def JoinCondition.of (left operator right : String) : JoinCondition :=
  { left := .named left, right := .named right, operator }

/-- How a table joins its parent: the kind of join, and conditions that hold together. -/
structure JoinRule where
  kind : JoinKind
  conditions : List JoinCondition := []
deriving DecidableEq, Repr

/-- A table with the tables that join it.  Every table but the root has a rule. -/
structure TableNode where
  key : TableKey
  next : List TableNode := []
  rule : Option JoinRule := none
deriving Repr, Inhabited

namespace TableNode

def label (t : TableNode) : String := t.key.label

mutual

/-- The aliases of the tree, each table before the tables that join it. -/
def aliases : TableNode → List String
  | ⟨key, next, _⟩ => key.label :: aliasesList next

def aliasesList : List TableNode → List String
  | [] => []
  | t :: rest => t.aliases ++ aliasesList rest

end

end TableNode

structure Query where
  operation : Operation
  table : TableNode
  columns : List ColumnRef := []
  filters : List ColumnRef := []
  orderBy : List ColumnRef := []
  /-- At most so many rows; zero is no limit. -/
  limit : UInt64 := 0
  offset : UInt64 := 0
deriving Repr

structure SourceQuery where
  sourceId : String
  query : Query
deriving Repr

end QueryBoard
