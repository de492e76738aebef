import QueryBoard.Db.Cell
import QueryBoard.Db.Error
import QueryBoard.Text.Case

/-!
# Tables and views

A table keeps its rows in the order of their row ids.  A single primary key column of the type
`INTEGER` is the row id itself.  A view shows some columns of a table or of another view.  Names are
the same if they differ in the case of ASCII letters only.
-/

set_option autoImplicit false

namespace QueryBoard.Db

def sameName (a b : String) : Bool := Text.asciiLower a == Text.asciiLower b

/-- The names that every table knows its row ids by, unless a column has the name. -/
def isRowidName (name : String) : Bool := ["rowid", "_rowid_", "oid"].any (sameName name)

structure Column where
  name : String
  type : String := ""
  notNull : Bool := false
  default : Option Cell := none
deriving Repr

def Column.affinity (c : Column) : Affinity := .ofType c.type

structure Row where
  id : Int64
  cells : List Cell
deriving DecidableEq, Repr

structure Table where
  name : String
  columns : List Column
  key : List Nat := []
  /-- Row ids are never used again. -/
  autoincrement : Bool := false
  /-- Sets of columns, by position, in which no two rows agree without a null, in the order of
  definition. -/
  uniques : List (List Nat) := []
  /-- More sets of columns by which rows can be looked up. -/
  indexes : List (List Nat) := []
  rows : List Row := []
  /-- The greatest row id ever used. -/
  lastId : Int64 := 0
deriving Repr

/-- Columns of a table under a name of their own. -/
structure View where
  name : String
  table : String
  columns : List String
deriving Repr

structure Database where
  tables : List Table := []
  views : List View := []
  /-- Why every change is refused, if that is so. -/
  refusal : Option DbError := none
deriving Repr

namespace Table

def index? (t : Table) (name : String) : Option Nat := t.columns.findIdx? (sameName name ·.name)

def rowidColumn? (t : Table) : Option Nat :=
  match t.key with
  | [i] => if t.columns[i]?.any (sameName "INTEGER" ·.type) then some i else none
  | _ => none

end Table

namespace Database

def table? (db : Database) (name : String) : Option Table := db.tables.find? (sameName name ·.name)

def view? (db : Database) (name : String) : Option View := db.views.find? (sameName name ·.name)

def replace (db : Database) (t : Table) : Database :=
  { db with tables := db.tables.map fun u => if u.name = t.name then t else u }

end Database

/-! ## What a query sees -/

inductive Origin where
  | column (i : Nat)
  | rowid
  /-- A query. -/
  | made
deriving DecidableEq, Repr

structure RelationColumn where
  name : String
  type : String
  affinity : Affinity
  origin : Origin
deriving Repr

structure Relation where
  columns : List RelationColumn
  /-- The column that row ids count as, if rows can be asked for them. -/
  rowid : Option RelationColumn
  rows : List Row
  /-- The table whose rows are shown, one by one. -/
  base : Option Table
deriving Repr

def Relation.index? (r : Relation) (name : String) : Option Nat :=
  r.columns.findIdx? (sameName name ·.name)

namespace Table

def relationColumn (t : Table) (c : Column) (i : Nat) : RelationColumn :=
  if t.rowidColumn? = some i then ⟨c.name, c.type, .rowid, .rowid⟩
  else ⟨c.name, c.type, c.affinity, .column i⟩

def relation (t : Table) : Relation :=
  let columns := t.columns.zipIdx.map fun (c, i) => t.relationColumn c i
  { columns
    rowid := some ((t.rowidColumn?.bind (columns[·]?)).getD ⟨"rowid", "INTEGER", .rowid, .rowid⟩)
    rows := t.rows
    base := some t }

end Table

end QueryBoard.Db
