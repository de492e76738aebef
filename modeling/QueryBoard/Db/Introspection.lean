import QueryBoard.Db.Write
import QueryBoard.Schema.Basic

/-!
# The schema of a database

The database answers with one row for every column of every table and view, in the order of their
names, and the rows of a table follow each other.  A column is required when it refuses null and has
no default.  A view that leads to no table leaves the schema unreadable.
-/

set_option autoImplicit false

namespace QueryBoard.Db

/-- Whether a name is one of those that the database keeps for itself. -/
def isInternal (name : String) : Bool :=
  (name.toList.take 7).map Char.toLower == "sqlite_".toList

def Table.schemaColumns (t : Table) : List QueryBoard.Column :=
  t.columns.zipIdx.map fun (c, i) =>
    { name := c.name
      type := .ofNative c.type
      required := c.notNull && c.default.isNone
      primaryKey := i ∈ t.key }

/-- The columns of a relation, of which only names and types are known. -/
def Relation.schemaColumns (r : Relation) : List QueryBoard.Column :=
  r.columns.map fun c => { name := c.name, type := .ofNative c.type }

/-! ## Rows -/

structure SchemaRow where
  table : String
  column : QueryBoard.Column
deriving DecidableEq, Repr

namespace SchemaRow

def ofTable (t : QueryBoard.Table) : List SchemaRow := t.columns.map (SchemaRow.mk t.name)

/-- The order of rows: by table and then by column. -/
def before (a b : SchemaRow) : Bool :=
  if a.table = b.table then a.column.name ≤ b.column.name else a.table < b.table

/-- Takes a row into the latest table if it has its name, or into a new one.  The latest table comes
first. -/
def collect (r : SchemaRow) : List QueryBoard.Table → List QueryBoard.Table
  | [] => [⟨r.table, [r.column]⟩]
  | t :: rest =>
    if t.name = r.table then { t with columns := t.columns ++ [r.column] } :: rest
    else ⟨r.table, [r.column]⟩ :: t :: rest

def tables (rows : List SchemaRow) : List QueryBoard.Table :=
  (rows.foldl (fun tables r => collect r tables) []).reverse

end SchemaRow

namespace Database

/-- The tables and views whose names pass a test, columns as they are defined. -/
def schemaTables (db : Database) (looked : String → Bool) :
    Except DbError (List QueryBoard.Table) := do
  let views ← (db.views.filter (looked ·.name)).mapM fun v => do
    return ⟨v.name, (← db.relationOf v).schemaColumns⟩
  return ((db.tables.filter (looked ·.name)).map fun t => ⟨t.name, t.schemaColumns⟩) ++ views

/-- The rows of all tables and views, or of the one with a name. -/
def schemaRows (db : Database) (only : Option String) : Except DbError (List SchemaRow) := do
  let tables ← db.schemaTables fun name => !isInternal name && only.all (· == name)
  return (tables.flatMap SchemaRow.ofTable).mergeSort SchemaRow.before

def toSchemaError (e : DbError) : SchemaError := .unreadable e.message

def readTables (db : Database) (only : Option String) : Except SchemaError (List QueryBoard.Table) :=
  (SchemaRow.tables <$> db.schemaRows only).mapError toSchemaError

/-- The schema in the order of names. -/
def schema (db : Database) : Except SchemaError (List QueryBoard.Table) := db.readTables none

/-- The table or view of exactly a name. -/
def schemaTable (db : Database) : SchemaLookup := fun name => do
  match ← db.readTables (some name) with
  | t :: _ => return t
  | [] => throw (.tableNotFound name)

end Database

end QueryBoard.Db
