import QueryBoard.Schema.NativeType

/-!
# Schemas

Tables and columns of a source, as far as compiling queries needs them, and looking tables up by
name.  A `Catalog` answers look-ups from a fixed list; a live database answers them from what it
holds, which may fail in a way of its own.
-/

set_option autoImplicit false

namespace QueryBoard

structure Column where
  name : String
  type : SemanticType := .unsupported
  /-- Every row has to give a value for the column. -/
  required : Bool := false
  primaryKey : Bool := false
deriving DecidableEq, Repr, Inhabited

structure Table where
  name : String
  columns : List Column
deriving DecidableEq, Repr

/-- The first column that is part of the primary key. -/
def Table.primaryKey? (t : Table) : Option Column := t.columns.find? (·.primaryKey)

inductive SchemaError where
  | tableNotFound (name : String)
  /-- The database cannot be read, with its own words why. -/
  | unreadable (reason : String)
deriving DecidableEq, Repr

def SchemaError.message : SchemaError → String
  | .tableNotFound name => "table not exists: " ++ name
  | .unreadable reason => "SQLite error: " ++ reason

abbrev SchemaLookup := String → Except SchemaError Table

abbrev Catalog := List Table

/-- The first table of exactly that name. -/
def Catalog.table (c : Catalog) : SchemaLookup := fun name =>
  match List.find? (·.name == name) c with
  | some t => .ok t
  | none => .error (.tableNotFound name)

end QueryBoard
