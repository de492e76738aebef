import QueryBoard.Db.Error
import QueryBoard.Hierarchy.Nodes
import QueryBoard.Source.Disk

/-!
# Why the store refuses something
-/

set_option autoImplicit false

namespace QueryBoard

inductive StoreError where
  /-- A statement fails, or a stored number does not fit where it is read into. -/
  | database (e : Db.DbError)
  | query (e : Db.DbError) (text : String)
  | document
  | file (e : FileError)
  | tree (e : TreeError)
  | notFound (id : String)
deriving DecidableEq, Repr

def StoreError.message : StoreError → String
  | .database e => "SQLite error: " ++ e.message
  | .query e text => "SQLite error: " ++ e.messageIn text
  | .document => "JSON serialization error"
  | .file e => "IO error: " ++ e.message
  | .tree e => e.message
  | .notFound id => "entity not found: " ++ id

/-- A reader finds no row for the id that it is asked for. -/
def StoreError.ofTree : TreeError → StoreError
  | .notFound id => .notFound id
  | e => .tree e

end QueryBoard
