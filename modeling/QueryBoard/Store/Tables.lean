import QueryBoard.Db.Recursion
import QueryBoard.Store.Read
import QueryBoard.Store.Statements

/-!
# The store in a database

The store has a table for each kind of row, with a column for each field.  Tables that are missing
are made when the store is opened; those that are there may have been made by others, so any cell
may stand where a text or a number is read.
-/

set_option autoImplicit false

namespace QueryBoard

namespace Db

/-! ## Making tables and indexes -/

/-- The table of a definition, unless there is one of its name or a view. -/
def Database.ensureTable (db : Database) (t : Table) : Except DbError Database := do
  if (db.table? t.name).isSome || (db.view? t.name).isSome then return db
  db.checkChange
  return { db with tables := db.tables ++ [t] }

structure Index where
  name : String
  table : String
  column : String
deriving DecidableEq, Repr

/-- The statement that makes an index, up to the name of the column. -/
def Index.front (i : Index) : String :=
  "CREATE INDEX IF NOT EXISTS " ++ i.name ++ " ON " ++ i.table ++ " ("

def Index.text (i : Index) : String := i.front ++ i.column ++ ");"

/-- Makes an index.  A fault in its column is at an offset in the text of the statement, which
starts after `before` bytes. -/
def Database.addIndex (db : Database) (before : Nat) (i : Index) : Except DbError Database := do
  match db.table? i.table with
  | none => throw (if (db.view? i.table).isSome then .indexedView else .noSuchTable i.table)
  | some t =>
    if (db.table? i.name).isSome || (db.view? i.name).isSome then throw (.tableNamed i.name)
    match t.index? i.column with
    | none => throw (.noSuchColumn none i.column (some (before + i.front.utf8ByteSize)))
    | some column =>
      db.checkChange
      return db.replace { t with indexes := t.indexes ++ [[column]] }

/-! ## Reading cells -/

def Cell.kindName : Cell → String
  | .null => "Null"
  | .int _ => "Integer"
  | .real _ => "Real"
  | .text _ => "Text"
  | .blob _ => "Blob"

/-- The text in a cell of a result, which has to be well formed. -/
def Cell.toText (column : Nat) (name : String) : Cell → Except DbError String
  | .text bytes =>
    match Text.Utf8.strict? bytes, Text.Utf8.faultFrom? 0 bytes with
    | some s, _ => .ok s
    | none, some (start, size) => .error (.malformedText column start size)
    | none, none => .error .unsupported
  | c => .error (.wrongKind c.kindName column name)

def Cell.toText? (column : Nat) (name : String) : Cell → Except DbError (Option String)
  | .null => .ok none
  | c => some <$> c.toText column name

def Cell.toUInt32 (column : Nat) (name : String) : Cell → Except DbError UInt32
  | .int n =>
    if 0 ≤ n.toInt ∧ n.toInt < UInt32.size then .ok (UInt32.ofNat n.toInt.toNat)
    else .error (.outOfRange n.toInt column)
  | c => .error (.wrongKind c.kindName column name)

structure ResultRow where
  columns : List String
  cells : List Cell

namespace ResultRow

def text (r : ResultRow) (i : Nat) : Except DbError String :=
  (r.cells.getD i .null).toText i (r.columns.getD i "")

def text? (r : ResultRow) (i : Nat) : Except DbError (Option String) :=
  (r.cells.getD i .null).toText? i (r.columns.getD i "")

def number (r : ResultRow) (i : Nat) : Except DbError UInt32 :=
  (r.cells.getD i .null).toUInt32 i (r.columns.getD i "")

end ResultRow

end Db

open Db (DbError)

def StoredWidget.ofRow (r : Db.ResultRow) : Except DbError StoredWidget := do
  return {
    id := ← r.text 0, name := ← r.text 1, kind := ← r.text 2
    props := ← r.text? 3, query := ← r.text? 4, parent := ← r.text? 5 }

def LoadedRow.ofRow (r : Db.ResultRow) : Except DbError LoadedRow := do
  let dashboard := { id := ← r.text 0, name := ← r.text 1 }
  let id ← r.text 2
  let name ← r.text 3
  let kind ← r.text 4
  let parent ← r.text? 5
  let props ← r.text? 6
  let query ← r.text? 7
  return {
    dashboard
    widget := { id, name, kind, props, query, parent }
    layout := { x := ← r.number 8, y := ← r.number 9, w := ← r.number 10, h := ← r.number 11 } }

/-- A store whose rows are in the tables of a database. -/
structure TableStore where
  database : Db.Database

namespace TableStore

def textColumn (name : String) : Db.Column := { name, type := "TEXT" }

def requiredColumn (name : String) : Db.Column := { textColumn name with notNull := true }

def widgets : Db.Table :=
  { name := Store.widgetTable
    columns := [textColumn "id", requiredColumn "name", requiredColumn "type", textColumn "props",
      textColumn "query", textColumn "parent_id"]
    key := [0], uniques := [[0]] }

def dashboards : Db.Table :=
  { name := Store.dashboardTable, columns := [textColumn "id", requiredColumn "name"]
    key := [0], uniques := [[0]] }

def placements : Db.Table :=
  let side (name : String) : Db.Column :=
    { name, type := "INTEGER", notNull := true, default := some (.int 0) }
  { name := Store.placementTable
    columns := [requiredColumn "dashboard_id", requiredColumn "widget_id"] ++
      Store.layoutColumns.map side }

def tables : List Db.Table := [widgets, dashboards, placements]

def indexes : List Db.Index :=
  [⟨"widget_parent", Store.widgetTable, "parent_id"⟩,
    ⟨"dashboard_widget_dashboard", Store.placementTable, "dashboard_id"⟩]

/-- What sets the statements apart that make the indexes. -/
def indent : String := "\n            "

/-- Makes indexes one after the other.  An error is told with the text from its statement on, which
comes after some blanks. -/
def addIndexes (db : Db.Database) : String → List Db.Index → Except StoreError Db.Database
  | _, [] => .ok db
  | blank, i :: rest => do
    let text := blank ++ indent.intercalate ((i :: rest).map Db.Index.text) ++ indent
    addIndexes (← (db.addIndex blank.utf8ByteSize i).mapError (.query · text)) indent rest

/-- A store in a database.  What is missing of it is made. -/
def ofDatabase (db : Db.Database) : Except StoreError TableStore := do
  let db ← (tables.foldlM Db.Database.ensureTable db).mapError .database
  return { database := ← addIndexes db ("\n" ++ indent) indexes }

/-- The store at a path.  Directories that are missing on the way to it are made first. -/
def openPath (disk : Disk) (path : String) : Except StoreError TableStore := do
  let disk ← (disk.makeParent path).mapError .file
  let opened : Except DbError Db.Database := do (← disk.storage path).open?
  ofDatabase (← opened.mapError .database)

/-- The rows of a query, each read before the next one. -/
def load {α : Type} (s : TableStore) (q : Sql.Query)
    (read : Db.ResultRow → Except DbError α) : Except StoreError (List α) :=
  let loaded : Except DbError (List α) := do
    let r ← s.database.query q
    r.rows.mapM fun cells => read { columns := r.columns, cells }
  loaded.mapError (.query · (q.tokens.text .sqlite))

def allWidgets (s : TableStore) : Except StoreError (List Widget) := do
  readWidgets (← s.load Store.widgetsQuery StoredWidget.ofRow)

def widget (s : TableStore) (id : String) : Except StoreError Widget := do
  readWidget (← s.load (Store.subtreeQuery id) StoredWidget.ofRow) id

def allDashboards (s : TableStore) : Except StoreError (List Dashboard) := do
  readDashboards (← s.load (Store.dashboardsQuery none) LoadedRow.ofRow)

def dashboard (s : TableStore) (id : String) : Except StoreError Dashboard := do
  readDashboard (← s.load (Store.dashboardsQuery (some id)) LoadedRow.ofRow) id

end TableStore

end QueryBoard
