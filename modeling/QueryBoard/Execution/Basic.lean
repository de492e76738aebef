import QueryBoard.Compile.Basic
import QueryBoard.Db.Introspection
import QueryBoard.Query.Wire
import QueryBoard.Response.Basic

/-!
# Executing queries

A query is compiled against the schema of the database that it runs on, and then its statement is
run.  A select counts all its rows in one more column, which no record shows.  A statement that
fails leaves the database as it was, since there is no new state to go on with.
-/

set_option autoImplicit false

namespace QueryBoard

open Db (DbError)

/-- What a connection finds behind its path. -/
inductive Storage where
  | database (db : Db.Database)
  /-- A file that is no database. -/
  | other
deriving Repr

inductive QueryError where
  | decode (e : DecodeError)
  | compile (e : CompileError)
  | execute (e : DbError) (sql : String)
  | connect (e : DbError)
  | schema (e : SchemaError)
deriving DecidableEq, Repr

def QueryError.message : QueryError → String
  | .decode e => "failed to parse query: " ++ e.message
  | .compile e => "failed to parse query: " ++ e.message
  | .execute e sql => "failed to execute query: " ++ e.messageIn sql
  | .connect e => "failed to connect: " ++ e.message
  | .schema e => e.message

namespace Storage

/-- Why every change is refused, if that is so. -/
def refusal : Storage → Option DbError
  | .database db => db.refusal
  | .other => none

/-- The storage as it is for a connection that may refuse changes. -/
def withRefusal (refusal : Option DbError) : Storage → Storage
  | .database db => .database { db with refusal }
  | .other => .other

def open? : Storage → Except DbError Db.Database
  | .database db => .ok db
  | .other => .error .notADatabase

def tables (s : Storage) : Except SchemaError (List Table) :=
  match s.open? with
  | .ok db => db.schema
  | .error e => .error (.unreadable e.message)

def table (s : Storage) : SchemaLookup := fun name =>
  match s.open? with
  | .ok db => db.schemaTable name
  | .error e => .error (.unreadable e.message)

end Storage

def backendDialect : Sql.Dialect := .sqlite

def totalItem : Sql.SelectItem := ⟨.over .countStar, some totalColumn⟩

/-- The statement that is run for a compiled one. -/
def Sql.Statement.withTotal : Sql.Statement → Sql.Statement
  | .select s => .select { s with items := s.items ++ [totalItem] }
  | s => s

/-- The record of a row: every column whose name is not reserved.  Of a name that occurs twice the
first place and the last cell count. -/
def recordOf (columns : List String) (row : List Db.Cell) : Record :=
  ((columns.zip row).filter fun e => !e.1.startsWith reservedStart).foldl
    (fun r e => Json.upsert r e.1 e.2.toJson) []

/-- The total that a row carries; a negative one counts as zero. -/
def totalOf? (columns : List String) (row : List Db.Cell) : Option UInt64 :=
  match (columns.zip row).lookup totalColumn with
  | some (.int n) => some (UInt64.ofNat n.toInt.toNat)
  | _ => none

/-- The data of a result.  Every row carries the total; a page without rows has none to tell. -/
def selectData (rules : Rules) (r : Db.ResultSet) : SelectData :=
  { rules
    data := r.rows.map (recordOf r.columns)
    total := (r.rows.getLast?.bind (totalOf? r.columns)).getD 0 }

/-- The outcome of a query: its data or error, and the text of the statement if there was one. -/
structure Outcome where
  result : Except QueryError (Option SelectData)
  rawSql : Option String

def Outcome.failed (e : QueryError) (rawSql : Option String) : Outcome := ⟨.error e, rawSql⟩

def Outcome.response (o : Outcome) : QueryResponse :=
  match o.result with
  | .ok data => { data, rawSql := o.rawSql }
  | .error e => { err := some e.message, rawSql := o.rawSql }

/-- Runs a statement on a database, giving the data of a select and the new state. -/
def runStatement (rules : Rules) (db : Db.Database) :
    Sql.Statement → Except DbError (Option SelectData × Db.Database)
  | .select s => do return (some (selectData rules (← db.select s)), db)
  | .insert s => do return (none, (← db.insert s).1)
  | .update s => do return (none, (← db.update s).1)
  | .delete s => do return (none, (← db.delete s).1)

namespace Storage

def execute (s : Storage) (q : Query) : Outcome × Storage :=
  match q.compile backendDialect s.table with
  | .error e => (.failed (.compile e) none, s)
  | .ok c =>
    let statement := c.statement.withTotal
    let sql := statement.text backendDialect
    let run : Except DbError (Option SelectData × Db.Database) := do
      runStatement c.rules (← s.open?) statement
    match run with
    | .ok (data, db) => (⟨.ok data, some sql⟩, .database db)
    | .error e => (.failed (.execute e sql) (some sql), s)

def executeText (s : Storage) (text : String) : Outcome × Storage :=
  match Document.decodeText Query.ofDocument text with
  | .ok q => s.execute q
  | .error e => (.failed (.decode e) none, s)

end Storage

/-- The aggregates that there are for columns of each type. -/
def functions : List (SemanticType × List Aggregate) := [(.number, Aggregate.all)]

def functionsJson : Json :=
  .obj (functions.map fun e => (e.1.name, Json.ofTexts (e.2.map (·.name))))

end QueryBoard
