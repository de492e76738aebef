import QueryBoard.Db.Select

/-!
# Running INSERT, UPDATE and DELETE statements

A statement changes all rows that it is about or, when one of them breaks a constraint, none.  For
each row the type of its row id is looked at first, then null in columns that refuse it, then row
ids and other sets of columns that must differ from those of other rows.
-/

set_option autoImplicit false

namespace QueryBoard.Db

/-- Where an assignment puts its cell: into a column, or into the row id. -/
inductive Target where
  | column (i : Nat)
  | rowid
deriving DecidableEq, Repr

namespace Table

def target? (t : Table) (name : String) : Option Target :=
  match t.index? name with
  | some i => if t.rowidColumn? = some i then some .rowid else some (.column i)
  | none => if isRowidName name then some .rowid else none

/-- The name that messages call the row id by. -/
def rowidName (t : Table) : String :=
  ((t.rowidColumn?.bind (t.columns[·]?)).map (·.name)).getD "rowid"

def columnName (t : Table) (i : Nat) : String := (t.columns[i]?.map (·.name)).getD ""

def toRowid (c : Cell) : Except DbError Int64 :=
  match c.rowid? with
  | some n => .ok n
  | none => .error .datatypeMismatch

/-- The first row id from a given one on that no row has. -/
def freeId (t : Table) (id : Int64) : Int64 :=
  t.rows.foldl (fun id r => if r.id == id then id + 1 else id) id

/-- The row id that a new row gets by itself: the one after the greatest, if there is one. -/
def nextId (t : Table) : Except DbError Int64 :=
  let top := t.rows.getLast?.map (·.id.toInt)
  let last : Int := match t.autoincrement, top with
    | true, some n => max n t.lastId.toInt
    | true, none => t.lastId.toInt
    | false, some n => n
    | false, none => 0
  if last + 1 < Int.pow 2 63 then .ok (Int64.ofInt (last + 1))
  else if t.autoincrement then .error .full
  -- Any free id does as well; the search starts far from both ends.
  else .ok (t.freeId (Int64.ofInt (Int.pow 2 61)))

/-- Refuses null in columns that must not hold it, of those that are looked at. -/
def checkNotNull (t : Table) (looked : Nat → Bool) (cells : List Cell) : Except DbError Unit :=
  match (t.columns.zip cells).zipIdx.find? fun e =>
      looked e.2 && t.rowidColumn? != some e.2 && e.1.1.notNull && e.1.2.isNull with
  | some e => .error (.notNull t.name e.1.1.name)
  | none => .ok ()

/-- Whether two rows agree in columns, none of them null. -/
def agree (columns : List Nat) (a b : List Cell) : Bool :=
  columns.all fun i =>
    let x := a.getD i .null
    let y := b.getD i .null
    !x.isNull && !y.isNull && x.compare y == .eq

/-- Refuses a row that is too much like one of the others. -/
def checkUnique (t : Table) (others : List Row) (row : Row) : Except DbError Unit :=
  if others.any (·.id == row.id) then .error (.unique t.name [t.rowidName])
  else
    -- The set that was defined last is looked at first.
    match t.uniques.reverse.find? fun set => others.any fun o => agree set o.cells row.cells with
    | some set => .error (.unique t.name (set.map t.columnName))
    | none => .ok ()

/-- A row with its row id among the cells, if a column is the row id. -/
def withId (t : Table) (row : Row) : Row :=
  match t.rowidColumn? with
  | some i => { row with cells := row.cells.set i (.int row.id) }
  | none => row

/-- Puts a row in its place among rows in the order of their ids. -/
def place (row : Row) : List Row → List Row
  | [] => [row]
  | r :: rest => if row.id < r.id then row :: r :: rest else r :: place row rest

/-- The cells of a new row: those that are given, else the defaults. -/
def newCells (t : Table) (given : List (Target × Cell)) : List Cell :=
  t.columns.zipIdx.map fun (c, i) =>
    c.affinity.store ((given.lookup (.column i)).getD (c.default.getD .null))

/-- The row id of a new row: the last one given, unless that is null. -/
def newId (t : Table) (given : List (Target × Cell)) : Except DbError Int64 :=
  match given.reverse.lookup .rowid with
  | none | some .null => t.nextId
  | some c => toRowid c

def insert (t : Table) (given : List (Target × Cell)) : Except DbError Table := do
  let id ← t.newId given
  let row := t.withId { id, cells := t.newCells given }
  t.checkNotNull (fun _ => true) row.cells
  t.checkUnique t.rows row
  return { t with
    rows := place row t.rows
    lastId := if t.autoincrement && t.lastId < id then id else t.lastId }

/-- A row after assignments, of which the last one to a target counts. -/
def changed (t : Table) (given : List (Target × Cell)) (row : Row) : Except DbError Row := do
  let id ← match given.reverse.lookup .rowid with
    | some c => toRowid c
    | none => pure row.id
  let cells := (t.columns.zip row.cells).zipIdx.map fun (e, i) =>
    match given.reverse.lookup (.column i) with
    | some c => e.1.affinity.store c
    | none => e.2
  return t.withId { id, cells }

def update (given : List (Target × Cell)) (t : Table) (row : Row) : Except DbError Table := do
  let new ← t.changed given row
  let others := t.rows.filter (·.id != row.id)
  t.checkNotNull (fun i => given.any (·.1 == .column i)) new.cells
  t.checkUnique others new
  return { t with rows := place new others }

/-- Looks up a column of the only table of a statement.  What names nothing is a text. -/
def names (t : Table) : Names := fun _ column =>
  match t.relation.slot? 0 column with
  | some s => .ok (.slot s)
  | none => .ok (.cell (Cell.ofString column))

def matching (t : Table) (filters : List Term) : List Row :=
  t.rows.filter fun r => filters.all (holds · [some r])

end Table

namespace Database

/-- The tables in which a database keeps its own definitions, by the names that they are known
by. -/
def definitionTables : List (String × String) :=
  [("sqlite_master", "sqlite_master"), ("sqlite_schema", "sqlite_master"),
    ("sqlite_temp_master", "sqlite_temp_master"), ("sqlite_temp_schema", "sqlite_temp_master")]

def writable (db : Database) (name : String) : Except DbError Table :=
  match db.table? name, db.view? name with
  | some t, _ => .ok t
  | none, some v => do
    let _ ← db.relationOf v
    throw (.readOnlyView v.name)
  | none, none =>
    match definitionTables.lookup (Text.asciiLower name) with
    | some own => .error (.reserved own)
    | none => .error (.noSuchTable name)

def checkChange (db : Database) : Except DbError Unit :=
  match db.refusal with
  | some e => .error e
  | none => .ok ()

def constant (e : Sql.Expr) : Except DbError Cell := do
  (← resolve (fun table column => .error (.noSuchColumn table column none)) e).onRow 0 []

def insert (db : Database) (s : Sql.Insert) : Except DbError (Database × Nat) := do
  checkText s.tokens 1 []
  let t ← db.writable s.table
  let targets ← s.columns.mapM fun c =>
    match t.target? c with
    | some target => .ok target
    | none => throw (.noColumnNamed s.table c)
  let rows ← s.rows.mapM fun row => row.mapM constant
  checkParams (Sql.Tokens.params s.tokens)
  db.checkChange
  let t ← rows.foldlM (fun t cells => Table.insert t (targets.zip cells)) t
  return (db.replace t, rows.length)

def update (db : Database) (s : Sql.Update) : Except DbError (Database × Nat) := do
  Limit.assignments.check s.assignments.length
  checkText s.tokens 1 s.filters
  let t ← db.writable s.table
  let given ← s.assignments.mapM fun a => do
    let cell ← constant a.2
    match t.target? a.1 with
    | some target => return (target, cell)
    | none => throw (.noSuchColumn none a.1 none)
  let filters ← resolveList t.names s.filters
  checkParams (Sql.Tokens.params s.tokens)
  db.checkChange
  let rows := t.matching filters
  return (db.replace (← rows.foldlM (Table.update given) t), rows.length)

def delete (db : Database) (s : Sql.Delete) : Except DbError (Database × Nat) := do
  checkText s.tokens 1 s.filters
  let t ← db.writable s.table
  let filters ← resolveList t.names s.filters
  checkParams (Sql.Tokens.params s.tokens)
  db.checkChange
  let gone := t.matching filters
  return (db.replace { t with rows := t.rows.filter (!gone.contains ·) }, gone.length)

end Database

end QueryBoard.Db
