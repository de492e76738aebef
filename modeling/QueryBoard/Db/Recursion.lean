import QueryBoard.Db.Select

/-!
# Recursive queries

A query may give a name to rows of its own making: a first block gives rows to start with, and a
next block, which joins tables with the rows that the name stands for, gives more of them.  The rows
stand in a queue, and each in turn is the only row behind the name while the next block runs.  A row
that equals an earlier one is left out.
-/

set_option autoImplicit false

namespace QueryBoard.Db

def sameCells (a b : List Cell) : Bool :=
  a.length == b.length && (a.zip b).all fun (x, y) => x.compare y == .eq

/-- Those of some rows that equal none of the rows seen and no earlier one among themselves. -/
def freshRows (seen rows : List (List Cell)) : List (List Cell) :=
  (rows.eraseDupsBy sameCells).filter fun r => !seen.any (sameCells r)

/-- The rows of a queue in order, with the rows that follow from each at the end of the queue.  At
most a given number of rows is taken. -/
def followRows (next : List Cell → Except DbError (List (List Cell))) :
    Nat → List (List Cell) → List (List Cell) → Except DbError (List (List Cell))
  | 0, _, _ | _, _, [] => .ok []
  | bound + 1, seen, row :: queue => do
    let new := freshRows seen (← next row)
    return row :: (← followRows next bound (seen ++ new) (queue ++ new))

def writtenName (i : Sql.SelectItem) : String :=
  i.label.getD <| match i.expr with
    | .column _ name => name
    | e => e.tokens.text .sqlite

def columnAffinity (t : Term) : Affinity :=
  match t.affinity? with
  | some .rowid => .integer
  | a => a.getD .none

/-- Rows of a query's own making under their columns. -/
def madeRelation (columns : List (String × Affinity)) (rows : List (List Cell)) : Relation :=
  { columns := columns.map fun (name, affinity) => { name, type := "", affinity, origin := .made }
    rowid := none
    rows := rows.map fun cells =>
      { id := 0, cells := cells.zipWith (fun c e => e.2.shown c) columns }
    base := none }

/-- A name for rows of a query's own making, with the blocks that give them. -/
structure Recursion where
  name : String
  first : Sql.Select
  next : Sql.Select

namespace Recursion

/-- What a table of a block stands for: nothing yet if it is the name of the recursion. -/
def bind? (r : Recursion) (db : Database) (t : Sql.TableRef) : Except DbError (Option Binding) :=
  if sameName r.name t.table then .ok none else some <$> bind db t

/-- The tables of a block, with rows for the name of the recursion. -/
def bindings (tables : List (Sql.TableRef × Option Binding)) (made : Relation) : List Binding :=
  tables.map fun (t, b) => b.getD { label := t.name, relation := made }

/-- The greatest number of rows there can be if the next block hands on some cells of the row before
and takes the others from its tables. -/
def bound (first : List (List Cell)) (tables : List (Sql.TableRef × Option Binding)) : Nat :=
  let rows := (tables.filterMap (·.2)).map (·.relation.rows.length)
  first.length * (rows.foldl (· * ·) 1 + 1) + 1

/-- The rows that the name stands for. -/
def relation (r : Recursion) (db : Database) (statement : Sql.Tokens) :
    Except DbError Relation := do
  let firstTables ← r.first.tables.mapM (bind db)
  let tables := r.next.tables.zip (← r.next.tables.mapM (r.bind? db))
  let names := r.first.items.map writtenName
  -- The next block is looked through before the first one, and so are its faults found first.
  let unknown := madeRelation (names.map fun name => (name, .none)) []
  let _ ← planBlock statement (bindings tables unknown) r.next
  let p ← planBlock statement firstTables r.first
  let made := madeRelation (names.zip (p.items.map columnAffinity))
  let start := freshRows [] (← p.result)
  let next (row : List Cell) : Except DbError (List (List Cell)) := do
    (← planBlock statement (bindings tables (made [row])) r.next).result
  return made (← followRows next (bound start tables) start start)

end Recursion

/-- Runs a query: a block alone, or a block that selects from a recursion. -/
def Database.query (db : Database) : Sql.Query → Except DbError ResultSet
  | ⟨[], s, []⟩ => db.select s
  | ⟨[(name, true, ⟨[], first, [⟨[], next, []⟩]⟩)], s, []⟩ => do
    let q : Sql.Query := ⟨[(name, true, ⟨[], first, [⟨[], next, []⟩]⟩)], s, []⟩
    let r : Recursion := { name, first, next }
    let made ← r.relation db q.tokens
    let tables := s.tables.zip (← s.tables.mapM (r.bind? db))
    let p ← planBlock q.tokens (Recursion.bindings tables made) s
    checkParams (Sql.Tokens.params q.tokens)
    return { columns := p.columns, rows := page s.limit s.offset (← p.result) }
  | _ => .error .unsupported

end QueryBoard.Db
