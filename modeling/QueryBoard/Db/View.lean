import QueryBoard.Db.Table
import QueryBoard.Text.Quoted

/-!
# Views

A view is a list of names that are looked up in a table or in another view whenever the view is
used.  `Database.relation` gives the rows behind any name, or says why there are none: a table may
be missing, and views may lead around in a circle.
-/

set_option autoImplicit false

namespace QueryBoard.Db

/-! ## Column names -/

/-- A name without a colon and digits at its end. -/
def unnumbered (name : String) : String :=
  match name.toList.reverse.dropWhile Char.isDigit with
  | ':' :: rest => String.ofList rest.reverse
  | _ => name

/-- The name, or the first numbered form of it that is not among those in use; `bound` numbers are
tried, starting after `n`. -/
def freshName (used : List String) (name : String) : Nat → Nat → String
  | 0, _ => name
  | bound + 1, n =>
    if used.any (sameName name) then
      freshName used (unnumbered name ++ ":" ++ toString (n + 1)) bound (n + 1)
    else name

/-- Names made different from left to right. -/
def distinctNames (names : List String) : List String :=
  (names.foldl (fun used name => freshName used name (used.length + 1) 0 :: used) []).reverse

/-! ## Columns -/

/-- What a name in the definition of a view stands for: a column, the row id, or, if it is neither,
its own text. -/
inductive ViewItem where
  | column (i : Nat)
  | rowid
  | text (name : String)

namespace ViewItem

def ofName (r : Relation) (name : String) : ViewItem :=
  match r.index? name with
  | some i => .column i
  | none => if r.rowid.isSome && isRowidName name then .rowid else .text name

def relationColumn (r : Relation) : ViewItem → RelationColumn
  | .column i => (r.columns[i]?).getD ⟨"", "", .none, .made⟩
  | .rowid => r.rowid.getD ⟨"", "", .none, .made⟩
  | .text name => ⟨Text.Quoted.write '"' name, "", .none, .made⟩

def cell (row : Row) : ViewItem → Cell
  | .column i => row.cells.getD i .null
  | .rowid => .int row.id
  | .text name => .ofString name

end ViewItem

def View.relation (v : View) (r : Relation) : Relation :=
  let items := v.columns.map (ViewItem.ofName r)
  let columns := items.map (ViewItem.relationColumn r)
  { columns := (distinctNames (columns.map (·.name))).zipWith
      (fun name c => { c with name }) columns
    rowid := none
    rows := r.rows.map fun row => { row with cells := items.map (ViewItem.cell row) }
    base := r.base }

namespace Database

/-- The relation of a view, with the views that led to it and a bound on the number of further
ones. -/
def viewRelation (db : Database) : Nat → List String → View → Except DbError Relation
  | 0, _, v => .error (.circularView v.name)
  | bound + 1, seen, v =>
    if v.name ∈ seen then .error (.circularView v.name)
    else
      match db.table? v.table, db.view? v.table with
      | some t, _ => .ok (v.relation t.relation)
      | none, some u => v.relation <$> db.viewRelation bound (v.name :: seen) u
      | none, none => .error (.noSuchTable ("main." ++ v.table))

def relationOf (db : Database) (v : View) : Except DbError Relation :=
  db.viewRelation (db.views.length + 1) [] v

def relation (db : Database) (name : String) : Except DbError Relation :=
  match db.table? name, db.view? name with
  | some t, _ => .ok t.relation
  | none, some v => db.relationOf v
  | none, none => .error (.noSuchTable name)

end Database

end QueryBoard.Db
