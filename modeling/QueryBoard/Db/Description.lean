import QueryBoard.Db.Write
import QueryBoard.Text.Hex

/-!
# Databases as documents

A document names the tables of a database with their columns and rows, and the views.  A column may
be part of the primary key, refuse null, hold distinct values, and have a default.  A cell is a
JSON scalar, or an object that gives the bytes of a blob or of a text as hexadecimal digits.
-/

set_option autoImplicit false

namespace QueryBoard.Db

def Cell.ofJson? (j : Json) : Option Cell :=
  match j with
  | .obj [("blob", .str hex)] => (Text.hexBytes? hex.toList).map .blob
  | .obj [("text", .str hex)] => (Text.hexBytes? hex.toList).map .text
  | j =>
    match Value.ofJson j with
    | .ok v => Cell.ofValue? v
    | .error _ => none

def isMarked (j : Json) (key : String) : Bool := j.field? key = some (.bool true)

def textField? (j : Json) (key : String) : Option String :=
  match j.field? key with
  | some (.str s) => some s
  | _ => none

/-- The items of a list, none if the field is missing. -/
def listField (j : Json) (key : String) : List Json :=
  match j.field? key with
  | some (.arr items) => items
  | _ => []

/-- Whether a character only sets words of a statement apart. -/
def isSqlBlank (c : Char) : Bool := [' ', '\t', '\n', '\x0c', '\r'].contains c

def declaredType (s : String) : String :=
  String.ofList (((s.toList.dropWhile isSqlBlank).reverse.dropWhile isSqlBlank).reverse)

def Column.ofJson? (j : Json) : Option Column := do
  let default ← match j.field? "default" with
    | some d => (Cell.ofJson? d).map some
    | none => some none
  return {
    name := ← textField? j "name"
    type := declaredType ((textField? j "type").getD "")
    notNull := isMarked j "notnull"
    default }

def marked (columns : List Json) (key : String) : List Nat :=
  columns.zipIdx.filterMap fun (c, i) => if isMarked c key then some i else none

def Table.ofJson? (j : Json) : Option Table := do
  let described := listField j "columns"
  let key := marked described "pk"
  let table : Table := {
    name := ← textField? j "name"
    columns := ← described.mapM Column.ofJson?
    key
    autoincrement := !(marked described "auto").isEmpty }
  let isOwnKey (i : Nat) : Bool := key == [i] && table.rowidColumn?.isNone
  let single := described.zipIdx.flatMap fun (c, i) =>
    (if isOwnKey i then [[i]] else []) ++ (if isMarked c "unique" then [[i]] else [])
  let table := { table with uniques := single ++ (if 1 < key.length then [key] else []) }
  (listField j "rows").foldlM (fun t row => do
    match row with
    | .arr items =>
      let cells ← items.mapM Cell.ofJson?
      let given := (t.columns.zip cells).filterMap fun e =>
        (t.target? e.1.name).map fun target => (target, e.2)
      (t.insert given).toOption
    | _ => none) table

def View.ofJson? (j : Json) : Option View := do
  return {
    name := ← textField? j "name"
    table := ← textField? j "table"
    columns := (listField j "columns").filterMap fun
      | .str s => some s
      | _ => none }

def Database.ofJson? (j : Json) : Option Database := do
  return {
    tables := ← (listField j "tables").mapM Table.ofJson?
    views := ← (listField j "views").mapM View.ofJson? }

end QueryBoard.Db
