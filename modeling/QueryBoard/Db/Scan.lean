import QueryBoard.Db.View

/-!
# The order in which rows are found

A table has its rows in the order of row ids, and once more in the order of the columns of each of
its indexes.  A query goes the way that is estimated to cost least: through all rows, through an
index that holds every column that is asked for and takes less room than the rows, or only to the
rows that have given values in the first columns of an index.

Estimates know nothing of the rows.  Every table counts as one of a million rows.  Costs are
logarithms, in tenths of a doubling.
-/

set_option autoImplicit false

namespace QueryBoard.Db

/-! ## Costs -/

/-- The cost of a number of steps. -/
def stepCost (n : Nat) : Nat :=
  let e := n.log2
  let leading := if 3 ≤ e then n >>> (e - 3) else n <<< (3 - e)
  if n < 2 then 0 else [0, 2, 3, 5, 6, 7, 8, 9].getD (leading - 8) 0 + 10 * e

/-- The cost of doing one thing after another. -/
def bothCosts (a b : Nat) : Nat :=
  let (low, high) := if a ≤ b then (a, b) else (b, a)
  let excess : List Nat :=
    [10, 10, 9, 9, 8, 8, 7, 7, 7, 6, 6, 6, 5, 5, 5, 4, 4, 4, 4, 3, 3, 3, 3, 3, 3,
      2, 2, 2, 2, 2, 2, 2]
  high + excess.getD (high - low) (if high - low ≤ 49 then 1 else 0)

def firstNumber (cs : List Char) : Nat :=
  ((cs.dropWhile (!·.isDigit)).takeWhile Char.isDigit).foldl
    (fun n c => n * 10 + (c.toNat - '0'.toNat)) 0

def afterLast (word : List Char) : List Char → Option (List Char)
  | [] => none
  | c :: cs =>
    match afterLast word cs with
    | some rest => some rest
    | none => if word.isPrefixOf (c :: cs) then some ((c :: cs).drop word.length) else none

/-- The estimated width of a column, in units of four bytes: a text or blob has the length that its
type tells, and room for sixteen bytes if the type does not ask for characters. -/
def Column.width (c : Column) : Nat :=
  let name := c.type.toList.map Char.toUpper
  let sized (cs : List Char) : Nat := min 255 (firstNumber cs / 4 + 1)
  match c.affinity with
  | .text => ((afterLast "CHAR".toList name).map sized).getD 5
  | .none =>
    if name.isEmpty then 1
    else
      match afterLast "BLOB".toList name with
      | some ('(' :: cs) => sized cs
      | _ => 5
  | _ => 1

/-! ## Ways -/

/-- A condition that gives a column, or the row id, one of some values. -/
structure Lookup where
  origin : Origin
  values : Nat
deriving DecidableEq, Repr

/-- A way through the rows of a table. -/
structure Way where
  cost : Nat
  /-- The columns by which the rows come in order; without them it is the order of row ids. -/
  order : List Nat := []
  isSingle : Bool := false
deriving DecidableEq, Repr

/-- The cost of trying the values that a column may have, if they are known.  One value costs
nothing. -/
def valuesCost? (lookups : List Lookup) (origin : Origin) : Option Nat :=
  let counts := (lookups.filter (·.origin == origin)).map (·.values)
  counts.min?.map stepCost

namespace Table

/-- The sets of columns by which the rows are kept in order, and whether no two rows agree in one,
newest first. -/
def allIndexes (t : Table) : List (List Nat × Bool) :=
  t.indexes.reverse.map (·, false) ++ t.uniques.reverse.map (·, true)

/-- The cost of the room that columns take, row ids included. -/
def widthCost (t : Table) (columns : List Nat) (rowid : Nat) : Nat :=
  let widths := columns.map fun i => (t.columns[i]?.map Column.width).getD 0
  stepCost (4 * (widths.foldl Nat.add rowid))

def rowCost (t : Table) : Nat :=
  t.widthCost (List.range t.columns.length) (if t.rowidColumn?.isSome then 0 else 1)

/-- The cost of looking at as many rows as are estimated to agree in the first columns of an
index. -/
def agreeingCost (n : Nat) : Nat := [33, 32, 30, 28, 27].getD (n - 1) 23

/-- The ways to the rows with given values in the first columns of an index.  `found` are the
columns already looked up, and `tries` the cost of their values. -/
def lookupWays (t : Table) (lookups : List Lookup) (isCovering isUnique : Bool) (index : List Nat)
    (found tries : Nat) : List Nat → List Way
  | [] => []
  | i :: rest =>
    match valuesCost? lookups (.column i) with
    | none => []
    | some c =>
      let isSingle := isUnique && rest.isEmpty
      let rows := if isSingle then 0 else agreeingCost (found + 1)
      let visit := rows + 1 + 15 * t.widthCost index 1 / t.rowCost
      let search := bothCosts 43 visit
      let cost := if isCovering then search else bothCosts search (rows + 16)
      { cost := cost + tries + c, order := index, isSingle := isSingle && tries + c == 0 } ::
        t.lookupWays lookups isCovering isUnique index (found + 1) (tries + c) rest

def indexWays (t : Table) (used : List Nat) (lookups : List Lookup) (index : List Nat)
    (isUnique : Bool) : List Way :=
  let isCovering := used.all (· ∈ index)
  let width := t.widthCost index 1
  t.lookupWays lookups isCovering isUnique index 0 0 index ++
    if isCovering && width < t.rowCost then
      [{ cost := 201 + 15 * width / t.rowCost, order := index }]
    else []

def ways (t : Table) (used : List Nat) (lookups : List Lookup) : List Way :=
  (match valuesCost? lookups .rowid with
    | some c => [{ cost := bothCosts 43 16 + c, isSingle := c == 0 }]
    | none => []) ++
  { cost := 216 } :: t.allIndexes.flatMap fun (index, isUnique) =>
    t.indexWays used lookups index isUnique

/-- The first of the ways that cost least. -/
def bestWay (t : Table) (used : List Nat) (lookups : List Lookup) : Way :=
  (t.ways used lookups).foldl (fun best w => if w.cost < best.cost then w else best)
    { cost := 217 }

def compareRows (columns : List Nat) (a b : Row) : Ordering :=
  match columns with
  | [] => .eq
  | i :: rest =>
    match (a.cells.getD i .null).compare (b.cells.getD i .null) with
    | .eq => compareRows rest a b
    | o => o

end Table

/-- The rows of a relation in the order of columns of the table that they come from. -/
def Relation.sortedBy (r : Relation) (t : Table) (columns : List Nat) : List Row :=
  ((r.rows.zip t.rows).mergeSort fun a b =>
    Table.compareRows columns a.2 b.2 != .gt).map (·.1)

end QueryBoard.Db
