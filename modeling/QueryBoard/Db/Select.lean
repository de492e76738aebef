import QueryBoard.Db.Aggregate
import QueryBoard.Db.Limit
import QueryBoard.Db.Scan
import QueryBoard.Db.Term

/-!
# Running SELECT statements

The tables are joined from left to right, rows that fail the filters are dropped, and the rest is
grouped if the statement groups or holds an aggregate.  The result is put in order, its rows are
counted, and limit and offset cut it at last.  Names are looked up before anything runs: tables
first, then the columns of the select list, of the filters, of the joins and of the ordering.
-/

set_option autoImplicit false

namespace QueryBoard.Db

structure Binding where
  label : String
  relation : Relation

/-- One row of each table, or none for a table that an outer join had no row of. -/
abbrev JoinedRow := List (Option Row)

def JoinedRow.cell (r : JoinedRow) (s : Slot) : Cell :=
  match r[s.source]?.join with
  | none => .null
  | some row =>
    match s.column with
    | some i => row.cells.getD i .null
    | none => .int row.id

def Relation.slot? (r : Relation) (source : Nat) (name : String) : Option Slot :=
  match r.index? name with
  | some i => some ⟨source, some i, (r.columns[i]?.map (·.affinity)).getD .none⟩
  | none => if r.rowid.isSome && isRowidName name then some ⟨source, none, .rowid⟩ else none

/-- Looks a column up among the tables of a select.  A row id can only be meant when a single table
has the alias.  A name without a table that names nothing is a text. -/
def selectNames (bindings : List Binding) : Names := fun table column =>
  let candidates := bindings.zipIdx.filter fun b => table.all (sameName · b.1.label)
  let named := candidates.filter fun b => (b.1.relation.index? column).isSome
  let found := match named, candidates with
    | [], [b] => [b]
    | _, _ => named
  match found.filterMap fun b => b.1.relation.slot? b.2 column with
  | [s] => .ok (.slot s)
  | [] =>
    match table with
    | some t => .error (.noSuchColumn (some t) column none)
    | none => .ok (.cell (Cell.ofString column))
  | _ => .error (.ambiguousColumn (table.getD "") column none)

/-! ## Places of faults -/

/-- The number of bytes before a qualified column among tokens. -/
def columnOffset? (table column : String) : Sql.Tokens → Option Nat
  | [] => none
  | t :: rest =>
    if (t :: rest).take 3 = [.ident table, .dot, .ident column] then some 0
    else (columnOffset? table column rest).map (· + (t.text .sqlite 1).utf8ByteSize)

/-- The tokens of a statement from a clause on, and the number of bytes before it. -/
def clauseFrom (words : String) : Sql.Tokens → Nat × Sql.Tokens
  | [] => (0, [])
  | t :: rest =>
    if t = .keyword words then (0, t :: rest)
    else
      let (n, ts) := clauseFrom words rest
      (n + (t.text .sqlite 1).utf8ByteSize, ts)

/-- The number of bytes before the place where tokens stand in a statement. -/
def bytesBefore (part : Sql.Tokens) : Sql.Tokens → Nat
  | [] => 0
  | t :: rest =>
    if part.isPrefixOf (t :: rest) then 0
    else bytesBefore part rest + (t.text .sqlite 1).utf8ByteSize

/-- Puts the place of a fault in a clause of a block into the error. -/
def DbError.locate (statement : Sql.Tokens) (s : Sql.Select) (words : String) :
    DbError → DbError :=
  let (before, ts) := clauseFrom words s.tokens
  let start := bytesBefore s.tokens statement + before
  let offset (table column : String) := (columnOffset? table column ts).map (· + start)
  fun
  | .noSuchColumn (some t) c _ => .noSuchColumn (some t) c (offset t c)
  | .ambiguousColumn t c _ => .ambiguousColumn t c (offset t c)
  | e => e

/-! ## Steps -/

/-- Joins rows with the rows of one more table, `width` tables having been joined before. -/
def joinRows (type : Sql.JoinType) (width : Nat) (left : List JoinedRow) (right : List Row)
    (condition : JoinedRow → Bool) : List JoinedRow :=
  let matching (l : JoinedRow) := (right.map fun r => l ++ [some r]).filter condition
  match type with
  | .inner => left.flatMap matching
  | .left => left.flatMap fun l =>
      let found := matching l
      if found.isEmpty then [l ++ [none]] else found
  | .right =>
    left.flatMap matching ++
      (right.filter fun r => !left.any fun l => condition (l ++ [some r])).map fun r =>
        List.replicate width none ++ [some r]

/-- A term over one joined row, where no aggregate can stand. -/
def Term.onRow (t : Term) (total : Nat) (r : JoinedRow) : Except DbError Cell :=
  t.eval { slot := r.cell, aggregate := fun _ _ => .error .unsupported, total }

def holds (t : Term) (r : JoinedRow) : Bool :=
  match t.onRow 0 r with
  | .ok c => c.truth == some true
  | .error _ => false

/-- The rows of a group and the one that columns outside of aggregates are taken from. -/
structure Group where
  rows : List JoinedRow
  sample : JoinedRow

def Term.aggregates : Term → List (Aggregate × Term)
  | .aggregate f arg => [(f, arg)]
  | .comparison _ _ l r | .both l r => l.aggregates ++ r.aggregates
  | .cell _ | .slot _ | .total | .member _ _ _ _ | .coalesce _ => []

def cellsOf (t : Term) (rows : List JoinedRow) : List Cell :=
  rows.map fun r => match t.onRow 0 r with
    | .ok c => c
    | .error _ => .null

/-- A group of rows with its sample: the row of an extreme that is asked for, or else the first. -/
def Group.of (terms : List Term) (rows : List JoinedRow) : Group :=
  let extremes := (terms.flatMap Term.aggregates).filterMap fun a =>
    (extremeOrder? a.1).map fun o => (o, a.2)
  -- Of several extremes the last one decides; the last row stands in for one that is null throughout.
  let index := match extremes.getLast? with
    | some (o, arg) => (extremeIndex? o (cellsOf arg rows)).getD (rows.length - 1)
    | none => 0
  { rows, sample := rows.getD index [] }

def Term.onGroup (t : Term) (total : Nat) (g : Group) : Except DbError Cell :=
  t.eval
    { slot := g.sample.cell, aggregate := fun f arg => Db.aggregate f (cellsOf arg g.rows), total }

/-- Order of two sort keys; each has a direction. -/
def compareKeys : List (Cell × Sql.SortDir) → List (Cell × Sql.SortDir) → Ordering
  | (a, dir) :: as, (b, _) :: bs =>
    let o := if dir = .desc then b.compare a else a.compare b
    if o = .eq then compareKeys as bs else o
  | _, _ => .eq

/-- Puts entries in the order of their keys; those with equal keys keep their order. -/
def sortByKey {α : Type} (entries : List (List (Cell × Sql.SortDir) × α)) :
    List (List (Cell × Sql.SortDir) × α) :=
  entries.mergeSort fun a b => compareKeys a.1 b.1 != .gt

/-- Gathers rows with equal keys, in the order of the keys. -/
def groupRows (keys : List Term) (rows : List JoinedRow) : List (List JoinedRow) :=
  let keyed := rows.map fun r =>
    (keys.map fun k => ((cellsOf k [r]).headD .null, Sql.SortDir.asc), r)
  ((sortByKey keyed).splitBy fun a b => compareKeys a.1 b.1 == .eq).map fun g => g.map (·.2)

/-! ## The whole statement -/

/-- A statement after its names have been looked up. -/
structure Plan where
  bindings : List Binding
  columns : List String
  items : List Term
  filters : List Term
  joins : List (Sql.JoinType × Term)
  groupBy : List Term
  orderBy : List (Term × Sql.SortDir)

def slotColumn? (bindings : List Binding) (s : Slot) : Option RelationColumn :=
  bindings[s.source]?.bind fun b =>
    match s.column with
    | some i => b.relation.columns[i]?
    | none => b.relation.rowid

/-- The name of an output column: its label, or the declared name of the column, or the text of the
expression. -/
def outputName (bindings : List Binding) (i : Sql.SelectItem) (t : Term) : String :=
  let own : Option String := match t with
    | .slot s => (slotColumn? bindings s).map (·.name)
    | _ => none
  i.label.getD (own.getD (i.expr.tokens.text .sqlite))

/-- Every column of the tables, which an empty select list stands for. -/
def allColumns (bindings : List Binding) : List (String × Term) :=
  bindings.zipIdx.flatMap fun (b, source) =>
    b.relation.columns.zipIdx.map fun (c, i) => (c.name, .slot ⟨source, some i, c.affinity⟩)

def bind (db : Database) (r : Sql.TableRef) : Except DbError Binding := do
  return { label := r.name, relation := ← db.relation r.table }

/-- Refuses aggregates in the order of a result that is neither grouped nor shows an aggregate.
The last of them is the one at fault. -/
def checkOrder (groupBy items keys : List Term) : Except DbError Unit :=
  if !groupBy.isEmpty || Term.anyAggregate items then .ok ()
  else
    match (keys.flatMap Term.aggregates).getLast? with
    | some (f, _) => .error (.misusedAggregate (Text.upper f.name))
    | none => .ok ()

/-- The number of result columns that a select list has as it is written. -/
def listWidth (bindings : List Binding) (items : List Sql.SelectItem) : Nat :=
  if items.isEmpty then (allColumns bindings).length else items.length

/-- Looks up every name of a block in its tables; the block is part of a statement. -/
def planBlock (statement : Sql.Tokens) (bindings : List Binding) (s : Sql.Select) :
    Except DbError Plan := do
  -- Faults are found in the order of the steps below, which is not that of the text.
  let names := selectNames bindings
  let located (words : String) (es : List Sql.Expr) : Except DbError (List Term) :=
    (resolveList names es).mapError (DbError.locate statement s words)
  Limit.resultColumns.check (listWidth bindings s.items)
  let items ← located "SELECT" (s.items.map (·.expr))
  let filters ← located "WHERE" s.filters
  let conditions ← resolveList names (s.joins.map (·.condition))
  let keys ← located "ORDER BY" (s.orderBy.map (·.expr))
  Limit.orderTerms.check keys.length
  let groupBy ← located "GROUP BY" s.groupBy
  Limit.groupTerms.check groupBy.length
  Limit.joined.check bindings.length
  checkOrder groupBy items keys
  let selected :=
    if s.items.isEmpty then allColumns bindings
    else (s.items.zip items).map fun (i, t) => (outputName bindings i t, t)
  return {
    bindings
    columns := selected.map (·.1)
    items := selected.map (·.2)
    filters
    joins := (s.joins.map (·.type)).zip conditions
    groupBy
    orderBy := keys.zip (s.orderBy.map (·.dir)) }

def plan (db : Database) (s : Sql.Select) : Except DbError Plan := do
  checkText s.tokens s.tables.length s.filters
  planBlock s.tokens (← s.tables.mapM (bind db)) s

namespace Plan

def terms (p : Plan) : List Term :=
  p.items ++ p.filters ++ p.joins.map (·.2) ++ p.groupBy ++ p.orderBy.map (·.1)

def origin (p : Plan) (s : Slot) : Origin :=
  ((slotColumn? p.bindings s).map (·.origin)).getD .made

/-- The columns of its table that the statement asks a source for, in the order of the table. -/
def used (p : Plan) (source : Nat) (t : Table) : List Nat :=
  let origins := ((Term.allSlots p.terms).filter (·.source == source)).map p.origin
  (List.range t.columns.length).filter (.column · ∈ origins)

/-- The values that filters leave a column of the first source. -/
def filterLookup? (p : Plan) : Term → Option Lookup
  | .comparison .eq _ (.slot s) (.cell _) => some ⟨p.origin s, 1⟩
  | .member false _ (.slot s) items => some ⟨p.origin s, items.length⟩
  | _ => none

/-- The column of a source that a condition compares with a column of an earlier one. -/
def joinLookup? (p : Plan) (source : Nat) : Term → Option Lookup
  | .comparison .eq a (.slot l) (.slot r) =>
    let (own, other) := if l.source = source then (l, r) else (r, l)
    if own.source = source ∧ other.source < source ∧
        (!a.isNumeric || own.affinity.isNumeric) then some ⟨p.origin own, 1⟩
    else none
  | _ => none

/-- Whether the sources can only be gone through one after the other. -/
def isInOrder (p : Plan) : Bool :=
  p.joins.all (·.1 == .left) && (Term.allSlots p.filters).all (·.source == 0)

def firstWay (p : Plan) (t : Table) : Way :=
  t.bestWay (p.used 0 t) ((p.filters.flatMap Term.conjuncts).filterMap p.filterLookup?)

def firstRows (p : Plan) (r : Relation) : List Row :=
  match r.base with
  | some t => if p.isInOrder then r.sortedBy t (p.firstWay t).order else r.rows
  | none => r.rows

/-- The rows of a later source in the order in which they are found. -/
def laterRows (p : Plan) (isSingle : Bool) (source : Nat) (condition : Term) (r : Relation) :
    List Row :=
  match r.base with
  | none => r.rows
  | some t =>
    let lookups := condition.conjuncts.filterMap (p.joinLookup? source)
    let used := p.used source t
    let way := t.bestWay used lookups
    if !p.isInOrder then r.rows
    else if way.cost < 200 || lookups.isEmpty || isSingle then r.sortedBy t way.order
    -- No index helps, so an order is made for this one statement.
    else r.sortedBy t used

/-- The rows that the tables join to and that pass the filters. -/
def source (p : Plan) : List JoinedRow :=
  let start : List JoinedRow × Nat := match p.bindings with
    | [] => ([[]], 0)
    | b :: _ => ((p.firstRows b.relation).map fun r => [some r], 1)
  let isSingle := ((p.bindings.head?.bind (·.relation.base)).map fun t =>
    (p.firstWay t).isSingle).getD false
  let step (acc : List JoinedRow × Nat) (j : (Sql.JoinType × Term) × Binding) :=
    let rows := p.laterRows isSingle acc.2 j.1.2 j.2.relation
    (joinRows j.1.1 acc.2 acc.1 rows (holds j.1.2), acc.2 + 1)
  let joined := ((p.joins.zip (p.bindings.drop 1)).foldl step start).1
  joined.filter fun r => p.filters.all (holds · r)

def outputs (p : Plan) : List Term := p.items ++ p.orderBy.map (·.1)

def isGrouped (p : Plan) : Bool := !p.groupBy.isEmpty || Term.anyAggregate p.outputs

/-- The groups of a grouped statement; without keys all rows are one group. -/
def groups (p : Plan) : List Group :=
  if p.groupBy.isEmpty then [Group.of p.outputs p.source]
  else (groupRows p.groupBy p.source).map (Group.of p.outputs)

/-- How terms are evaluated on each row of the result, in the order in which rows come. -/
def evaluators (p : Plan) : List (Nat → Term → Except DbError Cell) :=
  if p.isGrouped then p.groups.map fun g total t => t.onGroup total g
  else p.source.map fun r total t => t.onRow total r

/-- The cells of the result in order, without limit and offset. -/
def result (p : Plan) : Except DbError (List (List Cell)) := do
  let evaluators := p.evaluators
  let total := evaluators.length
  let keyed ← evaluators.mapM fun eval => do
    let key ← p.orderBy.mapM fun k => do return (← eval total k.1, k.2)
    let cells ← p.items.mapM (eval total)
    return (key, cells)
  return (sortByKey keyed).map (·.2)

end Plan

structure ResultSet where
  columns : List String
  rows : List (List Cell)
deriving Repr

def page {α : Type} (limit offset : Option UInt64) (rows : List α) : List α :=
  match limit with
  | none => rows
  | some n => (rows.drop (offset.getD 0).toNat).take n.toNat

def checkParams (params : List Value) : Except DbError Unit :=
  if params.any Value.isList then .error .unboundList else .ok ()

def Database.select (db : Database) (s : Sql.Select) : Except DbError ResultSet := do
  let p ← plan db s
  checkParams (Sql.Tokens.params s.tokens)
  return { columns := p.columns, rows := page s.limit s.offset (← p.result) }

end QueryBoard.Db
