import QueryBoard.Db.View
import QueryBoard.Query.Basic
import QueryBoard.Sql.Expr

/-!
# Expressions over rows

Before a statement runs, the names in its expressions are looked up; what remains is a term, whose
columns are positions.  Conditions have three outcomes: a comparison with null is neither true nor
false.
-/

set_option autoImplicit false

namespace QueryBoard.Db

/-- A column of one of the tables of a statement, or its row id. -/
structure Slot where
  source : Nat
  column : Option Nat
  affinity : Affinity
deriving DecidableEq, Repr

inductive Term where
  | cell (c : Cell)
  | slot (s : Slot)
  | comparison (op : Sql.BinaryOp) (affinity : Affinity) (left right : Term)
  | both (left right : Term)
  | member (negated : Bool) (affinity : Affinity) (e : Term) (items : List Term)
  | aggregate (f : Aggregate) (arg : Term)
  /-- The first of some cells that is not null. -/
  | coalesce (items : List Term)
  /-- The number of rows of the whole result. -/
  | total
deriving Repr, Inhabited

namespace Term

/-- The affinity that a term brings into a comparison. -/
def affinity? : Term → Option Affinity
  | .slot s => some s.affinity
  | _ => none

mutual

def hasAggregate : Term → Bool
  | .cell _ | .slot _ | .total => false
  | .comparison _ _ l r | .both l r => l.hasAggregate || r.hasAggregate
  | .member _ _ e items => e.hasAggregate || anyAggregate items
  | .coalesce items => anyAggregate items
  | .aggregate _ _ => true

def anyAggregate : List Term → Bool
  | [] => false
  | t :: rest => t.hasAggregate || anyAggregate rest

end

mutual

def slots : Term → List Slot
  | .slot s => [s]
  | .cell _ | .total => []
  | .comparison _ _ l r | .both l r => l.slots ++ r.slots
  | .member _ _ e items => e.slots ++ allSlots items
  | .aggregate _ arg => arg.slots
  | .coalesce items => allSlots items

def allSlots : List Term → List Slot
  | [] => []
  | t :: rest => t.slots ++ allSlots rest

end

/-- The conditions that hold together when a condition holds. -/
def conjuncts : Term → List Term
  | .both l r => l.conjuncts ++ r.conjuncts
  | t => [t]

end Term

/-! ## Truth -/

/-- A truth value as a cell; no value is null. -/
def Cell.ofTruth : Option Bool → Cell
  | some b => .int (if b then 1 else 0)
  | none => .null

/-- The truth of a cell: a number other than zero is true, and so is what starts like one. -/
def Cell.truth : Cell → Option Bool
  | .null => none
  | c => some !c.approximate.isZero

/-- Conjunction: false if either is, else unknown if either is. -/
def bothTrue : Option Bool → Option Bool → Option Bool
  | some false, _ | _, some false => some false
  | some true, some true => some true
  | _, _ => none

def satisfies (op : Sql.BinaryOp) (o : Ordering) : Bool :=
  match op with
  | .eq => o == .eq
  | .ne => o != .eq
  | .lt => o == .lt
  | .gt => o == .gt
  | .le => o != .gt
  | .ge => o != .lt
  | .and => false

/-- A comparison of two cells, unknown if either is null.  A row id only equals what can be taken
for a row id. -/
def compareCells (op : Sql.BinaryOp) (a : Affinity) (x y : Cell) : Option Bool :=
  if x.isNull || y.isNull then none
  else if op = .eq ∧ a = .rowid ∧ y.rowid? = none then some false
  else
    let (x, y) := a.forComparison x y
    some (satisfies op (x.compare y))

/-- Membership: true if an item equals the cell, else unknown if a null takes part. -/
def isMember (a : Affinity) (x : Cell) (items : List Cell) : Option Bool :=
  let outcomes := items.map (compareCells .eq a x)
  if outcomes.contains (some true) then some true
  else if outcomes.contains none then none
  else some false

/-! ## Evaluation -/

structure Context where
  slot : Slot → Cell
  aggregate : Aggregate → Term → Except DbError Cell
  total : Nat

namespace Term

mutual

def eval (ctx : Context) : Term → Except DbError Cell
  | .cell c => .ok c
  | .slot s => .ok (ctx.slot s)
  | .comparison op a l r => do
    let x ← l.eval ctx
    let y ← r.eval ctx
    return Cell.ofTruth (compareCells op a x y)
  | .both l r => do
    let x ← l.eval ctx
    let y ← r.eval ctx
    return Cell.ofTruth (bothTrue x.truth y.truth)
  | .member negated a e items => do
    let x ← e.eval ctx
    let ys ← evalList ctx items
    let found := isMember a x ys
    return Cell.ofTruth (if negated then found.map (!·) else found)
  | .aggregate f arg => ctx.aggregate f arg
  | .coalesce items => do
    let cs ← evalList ctx items
    return (cs.find? (!·.isNull)).getD .null
  | .total => .ok (.int (Int64.ofNat ctx.total))

def evalList (ctx : Context) : List Term → Except DbError (List Cell)
  | [] => .ok []
  | t :: rest => do
    let c ← t.eval ctx
    let cs ← evalList ctx rest
    return c :: cs

end

end Term

/-! ## Looking names up -/

/-- A way to look up a column, by the alias of its table if it has one. -/
abbrev Names := Option String → String → Except DbError Term

mutual

/-- The term of an expression.  Membership in the empty list is a constant and looks no name up.
Literals and parameters have no affinity; a list as a parameter is found out elsewhere. -/
def resolve (names : Names) : Sql.Expr → Except DbError Term
  | .column table name => names table name
  | .literal (.int n) => .ok (.cell (.int n))
  | .literal (.str s) => .ok (.cell (Cell.ofString s))
  | .param v => .ok (.cell ((Cell.ofValue? v).getD .null))
  | .binary .and l r => do
    let l ← resolve names l
    let r ← resolve names r
    return .both l r
  | .binary op l r => do
    let l ← resolve names l
    let r ← resolve names r
    return .comparison op (Affinity.between l.affinity? r.affinity?) l r
  | .member negated _ [] => .ok (.cell (Cell.ofTruth (some negated)))
  | .member negated e items => do
    let e ← resolve names e
    let items ← resolveList names items
    return .member negated (e.affinity?.getD .none) e items
  | .call "coalesce" (a :: b :: rest) => do
    let a ← resolve names a
    let b ← resolve names b
    return .coalesce (a :: b :: (← resolveList names rest))
  | .call name [arg] =>
    match Aggregate.parse name with
    | .ok f => do return .aggregate f (← resolve names arg)
    | .error _ => .error .unsupported
  | .over (.call "count" [.star]) => .ok .total
  | .call _ _ | .star | .over _ => .error .unsupported

def resolveList (names : Names) : List Sql.Expr → Except DbError (List Term)
  | [] => .ok []
  | e :: rest => do
    let t ← resolve names e
    let ts ← resolveList names rest
    return t :: ts

end

end QueryBoard.Db
