import QueryBoard.Db.Cell
import QueryBoard.Db.Error
import QueryBoard.Query.Basic

/-!
# Aggregates

Functions over the cells of a column.  Nulls never count.  A sum of integers is exact and must fit
64 bits; as soon as a cell is no integer, sums are floating point and carry along what rounding
has lost, to be added at the end.
-/

set_option autoImplicit false

namespace QueryBoard.Db

/-- A floating-point sum with the error made so far. -/
structure RunningSum where
  sum : Binary64 := .zero
  error : Binary64 := .zero

namespace RunningSum

def magnitude (x : Binary64) : Binary64 := Binary64.ofSignMagnitude false x.magnitudeBits

/-- Adds a number; what the addition loses of the smaller operand goes into the error. -/
def add (s : RunningSum) (x : Binary64) : RunningSum :=
  let t := s.sum.add x
  let lost :=
    if Binary64.compare (magnitude s.sum) (magnitude x) = .gt then (s.sum.sub t).add x
    else (x.sub t).add s.sum
  { sum := t, error := s.error.add lost }

/-- The two parts that an integer is added in, when it is too large for an exact number. -/
def parts (n : Int) : Int × Int :=
  if n.natAbs < Nat.pow 2 52 then (n, 0) else (n - n.tmod 16384, n.tmod 16384)

def addInt (s : RunningSum) (n : Int) : RunningSum :=
  let (big, small) := parts n
  let s := s.add (Binary64.ofInt big)
  if n.natAbs < Nat.pow 2 52 then s else s.add (Binary64.ofInt small)

def ofInt (n : Int) : RunningSum :=
  let (big, small) := parts n
  { sum := Binary64.ofInt big, error := Binary64.ofInt small }

/-- The sum with its error, unless that is no number. -/
def result (s : RunningSum) : Binary64 :=
  if s.error.isFinite then s.sum.add s.error else s.sum

end RunningSum

structure SumState where
  count : Nat := 0
  exact : Int := 0
  running : Option RunningSum := none
  /-- All cells so far are integers, and their sum does not fit. -/
  overflow : Bool := false

namespace SumState

/-- Adds a cell that is not null.  Texts that are numbers count as those. -/
def add (s : SumState) (c : Cell) : SumState :=
  let s := { s with count := s.count + 1 }
  match s.running, c.readNumber with
  | none, .int n =>
    let sum := s.exact + n.toInt
    if -Int.pow 2 63 ≤ sum ∧ sum < Int.pow 2 63 then { s with exact := sum }
    else
      { s with overflow := true, running := some ((RunningSum.ofInt s.exact).addInt n.toInt) }
  | none, c => { s with running := some ((RunningSum.ofInt s.exact).add c.approximate) }
  | some r, .int n => { s with running := some (r.addInt n.toInt) }
  | some r, c => { s with overflow := false, running := some (r.add c.approximate) }

def ofCells (cells : List Cell) : SumState := cells.foldl add {}

def sum (s : SumState) : Except DbError Cell :=
  if s.count = 0 then .ok .null
  else if s.overflow then .error .integerOverflow
  else
    match s.running with
    | none => .ok (.int (Int64.ofInt s.exact))
    | some r => .ok (.ofFloat r.result)

def average (s : SumState) : Cell :=
  if s.count = 0 then .null
  else
    let total := match s.running with
      | none => Binary64.ofInt s.exact
      | some r => r.result
    .ofFloat (total.div (Binary64.ofInt s.count))

end SumState

/-- The position of the first cell that comes before all others in an order; nulls do not take
part. -/
def extremeIndex? (order : Ordering) (cells : List Cell) : Option Nat :=
  let step (best : Option (Nat × Cell)) (entry : Cell × Nat) : Option (Nat × Cell) :=
    if entry.1.isNull then best
    else
      match best with
      | none => some (entry.2, entry.1)
      | some (_, c) => if entry.1.compare c = order then some (entry.2, entry.1) else best
  (cells.zipIdx.foldl step none).map (·.1)

/-- The order in which a new extreme stands to the one before it, for functions that look for
one. -/
def extremeOrder? : Aggregate → Option Ordering
  | .min => some .lt
  | .max => some .gt
  | .avg | .count | .sum => none

def aggregate (f : Aggregate) (cells : List Cell) : Except DbError Cell :=
  let given := cells.filter (!·.isNull)
  match f with
  | .count => .ok (.int (Int64.ofNat given.length))
  | .sum => (SumState.ofCells given).sum
  | .avg => .ok (SumState.ofCells given).average
  | .min => .ok (((extremeIndex? .lt cells).bind (cells[·]?)).getD .null)
  | .max => .ok (((extremeIndex? .gt cells).bind (cells[·]?)).getD .null)

end QueryBoard.Db
