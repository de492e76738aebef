import QueryBoard.Json.Decode

/-!
# Values

A value is what a query carries for a column and what stands in the place of a statement's
parameter: a scalar, or a list of values.  As JSON it is written as itself, and every JSON value
without an object in it is one; integers beyond 64 bits are floating point.
-/

set_option autoImplicit false

namespace QueryBoard

inductive Value where
  | null
  | bool (b : Bool)
  | int (n : Int64)
  | float (x : Binary64)
  | str (s : String)
  | list (items : List Value)
deriving Repr, Inhabited

namespace Value

mutual

def decEq : (a b : Value) → Decidable (a = b)
  | .null, .null => isTrue rfl
  | .bool a, .bool b => if h : a = b then isTrue (h ▸ rfl) else isFalse (by simpa using h)
  | .int a, .int b => if h : a = b then isTrue (h ▸ rfl) else isFalse (by simpa using h)
  | .float a, .float b => if h : a = b then isTrue (h ▸ rfl) else isFalse (by simpa using h)
  | .str a, .str b => if h : a = b then isTrue (h ▸ rfl) else isFalse (by simpa using h)
  | .list a, .list b =>
    match decEqList a b with
    | isTrue h => isTrue (h ▸ rfl)
    | isFalse h => isFalse (by simpa using h)
  | .null, .bool _ | .null, .int _ | .null, .float _ | .null, .str _ | .null, .list _
  | .bool _, .null | .bool _, .int _ | .bool _, .float _ | .bool _, .str _ | .bool _, .list _
  | .int _, .null | .int _, .bool _ | .int _, .float _ | .int _, .str _ | .int _, .list _
  | .float _, .null | .float _, .bool _ | .float _, .int _ | .float _, .str _ | .float _, .list _
  | .str _, .null | .str _, .bool _ | .str _, .int _ | .str _, .float _ | .str _, .list _
  | .list _, .null | .list _, .bool _ | .list _, .int _ | .list _, .float _ | .list _, .str _ =>
    isFalse (by simp)

def decEqList : (a b : List Value) → Decidable (a = b)
  | [], [] => isTrue rfl
  | [], _ :: _ | _ :: _, [] => isFalse (by simp)
  | x :: xs, y :: ys =>
    match decEq x y, decEqList xs ys with
    | isTrue h, isTrue hs => isTrue (h ▸ hs ▸ rfl)
    | isFalse h, _ => isFalse (by simp [h])
    | _, isFalse h => isFalse (by simp [h])

end

instance : DecidableEq Value := decEq

def isList : Value → Bool
  | .list _ => true
  | _ => false

/-- The value of an integer: itself within 64 bits, the nearest floating-point number beyond. -/
def ofInt (n : Int) : Value :=
  if -Int.pow 2 63 ≤ n ∧ n < Int.pow 2 63 then .int (Int64.ofInt n) else .float (Binary64.ofInt n)

mutual

def ofJson : Json → Decoded Value
  | .null => .ok .null
  | .bool b => .ok (.bool b)
  | .int n => .ok (ofInt n)
  | .float x => .ok (.float x)
  | .str s => .ok (.str s)
  | .arr items => .list <$> ofJsonList items
  | .obj _ => .error .wrongShape

def ofJsonList : List Json → Decoded (List Value)
  | [] => .ok []
  | j :: rest => do
    let v ← ofJson j
    let vs ← ofJsonList rest
    return v :: vs

end

def ofDocument (d : Document) : Decoded Value := do ofJson (← d.toJson)

/-- Infinities and not-a-number have no JSON form and become `null`. -/
def floatJson (x : Binary64) : Json := if x.isFinite then .float x else .null

mutual

def toJson : Value → Json
  | .null => .null
  | .bool b => .bool b
  | .int n => .int n.toInt
  | .float x => floatJson x
  | .str s => .str s
  | .list items => .arr (toJsonList items)

def toJsonList : List Value → List Json
  | [] => []
  | v :: rest => toJson v :: toJsonList rest

end

end Value

end QueryBoard
