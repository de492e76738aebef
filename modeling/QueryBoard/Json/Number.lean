import QueryBoard.Json.Basic

/-!
# JSON numbers

A number without fraction and exponent that fits 64 bits, signed or unsigned, is an integer;
every other number is floating point.  Its digits are read into a 64-bit significand for as long
as they fit, later digits only move the exponent, and the significand is then scaled by a power of
ten in floating-point arithmetic.  For at most fifteen digits and small exponents that is the
nearest number; beyond that it may be a neighbour of it.
-/

set_option autoImplicit false

namespace QueryBoard.Json

structure NumberText where
  negative : Bool
  whole : List Char
  fraction : List Char
  exponent : Option (Bool × List Char)

def digitValue (c : Char) : Nat := c.toNat - '0'.toNat

/-- Reads digits into a significand for as long as it stays below `2 ^ 64`.  Returns it with the
number of digits taken. -/
def takeDigits : Nat → Nat → List Char → Nat × Nat
  | acc, taken, [] => (acc, taken)
  | acc, taken, c :: rest =>
    let next := acc * 10 + digitValue c
    if next < UInt64.size then takeDigits next (taken + 1) rest else (acc, taken)

def digitsValue (ds : List Char) : Nat := ds.foldl (fun acc c => acc * 10 + digitValue c) 0

def powerOfTen (k : Nat) : Binary64 := Binary64.ofRatio false (Nat.pow 10 k) 1

/-- Multiplies or divides by powers of ten, at most `10 ^ 308` at a time.  There is no result when
the number grows beyond the largest finite one.  `bound` limits the number of steps; each one
takes 308 off a negative exponent. -/
def scaleByTen : Nat → Binary64 → Int → Option Binary64
  | 0, _, _ => some .zero
  | bound + 1, x, e =>
    if e.natAbs ≤ 308 then
      if 0 ≤ e then
        let y := x.mul (powerOfTen e.toNat)
        if y.isInfinite then none else some y
      else some (x.div (powerOfTen e.natAbs))
    else if x.isZero then some x
    else if 0 ≤ e then none
    else scaleByTen bound (x.div (powerOfTen 308)) (e + 308)

/-- The exponent part as an integer; `none` is an exponent of more than 31 bits. -/
def NumberText.exponentValue (t : NumberText) : Option Int :=
  match t.exponent with
  | none => some 0
  | some (negative, ds) =>
    let n := digitsValue ds
    if n < Nat.pow 2 31 then some (if negative then -(n : Int) else n) else none

/-- The floating-point reading of a number; `none` when it is too large. -/
def NumberText.float (t : NumberText) : Option Binary64 :=
  let sign (x : Binary64) := if t.negative then x.negate else x
  let (start, taken) := takeDigits 0 0 t.whole
  let (significand, more) := takeDigits start 0 t.fraction
  let shift : Int := (t.whole.length - taken : Nat) - more
  match t.exponentValue with
  | some e => (scaleByTen 12 (Binary64.ofInt significand) (shift + e)).map sign
  | none =>
    match t.exponent with
    | some (false, _) => if significand = 0 then some (sign .zero) else none
    | _ => some (sign .zero)

/-- The value of a number: an integer if it is written as one, is not minus zero and fits 64 bits,
else floating point. -/
def NumberText.value (t : NumberText) : Option Json :=
  let n := digitsValue t.whole
  if t.fraction.isEmpty && t.exponent.isNone then
    if t.negative then
      if n ≠ 0 ∧ n ≤ Nat.pow 2 63 then some (.int (-(n : Int))) else t.float.map .float
    else if n < UInt64.size then some (.int n)
    else t.float.map .float
  else t.float.map .float

end QueryBoard.Json
