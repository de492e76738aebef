/-!
# Binary floating point

A `Binary64` is a 64-bit IEEE-754 number given by its bits, so equality is decidable and a value
is a constant the kernel can compute with.  Arithmetic is defined by the standard's one rule: take
the exact result and round it to the nearest representable number, a tie going to the even
significand.  `ofRatio` is that rounding; every operation on finite numbers goes through it.
-/

set_option autoImplicit false

namespace QueryBoard

/-- A 64-bit IEEE-754 number: sign bit, eleven exponent bits, fifty-two fraction bits. -/
structure Binary64 where
  bits : UInt64
deriving DecidableEq, Repr, Inhabited

namespace Binary64

def isNegative (x : Binary64) : Bool := x.bits.toNat / Nat.pow 2 63 == 1

/-- The bits below the sign, as a number.  It grows with the magnitude. -/
def magnitudeBits (x : Binary64) : Nat := x.bits.toNat % Nat.pow 2 63

def exponentField (x : Binary64) : Nat := x.magnitudeBits / Nat.pow 2 52

def fractionField (x : Binary64) : Nat := x.magnitudeBits % Nat.pow 2 52

/-- Neither infinite nor not-a-number. -/
def isFinite (x : Binary64) : Bool := x.exponentField < 2047

def isInfinite (x : Binary64) : Bool := x.magnitudeBits == 2047 * Nat.pow 2 52

def isNaN (x : Binary64) : Bool := 2047 * Nat.pow 2 52 < x.magnitudeBits

def isZero (x : Binary64) : Bool := x.magnitudeBits == 0

def ofSignMagnitude (negative : Bool) (magnitude : Nat) : Binary64 :=
  ⟨UInt64.ofNat (magnitude + if negative then Nat.pow 2 63 else 0)⟩

def zero : Binary64 := ⟨0⟩

/-- The quiet not-a-number that invalid operations give. -/
def nan : Binary64 := ofSignMagnitude false (2047 * Nat.pow 2 52 + Nat.pow 2 51)

def infinity (negative : Bool) : Binary64 := ofSignMagnitude negative (2047 * Nat.pow 2 52)

def negate (x : Binary64) : Binary64 := ofSignMagnitude (!x.isNegative) x.magnitudeBits

/-- The integer significand of a finite number: its magnitude is `significand * 2 ^ scale`. -/
def significand (x : Binary64) : Nat :=
  if x.exponentField = 0 then x.fractionField else x.fractionField + Nat.pow 2 52

def scale (x : Binary64) : Int := (max x.exponentField 1 : Nat) - 1075

/-- The magnitude of a finite number as a numerator and a denominator. -/
def ratio (x : Binary64) : Nat × Nat :=
  if 0 ≤ x.scale then (x.significand * Nat.pow 2 x.scale.toNat, 1)
  else (x.significand, Nat.pow 2 (-x.scale).toNat)

/-- `num / den` rounded to a natural number, a half going to the even neighbour. -/
def roundHalfEven (num den : Nat) : Nat :=
  let q := num / den
  let r := num % den
  if 2 * r < den then q
  else if den < 2 * r then q + 1
  else if q % 2 = 0 then q
  else q + 1

/-- `num / den` divided by `2 ^ e`, as a numerator and a denominator. -/
def shiftRatio (num den : Nat) (e : Int) : Nat × Nat :=
  if 0 ≤ e then (num, den * Nat.pow 2 e.toNat) else (num * Nat.pow 2 (-e).toNat, den)

/-- The number nearest to `num / den`, for a positive `den`.  The significand is rounded at the
least exponent that leaves it fifty-three bits, never below `-1074`; magnitudes beyond the largest
finite number become infinite. -/
def ofRatio (negative : Bool) (num den : Nat) : Binary64 :=
  if num = 0 then ofSignMagnitude negative 0
  else
    let low : Int := max ((num.log2 : Int) - den.log2 - 53) (-1074)
    let (n, d) := shiftRatio num den low
    let e := if n / d < Nat.pow 2 53 then low else low + 1
    let (n, d) := shiftRatio num den e
    let m := roundHalfEven n d
    ofSignMagnitude negative (min ((e + 1074).toNat * Nat.pow 2 52 + m) (2047 * Nat.pow 2 52))

def ofInt (n : Int) : Binary64 := ofRatio (n < 0) n.natAbs 1

/-- Product, infinite factors and not-a-number as the standard says. -/
def mul (x y : Binary64) : Binary64 :=
  let negative := x.isNegative != y.isNegative
  if x.isNaN || y.isNaN then nan
  else if x.isFinite && y.isFinite then
    let (a, b) := x.ratio
    let (c, d) := y.ratio
    ofRatio negative (a * c) (b * d)
  else if x.isZero || y.isZero then nan
  else infinity negative

/-- Quotient; a nonzero number over zero is infinite. -/
def div (x y : Binary64) : Binary64 :=
  let negative := x.isNegative != y.isNegative
  if x.isNaN || y.isNaN then nan
  else if x.isFinite then
    if !y.isFinite then ofSignMagnitude negative 0
    else if y.isZero then if x.isZero then nan else infinity negative
    else
      let (a, b) := x.ratio
      let (c, d) := y.ratio
      ofRatio negative (a * d) (b * c)
  else if y.isFinite then infinity negative
  else nan

/-- The signed numerator of a finite number over the denominator of `ratio`. -/
def signedNumerator (x : Binary64) : Int :=
  if x.isNegative then -(x.ratio.1 : Int) else x.ratio.1

def add (x y : Binary64) : Binary64 :=
  if x.isNaN || y.isNaN then nan
  else if x.isFinite && y.isFinite then
    let b := x.ratio.2
    let d := y.ratio.2
    let n := x.signedNumerator * d + y.signedNumerator * b
    -- An exact zero is negative only when both operands are.
    ofRatio (if n = 0 then x.isNegative && y.isNegative else n < 0) n.natAbs (b * d)
  else if x.isFinite then y
  else if y.isFinite then x
  else if x = y then x
  else nan

def sub (x y : Binary64) : Binary64 := add x y.negate

/-- A key that orders the numbers, both zeros being equal.  Not-a-number has no place in it. -/
def orderKey (x : Binary64) : Int :=
  if x.isNegative then -(x.magnitudeBits : Int) else x.magnitudeBits

def compare (x y : Binary64) : Ordering := Ord.compare x.orderKey y.orderKey

def toInt? (x : Binary64) : Option Int :=
  if x.isFinite && x.ratio.1 % x.ratio.2 == 0 then
    some (x.signedNumerator / x.ratio.2)
  else none

def compareInt (n : Int) (x : Binary64) : Ordering :=
  if x.isFinite then Ord.compare (n * x.ratio.2) x.signedNumerator
  else if x.isNegative then .gt
  else .lt

end Binary64

end QueryBoard
