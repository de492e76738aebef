import QueryBoard.Number.Binary64

/-!
# Shortest decimals

`Shortest.digits` gives the shortest decimal digits that name a finite number: on coarser and
coarser grids of powers of ten, the first grid that has a point in the interval of reals that
round to the number, and on it the nearest point.  `Shortest.text` writes these digits out:
positionally while the decimal point stays near the digits, with an exponent elsewhere.
-/

set_option autoImplicit false

namespace QueryBoard.Shortest

/-- The interval of reals that round to a positive number, and the number itself, as numerators
over one denominator.  The interval holds its ends exactly if the significand is even. -/
structure Interval where
  low : Nat
  value : Nat
  high : Nat
  den : Nat
  closed : Bool
deriving Repr

/-- The rounding interval of a positive finite number.  Below a power of two the neighbours are
twice as close, so the lower half of the interval is half as wide. -/
def Interval.of (x : Binary64) : Interval :=
  let m := x.significand
  let below := if x.fractionField = 0 ∧ 1 < x.exponentField then 1 else 2
  let s := x.scale - 2
  let up : Nat := if 0 ≤ s then Nat.pow 2 s.toNat else 1
  let den : Nat := if 0 ≤ s then 1 else Nat.pow 2 (-s).toNat
  { low := (4 * m - below) * up, value := 4 * m * up, high := (4 * m + 2) * up, den,
    closed := m % 2 == 0 }

/-- Whether `c * 10 ^ t` lies in the interval. -/
def Interval.contains (i : Interval) (c : Nat) (t : Int) : Bool :=
  let a := if 0 ≤ t then c * Nat.pow 10 t.toNat * i.den else c * i.den
  let unit := if 0 ≤ t then 1 else Nat.pow 10 (-t).toNat
  if i.closed then i.low * unit ≤ a && a ≤ i.high * unit
  else i.low * unit < a && a < i.high * unit

/-- The value in units of `10 ^ t`, as a numerator and a denominator. -/
def Interval.inUnits (i : Interval) (t : Int) : Nat × Nat :=
  if 0 ≤ t then (i.value, i.den * Nat.pow 10 t.toNat) else (i.value * Nat.pow 10 (-t).toNat, i.den)

/-- The nearest grid point of step `10 ^ t` that lies in the interval, if there is one. -/
def Interval.onGrid? (i : Interval) (t : Int) : Option Nat :=
  let (n, d) := i.inUnits t
  let below := n / d
  let lowHit := below ≠ 0 ∧ i.contains below t = true
  let highHit := i.contains (below + 1) t = true
  if lowHit ∧ highHit then some (Binary64.roundHalfEven n d)
  else if lowHit then some below
  else if highHit then some (below + 1)
  else none

/-- The number of decimal digits of a natural number, with `bound` at least that number. -/
def digitCount : Nat → Nat → Nat
  | 0, _ => 0
  | bound + 1, n => if n = 0 then 0 else digitCount bound (n / 10) + 1

/-- The number of zeros between the point and the first digit of `n / d < 1`, looking at most
`bound` places far. -/
def leadingZeros : Nat → Nat → Nat → Nat
  | 0, _, _ => 0
  | bound + 1, n, d => if d ≤ 10 * n then 0 else leadingZeros bound (10 * n) d + 1

def Interval.leadingExponent (i : Interval) : Int :=
  if i.den ≤ i.value then digitCount 310 (i.value / i.den) - 1
  else -(leadingZeros 330 i.value i.den : Int) - 1

/-- Tries grids with `count`, `count + 1`, … digits, `tries` of them. -/
def Interval.search (i : Interval) (lead : Int) : Nat → Nat → Nat × Int
  | 0, _ => (0, 0)
  | tries + 1, count =>
    let t := lead + 1 - count
    match i.onGrid? t with
    | some c => (c, t)
    | none => i.search lead tries (count + 1)

/-- Drops final zeros, raising the exponent by one for each, at most `bound` of them. -/
def dropZeros : Nat → Nat × Int → Nat × Int
  | 0, p => p
  | bound + 1, (c, t) => if c ≠ 0 ∧ c % 10 = 0 then dropZeros bound (c / 10, t + 1) else (c, t)

/-- The shortest digits `c` and exponent `t` such that `c * 10 ^ t` reads back as the finite
nonzero number.  Seventeen digits always suffice. -/
def digits (x : Binary64) : Nat × Int :=
  let i := Interval.of x
  dropZeros 20 (i.search i.leadingExponent 18 1)

/-- Where the decimal point is written in place.  With `k` the place of the point counted from
the first digit, positional notation is used for `-4 ≤ k ≤ 16`. -/
structure Layout where
  leastPoint : Int
  greatestPoint : Int

/-- JSON text writes a number positionally from `0.00001` up to below `1e16`. -/
def jsonLayout : Layout := ⟨-4, 16⟩

/-- Writes digits and exponent: positionally within the layout's bounds, always with a digit on
both sides of the point; otherwise with one digit before the point, no point when there is only
that digit, and an exponent with its sign. -/
def Layout.write (l : Layout) (c : Nat) (t : Int) : String :=
  let ds := toString c
  let n : Int := ds.length
  let point := n + t
  if 0 ≤ t ∧ point ≤ l.greatestPoint then
    ds ++ String.ofList (List.replicate t.toNat '0') ++ ".0"
  else if 0 < point ∧ point ≤ l.greatestPoint then
    String.ofList (ds.toList.take point.toNat) ++ "." ++ String.ofList (ds.toList.drop point.toNat)
  else if l.leastPoint ≤ point ∧ point ≤ 0 then
    "0." ++ String.ofList (List.replicate (-point).toNat '0') ++ ds
  else
    let lead := String.ofList (ds.toList.take 1)
    let tail := String.ofList (ds.toList.drop 1)
    lead ++ (if tail.isEmpty then "" else "." ++ tail) ++
      (if 0 < point then "e+" else "e") ++ toString (point - 1)

/-- The text of a finite number: the shortest digits that read back, in the JSON layout.  Zero
keeps its sign. -/
def text (x : Binary64) : String :=
  let sign := if x.isNegative then "-" else ""
  if x.isZero then sign ++ "0.0"
  else
    let (c, t) := digits x
    sign ++ jsonLayout.write c t

end QueryBoard.Shortest
