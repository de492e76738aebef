import QueryBoard.Number.Shortest

/-!
# A fixed count of significant digits

Decimal text of a number rounded to fifteen significant digits, a half going away from zero.  There
is always a digit on either side of the point; very small and very large numbers have an exponent
of at least two digits with its sign.
-/

set_option autoImplicit false

namespace QueryBoard.Significant

def precision : Nat := 15

/-- `num / den` rounded to a natural number, a half going up. -/
def roundHalfUp (num den : Nat) : Nat := (2 * num + den) / (2 * den)

/-- The kept digits of a positive finite number as one number, and the exponent of the first. -/
def digits (x : Binary64) : Nat × Int :=
  let lead := (Shortest.Interval.of x).leadingExponent
  let (n, d) := x.ratio
  let shift : Int := precision - 1 - lead
  let q :=
    if 0 ≤ shift then roundHalfUp (n * Nat.pow 10 shift.toNat) d
    else roundHalfUp n (d * Nat.pow 10 (-shift).toNat)
  if q < Nat.pow 10 precision then (q, lead) else (q / 10, lead + 1)

/-- The text of digits after a point, of which there is at least one. -/
def fraction (ds : List Char) : String := "." ++ String.ofList (if ds.isEmpty then ['0'] else ds)

/-- The exponent with sign and at least two digits. -/
def exponentText (e : Int) : String :=
  let n := toString e.natAbs
  "e" ++ (if e < 0 then "-" else "+") ++ (if n.length < 2 then "0" else "") ++ n

def text (x : Binary64) : String :=
  let sign := if x.isNegative && !x.isZero then "-" else ""
  if x.isZero then "0.0"
  else if !x.isFinite then sign ++ "Inf"
  else
    let (c, lead) := digits x
    let ds := (toString (Shortest.dropZeros precision (c, 0)).1).toList
    if lead < -4 ∨ precision ≤ lead then
      sign ++ String.ofList (ds.take 1) ++ fraction (ds.drop 1) ++ exponentText lead
    else if lead < 0 then
      sign ++ "0" ++ fraction (List.replicate (-lead - 1).toNat '0' ++ ds)
    else
      let whole := (lead + 1).toNat
      sign ++ String.ofList (ds.take whole ++ List.replicate (whole - ds.length) '0') ++
        fraction (ds.drop whole)

end QueryBoard.Significant
