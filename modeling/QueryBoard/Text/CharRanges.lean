/-!
# Sets of characters

A property of characters is stored as its ranges of code points, first and last included, in
rising order.
-/

set_option autoImplicit false

namespace QueryBoard.Text

def inRanges (ranges : List (Nat × Nat)) (c : Char) : Bool :=
  ranges.any fun r => r.1 ≤ c.toNat && c.toNat ≤ r.2

end QueryBoard.Text
