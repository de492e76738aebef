/-!
# UTF-8

Reading bytes as text.  A reading step takes either one well-formed character or one maximal
invalid part: the longest start of a character that the following byte does not continue, or a
single byte that starts none.  Strict reading refuses invalid parts; lenient reading puts the
replacement character for each of them.
-/

set_option autoImplicit false

namespace QueryBoard.Text.Utf8

/-- The bytes that may follow a first byte: how many, and the least and greatest value of the
first of them.  Later ones lie between `0x80` and `0xBF`. -/
def continuation? (first : Nat) : Option (Nat × Nat × Nat) :=
  if 0xC2 ≤ first ∧ first ≤ 0xDF then some (1, 0x80, 0xBF)
  else if first = 0xE0 then some (2, 0xA0, 0xBF)
  else if first = 0xED then some (2, 0x80, 0x9F)
  else if 0xE1 ≤ first ∧ first ≤ 0xEF then some (2, 0x80, 0xBF)
  else if first = 0xF0 then some (3, 0x90, 0xBF)
  else if 0xF1 ≤ first ∧ first ≤ 0xF3 then some (3, 0x80, 0xBF)
  else if first = 0xF4 then some (3, 0x80, 0x8F)
  else none

/-- The payload bits of a first byte that announces `count` further bytes. -/
def leadBits (first count : Nat) : Nat := first % Nat.pow 2 (6 - count)

/-- Takes `count` continuation bytes, the next one between `low` and `high`.  A missing or wrong
byte ends the part before it. -/
def takeTail : Nat → Nat → Nat → Nat → List UInt8 → Option Nat × List UInt8
  | 0, _, _, acc, rest => (some acc, rest)
  | _ + 1, _, _, _, [] => (none, [])
  | count + 1, low, high, acc, b :: rest =>
    if low ≤ b.toNat ∧ b.toNat ≤ high then
      takeTail count 0x80 0xBF (acc * 64 + b.toNat % 64) rest
    else (none, b :: rest)

theorem takeTail_length (count low high acc : Nat) (bytes : List UInt8) :
    (takeTail count low high acc bytes).2.length ≤ bytes.length := by
  fun_induction takeTail count low high acc bytes with
  | case1 => simp
  | case2 => simp
  | case3 _ _ _ _ _ _ _ ih => simp; omega
  | case4 => simp

/-- The pieces of a sequence of bytes: characters, and `none` for each maximal invalid part. -/
def pieces : List UInt8 → List (Option Char)
  | [] => []
  | b :: rest =>
    if b.toNat < 0x80 then some (Char.ofNat b.toNat) :: pieces rest
    else
      match continuation? b.toNat with
      | none => none :: pieces rest
      | some (count, low, high) =>
        let taken := takeTail count low high (leadBits b.toNat count) rest
        taken.1.map Char.ofNat :: pieces taken.2
termination_by bytes => bytes.length
decreasing_by
  all_goals simp
  have := takeTail_length count low high (leadBits b.toNat count) rest
  omega

/-- Where the first invalid part starts, after `start` bytes, and how many bytes it has unless the
sequence ends within it. -/
def faultFrom? (start : Nat) : List UInt8 → Option (Nat × Option Nat)
  | [] => none
  | b :: rest =>
    if b.toNat < 0x80 then faultFrom? (start + 1) rest
    else
      match continuation? b.toNat with
      | none => some (start, some 1)
      | some (count, low, high) =>
        let taken := takeTail count low high (leadBits b.toNat count) rest
        match taken.1 with
        | some _ => faultFrom? (start + 1 + count) taken.2
        | none =>
          some (start, if taken.2.isEmpty then none else some (1 + rest.length - taken.2.length))
termination_by bytes => bytes.length
decreasing_by
  all_goals simp
  have := takeTail_length count low high (leadBits b.toNat count) rest
  omega

/-- The text with the replacement character for every invalid part. -/
def lenient (bytes : List UInt8) : String :=
  String.ofList ((pieces bytes).map fun p => p.getD '\uFFFD')

def strict? (bytes : List UInt8) : Option String :=
  ((pieces bytes).mapM id).map String.ofList

end QueryBoard.Text.Utf8
