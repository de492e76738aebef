import QueryBoard.Json.Number
import QueryBoard.Text.Hex
import QueryBoard.Toml.Basic

/-!
# TOML scalars without quotes

Booleans, numbers, dates and times, each given as the whole run of characters that it consists of.
Digits may be set apart by single underscores between two of them.
-/

set_option autoImplicit false

namespace QueryBoard.Toml

/-- The digits of a run without its underscores, each of which must stand between two digits. -/
def plainDigits? (isDigit : Char → Bool) : List Char → Option (List Char)
  | [] => none
  | [c] => if isDigit c then some [c] else none
  | c :: '_' :: rest =>
    if isDigit c then (plainDigits? isDigit rest).map (c :: ·) else none
  | c :: rest => if isDigit c then (plainDigits? isDigit rest).map (c :: ·) else none

/-- Decimal digits, without a zero in front of others. -/
def wholeDigits? (cs : List Char) : Option (List Char) := do
  let ds ← plainDigits? Char.isDigit cs
  if ds.head? = some '0' ∧ 1 < ds.length then none else some ds

def digitsInBase (base : Nat) (ds : List Char) : Nat :=
  ds.foldl (fun acc c => acc * base + (Text.hexValue? c).getD 0) 0

def isDigitBelow (base : Nat) (c : Char) : Bool :=
  match Text.hexValue? c with
  | some v => v < base
  | none => false

/-- A number without sign in base sixteen, eight or two. -/
def basedInteger? : List Char → Option Nat
  | '0' :: 'x' :: rest => (plainDigits? (isDigitBelow 16) rest).map (digitsInBase 16)
  | '0' :: 'o' :: rest => (plainDigits? (isDigitBelow 8) rest).map (digitsInBase 8)
  | '0' :: 'b' :: rest => (plainDigits? (isDigitBelow 2) rest).map (digitsInBase 2)
  | _ => none

def splitSign : List Char → Bool × List Char
  | '-' :: rest => (true, rest)
  | '+' :: rest => (false, rest)
  | cs => (false, cs)

def integer? (cs : List Char) : Option Int :=
  match basedInteger? cs with
  | some n => some (n : Int)
  | none =>
    let (negative, cs) := splitSign cs
    (wholeDigits? cs).map fun ds =>
      if negative then -(Json.digitsValue ds : Int) else Json.digitsValue ds

/-- Whether `c * 10 ^ e` for digits `c` is beyond the range of floating point. -/
def isTooLarge (ds : List Char) (e : Int) : Bool :=
  let ds := ds.dropWhile (· = '0')
  let place : Int := ds.length + e
  !ds.isEmpty && (310 < place ||
    (-310 < place && (Binary64.ofRatio false (Json.digitsValue ds * Nat.pow 10 e.toNat)
      (Nat.pow 10 (-e).toNat)).isInfinite))

/-- Splits at the first character that satisfies a test, which is dropped. -/
def splitAtFirst (p : Char → Bool) (cs : List Char) : List Char × Option (List Char) :=
  match cs.dropWhile fun c => !p c with
  | [] => (cs, none)
  | _ :: rest => (cs.takeWhile fun c => !p c, some rest)

/-- Whether a run that is a number with a fraction, an exponent or both, or one of the named
numbers, is beyond the range of floating point; nothing for other runs. -/
def float? (cs : List Char) : Option Bool := do
  let (_, cs) := splitSign cs
  if cs = ['i', 'n', 'f'] ∨ cs = ['n', 'a', 'n'] then return false
  let (mantissa, exponent) := splitAtFirst (fun c => c = 'e' || c = 'E') cs
  let (whole, fraction) := splitAtFirst (· = '.') mantissa
  if exponent.isNone && fraction.isNone then none
  let whole ← wholeDigits? whole
  let fraction ← match fraction with
    | none => some []
    | some f => plainDigits? Char.isDigit f
  let e : Int ← match exponent with
    | none => some 0
    | some e =>
      let (negative, e) := splitSign e
      (plainDigits? Char.isDigit e).map fun ds =>
        if negative then -(Json.digitsValue ds : Int) else Json.digitsValue ds
  return isTooLarge (whole ++ fraction) (e - fraction.length)

/-- The value of a fixed count of decimal digits in front, and the rest. -/
def fixedDigits? (count : Nat) (cs : List Char) : Option (Nat × List Char) :=
  let ds := cs.take count
  if ds.length = count ∧ ds.all Char.isDigit = true then
    some (Json.digitsValue ds, cs.drop count)
  else none

def daysIn (year month : Nat) : Nat :=
  if month = 2 then
    if year % 4 = 0 ∧ (year % 100 ≠ 0 ∨ year % 400 = 0) then 29 else 28
  else if month ∈ [4, 6, 9, 11] then 30
  else 31

def skipDate? (cs : List Char) : Option (List Char) := do
  let (year, cs) ← fixedDigits? 4 cs
  let cs ← cs.head?.bind fun c => if c = '-' then some cs.tail else none
  let (month, cs) ← fixedDigits? 2 cs
  let cs ← cs.head?.bind fun c => if c = '-' then some cs.tail else none
  let (day, cs) ← fixedDigits? 2 cs
  if 1 ≤ month ∧ month ≤ 12 ∧ 1 ≤ day ∧ day ≤ daysIn year month then some cs else none

/-- Takes a time of day off the front.  It may have seconds, and those may have a fraction. -/
def skipTime? (cs : List Char) : Option (List Char) := do
  let (hour, cs) ← fixedDigits? 2 cs
  let cs ← cs.head?.bind fun c => if c = ':' then some cs.tail else none
  let (minute, cs) ← fixedDigits? 2 cs
  if hour ≤ 23 ∧ minute ≤ 59 then
    match cs with
    | ':' :: cs => do
      let (second, cs) ← fixedDigits? 2 cs
      if 60 < second then none
      match cs with
      | '.' :: rest =>
        if (rest.takeWhile Char.isDigit).isEmpty then none
        else some (rest.dropWhile Char.isDigit)
      | cs => some cs
    | cs => some cs
  else none

def isOffset (cs : List Char) : Bool :=
  match cs with
  | ['Z'] | ['z'] => true
  | c :: rest =>
    let ok : Option Bool := do
      let (hour, rest) ← fixedDigits? 2 rest
      let rest ← rest.head?.bind fun c => if c = ':' then some rest.tail else none
      let (minute, rest) ← fixedDigits? 2 rest
      return rest.isEmpty && hour ≤ 23 && minute ≤ 59
    (c = '+' || c = '-') && ok.getD false
  | [] => false

/-- Whether a run is a date, a time, or both with an offset or without. -/
def isDatetime (cs : List Char) : Bool :=
  match skipDate? cs with
  | some [] => true
  | some (c :: rest) =>
    (c = 'T' || c = 't' || c = ' ') &&
      (match skipTime? rest with
        | some rest => rest.isEmpty || isOffset rest
        | none => false)
  | none => skipTime? cs = some []

def scalar? (cs : List Char) : Option Toml :=
  if cs = ['t', 'r', 'u', 'e'] then some (.bool true)
  else if cs = ['f', 'a', 'l', 's', 'e'] then some (.bool false)
  else
    match integer? cs with
    | some n => some (.int n)
    | none =>
      match float? cs with
      | some tooLarge => some (.float tooLarge (String.ofList cs))
      | none => if isDatetime cs then some (.datetime (String.ofList cs)) else none

end QueryBoard.Toml
