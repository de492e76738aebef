import QueryBoard.Json.Number
import QueryBoard.Number.Significant
import QueryBoard.Text.Base64
import QueryBoard.Text.Utf8
import QueryBoard.Value

/-!
# Cells of a database

A cell is null, a number, a text or a sequence of bytes.  Texts are bytes too, since nothing makes
sure that a stored text is well formed.  Cells of different kinds are ordered by kind: null, then
numbers, then texts, then bytes; texts and bytes are compared byte by byte.
-/

set_option autoImplicit false

namespace QueryBoard.Db

inductive Cell where
  | null
  | int (n : Int64)
  | real (x : Binary64)
  | text (bytes : List UInt8)
  | blob (bytes : List UInt8)
deriving DecidableEq, Repr, Inhabited

/-- Order of two sequences of bytes; a shorter one comes before what continues it. -/
def compareBytes : List UInt8 → List UInt8 → Ordering
  | [], [] => .eq
  | [], _ :: _ => .lt
  | _ :: _, [] => .gt
  | a :: as, b :: bs => if a < b then .lt else if b < a then .gt else compareBytes as bs

namespace Cell

def isNull : Cell → Bool
  | .null => true
  | _ => false

def isText : Cell → Bool
  | .text _ => true
  | _ => false

def ofString (s : String) : Cell := .text s.toUTF8.toList

/-- A number that is not not-a-number, which no cell holds. -/
def ofFloat (x : Binary64) : Cell := if x.isNaN then .null else .real x

def rank : Cell → Nat
  | .null => 0
  | .int _ | .real _ => 1
  | .text _ => 2
  | .blob _ => 3

/-- Order of cells; integers and floating-point numbers are compared by their exact values. -/
def compare : Cell → Cell → Ordering
  | .int a, .int b => Ord.compare a.toInt b.toInt
  | .int a, .real b => Binary64.compareInt a.toInt b
  | .real a, .int b => (Binary64.compareInt b.toInt a).swap
  | .real a, .real b => Binary64.compare a b
  | .text a, .text b => compareBytes a b
  | .blob a, .blob b => compareBytes a b
  | a, b => Ord.compare a.rank b.rank

def numberText : Cell → Option String
  | .int n => some (toString n.toInt)
  | .real x => some (Significant.text x)
  | _ => none

/-- What a result shows of a cell.  Bytes become base64, and broken parts of a text become
replacement characters. -/
def toJson : Cell → Json
  | .null => .null
  | .int n => .int n.toInt
  | .real x => Value.floatJson x
  | .text bytes => .str (Text.Utf8.lenient bytes)
  | .blob bytes => .str (Text.base64 bytes)

end Cell

/-- The cell that a parameter is bound to.  A list has none. -/
def Cell.ofValue? : Value → Option Cell
  | .null => some .null
  | .bool b => some (.int (if b then 1 else 0))
  | .int n => some (.int n)
  | .float x => some (ofFloat x)
  | .str s => some (ofString s)
  | .list _ => none

/-! ## Numbers in texts -/

/-- A number as written in a text. -/
structure Numeral where
  negative : Bool
  digits : List Char
  /-- The power of ten to multiply the digits by. -/
  exponent : Int
  /-- Written without point and exponent. -/
  isWhole : Bool

namespace Numeral

def isSpace (c : Char) : Bool := c = ' ' || ('\t' ≤ c && c ≤ '\r')

/-- The numeral at the front of a text and the rest, if the text starts with one.  An exponent mark
without digits does not belong to it. -/
def readFront? (cs : List Char) : Option (Numeral × List Char) :=
  let cs := cs.dropWhile isSpace
  let (negative, cs) := match cs with
    | '-' :: rest => (true, rest)
    | '+' :: rest => (false, rest)
    | cs => (false, cs)
  let whole := cs.takeWhile Char.isDigit
  let cs := cs.dropWhile Char.isDigit
  let (hasPoint, cs) := match cs with
    | '.' :: rest => (true, rest)
    | cs => (false, cs)
  let fraction := if hasPoint then cs.takeWhile Char.isDigit else []
  let cs := if hasPoint then cs.dropWhile Char.isDigit else cs
  let digits := whole ++ fraction
  let plain : Numeral :=
    { negative, digits, exponent := -(fraction.length : Int), isWhole := !hasPoint }
  if digits.isEmpty then none
  else
    match cs with
    | c :: rest =>
      if c = 'e' ∨ c = 'E' then
        let (down, rest') := match rest with
          | '-' :: rest => (true, rest)
          | '+' :: rest => (false, rest)
          | rest => (false, rest)
        let ds := rest'.takeWhile Char.isDigit
        if ds.isEmpty then some (plain, cs)
        else
          let n : Int := Json.digitsValue ds
          let exponent := plain.exponent + (if down then -n else n)
          some ({ plain with exponent, isWhole := false }, rest'.dropWhile Char.isDigit)
      else some (plain, cs)
    | [] => some (plain, [])

/-- The floating-point value.  Exponents are cut where the result is zero or infinite anyway. -/
def float (n : Numeral) : Binary64 :=
  let digits := n.digits.dropWhile (· = '0')
  let place : Int := digits.length + n.exponent
  if digits.isEmpty then Binary64.ofRatio n.negative 0 1
  else if 400 < place then Binary64.infinity n.negative
  else if place < -400 then Binary64.ofRatio n.negative 0 1
  else
    Binary64.ofRatio n.negative (Json.digitsValue digits * Nat.pow 10 n.exponent.toNat)
      (Nat.pow 10 (-n.exponent).toNat)

/-- The cell of a numeral: an integer if it is written as one and fits. -/
def cell (n : Numeral) : Cell :=
  let v : Int := Json.digitsValue n.digits
  let v := if n.negative then -v else v
  if n.isWhole ∧ -Int.pow 2 63 ≤ v ∧ v < Int.pow 2 63 then .int (Int64.ofInt v) else .real n.float

end Numeral

/-- The characters of bytes, of which only the ones of ASCII matter here. -/
def asciiChars (bytes : List UInt8) : List Char := bytes.map fun b => Char.ofNat b.toNat

namespace Cell

/-- The number that a text is from end to end, spaces around it apart; other cells stay. -/
def readNumber : Cell → Cell
  | .text bytes =>
    match Numeral.readFront? (asciiChars bytes) with
    | some (n, rest) => if rest.all Numeral.isSpace then n.cell else .text bytes
    | none => .text bytes
  | c => c

/-- The number that sums take a cell for: what a text or bytes start with, else zero. -/
def approximate : Cell → Binary64
  | .int n => Binary64.ofInt n.toInt
  | .real x => x
  | .text bytes | .blob bytes =>
    match Numeral.readFront? (asciiChars bytes) with
    | some (n, _) => n.float
    | none => .zero
  | .null => .zero

/-- The integer that a floating-point number is, strictly inside 64 bits. -/
def wholeNumber : Cell → Cell
  | .real x =>
    match x.toInt? with
    | some n => if -Int.pow 2 63 < n ∧ n < Int.pow 2 63 - 1 then .int (Int64.ofInt n) else .real x
    | none => .real x
  | c => c

def rowid? (c : Cell) : Option Int64 :=
  match c.readNumber.wholeNumber with
  | .int n => some n
  | _ => none

end Cell

/-! ## Affinity -/

/-- What a column makes of the cells that are put into it. -/
inductive Affinity where
  | none
  | text
  | numeric
  | integer
  | real
  /-- Of row ids, which are integers and nothing else. -/
  | rowid
deriving DecidableEq, Repr

namespace Affinity

def occurs (word : List Char) : List Char → Bool
  | [] => word.isEmpty
  | c :: cs => word.isPrefixOf (c :: cs) || occurs word cs

/-- The affinity of a declared type, by the words in its name. -/
def ofType (type : String) : Affinity :=
  let name := type.toList.map Char.toUpper
  let has (word : String) := occurs word.toList name
  if has "INT" then .integer
  else if has "CHAR" || has "CLOB" || has "TEXT" then .text
  else if name.isEmpty || has "BLOB" then .none
  else if has "REAL" || has "FLOA" || has "DOUB" then .real
  else .numeric

def isNumeric : Affinity → Bool
  | .numeric | .integer | .real | .rowid => true
  | .none | .text => false

/-- The cell that is stored.  Numbers become texts in text columns, texts become numbers where they
are ones, and whole numbers become integers except in real columns. -/
def store (a : Affinity) (c : Cell) : Cell :=
  match a with
  | .none => c
  | .text => c.numberText.elim c Cell.ofString
  | .numeric | .integer | .rowid => c.readNumber.wholeNumber
  | .real =>
    match c.readNumber with
    | .int n => .real (Binary64.ofInt n.toInt)
    | .real x => .real (if x.isZero then .zero else x)
    | c => c

/-- What is shown of a cell in a column of a query's own making: integers are real numbers in a real
column. -/
def shown (a : Affinity) (c : Cell) : Cell :=
  match a, c with
  | .real, .int n => .real (Binary64.ofInt n.toInt)
  | _, c => c

/-- Both operands of a comparison under an affinity: numeric columns turn texts into numbers, and
text columns turn a number next to a text into a text. -/
def forComparison (a : Affinity) (x y : Cell) : Cell × Cell :=
  if a.isNumeric then (x.readNumber, y.readNumber)
  else if a = .text ∧ (x.isText ∨ y.isText) then
    (x.numberText.elim x Cell.ofString, y.numberText.elim y Cell.ofString)
  else (x, y)

/-- The affinity of a comparison: that of the only column in it; between two columns a numeric one
makes it numeric, and else there is none. -/
def between : Option Affinity → Option Affinity → Affinity
  | .some a, .some b => if a.isNumeric || b.isNumeric then .numeric else .none
  | .some a, .none | .none, .some a => a
  | .none, .none => .none

end Affinity

end QueryBoard.Db
