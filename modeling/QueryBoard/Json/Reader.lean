import QueryBoard.Json.Document
import QueryBoard.Json.Number
import QueryBoard.Text.Hex

/-!
# Reading JSON

A recursive reader for the JSON grammar.  Blanks are the four of the grammar and strings hold no raw
control character.  What is well written has no value all the same if it is a string with a
surrogate that lacks its partner, a number too large for floating point, or an array or object
inside 127 others.  `Document.read` takes a document off the front of a text and leaves the rest,
`parse?` wants the value of a whole text.
-/

set_option autoImplicit false

namespace QueryBoard

namespace Json

def isJsonBlank (c : Char) : Bool := c = ' ' || c = '\t' || c = '\n' || c = '\r'

def skipBlanks (cs : List Char) : List Char := cs.dropWhile isJsonBlank

def expect? : List Char → List Char → Option (List Char)
  | [], cs => some cs
  | _ :: _, [] => none
  | w :: ws, c :: cs => if w = c then expect? ws cs else none

def hexUnit? : List Char → Option (Nat × List Char)
  | a :: b :: c :: d :: rest => do
    let w ← Text.hexValue? a
    let x ← Text.hexValue? b
    let y ← Text.hexValue? c
    let z ← Text.hexValue? d
    return (((w * 16 + x) * 16 + y) * 16 + z, rest)
  | _ => none

def shortEscape? : Char → Option Char
  | '"' => some '"'
  | '\\' => some '\\'
  | '/' => some '/'
  | 'b' => some '\x08'
  | 'f' => some '\x0c'
  | 'n' => some '\n'
  | 'r' => some '\r'
  | 't' => some '\t'
  | _ => none

/-- The low surrogate that an escape at the front of a text names, and what follows it. -/
def lowSurrogate? : List Char → Option (Nat × List Char)
  | '\\' :: 'u' :: rest => do
    let (unit, rest) ← hexUnit? rest
    if 0xDC00 ≤ unit ∧ unit < 0xE000 then return (unit, rest) else none
  | _ => none

/-- The character of an escape, after its backslash.  It has none if it is a surrogate on its own:
a high one needs the escape of a low one at once. -/
def escape? : List Char → Option (Option Char × List Char)
  | 'u' :: rest => do
    let (unit, rest) ← hexUnit? rest
    if unit < 0xD800 ∨ 0xE000 ≤ unit then return (some (Char.ofNat unit), rest)
    else
      match if unit < 0xDC00 then lowSurrogate? rest else none with
      | some (low, rest) =>
        return (some (Char.ofNat (0x10000 + (unit - 0xD800) * 0x400 + (low - 0xDC00))), rest)
      | none => return (none, rest)
  | c :: rest => do return (some (← shortEscape? c), rest)
  | [] => none

/-- The characters of a string after its opening quote, `acc` holding the earlier ones backwards,
or none from a character on that has no value.  The first argument bounds the number of
characters. -/
def readString? : Nat → Option (List Char) → List Char → Option (Option String × List Char)
  | 0, _, _ => none
  | _ + 1, _, [] => none
  | bound + 1, acc, c :: rest =>
    if c = '"' then some (acc.map fun cs => String.ofList cs.reverse, rest)
    else if c = '\\' then
      match escape? rest with
      | some (some e, rest) => readString? bound (acc.map (e :: ·)) rest
      | some (none, rest) => readString? bound none rest
      | none => none
    else if c.toNat < 0x20 then none
    else readString? bound (acc.map (c :: ·)) rest

def spanDigits (cs : List Char) : List Char × List Char :=
  (cs.takeWhile Char.isDigit, cs.dropWhile Char.isDigit)

/-- The parts of a number at the front of a text.  The whole part is zero or starts with another
digit; a point and an exponent mark want digits after them. -/
def readNumber? (cs : List Char) : Option (NumberText × List Char) := do
  let (negative, cs) := match cs with
    | '-' :: rest => (true, rest)
    | _ => (false, cs)
  let (whole, cs) := spanDigits cs
  if whole.isEmpty || (whole.head? = some '0' && 1 < whole.length) then none
  let (fraction, cs) ← match cs with
    | '.' :: rest =>
      let (ds, rest) := spanDigits rest
      if ds.isEmpty then none else some (ds, rest)
    | _ => some ([], cs)
  let (exponent, cs) ← match cs with
    | c :: rest =>
      if c = 'e' ∨ c = 'E' then
        let (negative, rest) := match rest with
          | '-' :: rest => (true, rest)
          | '+' :: rest => (false, rest)
          | _ => (false, rest)
        let (ds, rest) := spanDigits rest
        if ds.isEmpty then none else some (some (negative, ds), rest)
      else some (none, cs)
    | [] => some (none, cs)
  return ({ negative, whole, fraction, exponent }, cs)

/-- A part of a document and what follows it; nothing follows a place where the text is broken. -/
abbrev Step (α : Type) := α × Option (List Char)

/-- A document that may still be a container in its surroundings or, without room for one more
container, has no value. -/
def Step.within (room : Nat) (s : Step Document) : Step Document :=
  match room, s.2 with
  | 0, some rest => (.valueless, some rest)
  | 0, none => (.broken, none)
  | _ + 1, _ => s

def readWord (word : List Char) (d : Document) (cs : List Char) : Step Document :=
  match expect? word cs with
  | some rest => (d, some rest)
  | none => (.broken, none)

mutual

/-- One document at the front of a text.  `bound` limits the number of steps and `room` the number
of containers that may still be opened. -/
def readValue : Nat → Nat → List Char → Step Document
  | 0, _, _ => (.broken, none)
  | bound + 1, room, cs =>
    match skipBlanks cs with
    | 'n' :: rest => readWord ['u', 'l', 'l'] .null rest
    | 't' :: rest => readWord ['r', 'u', 'e'] (.bool true) rest
    | 'f' :: rest => readWord ['a', 'l', 's', 'e'] (.bool false) rest
    | '"' :: rest =>
      match readString? bound (some []) rest with
      | some (some s, rest) => (.str s, some rest)
      | some (none, rest) => (.valueless, some rest)
      | none => (.broken, none)
    | '[' :: rest =>
      Step.within room <|
        match skipBlanks rest with
        | ']' :: rest => (.arr [], some rest)
        | _ =>
          let (items, rest) := readItems bound (room - 1) rest
          (.arr items, rest)
    | '\x7b' :: rest =>
      Step.within room <|
        match skipBlanks rest with
        | '\x7d' :: rest => (.obj [], some rest)
        | _ =>
          let (entries, rest) := readEntries bound (room - 1) rest
          (.obj entries, rest)
    | cs =>
      match readNumber? cs with
      | some (t, rest) => ((t.value.map document).getD .valueless, some rest)
      | none => (.broken, none)

def readItems : Nat → Nat → List Char → Step (List Document)
  | 0, _, _ => ([.broken], none)
  | bound + 1, room, cs =>
    match readValue bound room cs with
    | (d, none) => ([d], none)
    | (d, some rest) =>
      match skipBlanks rest with
      | ',' :: rest =>
        let (items, rest) := readItems bound room rest
        (d :: items, rest)
      | ']' :: rest => ([d], some rest)
      | _ => ([d, .broken], none)

def readEntries : Nat → Nat → List Char → Step (List Document.Entry)
  | 0, _, _ => ([(none, .broken)], none)
  | bound + 1, room, cs =>
    match skipBlanks cs with
    | '"' :: rest =>
      match readString? bound (some []) rest with
      | none => ([(none, .broken)], none)
      | some (key, rest) =>
        match skipBlanks rest with
        | ':' :: rest =>
          match readValue bound room rest with
          | (d, none) => ([(key, d)], none)
          | (d, some rest) =>
            match skipBlanks rest with
            | ',' :: rest =>
              let (entries, rest) := readEntries bound room rest
              ((key, d) :: entries, rest)
            | '\x7d' :: rest => ([(key, d)], some rest)
            | _ => ([(key, d), (none, .broken)], none)
        | _ => ([(none, .broken)], none)
    | _ => ([(none, .broken)], none)

end

/-- How deep arrays and objects may nest. -/
def depthLimit : Nat := 127

end Json

def Document.read (s : String) : Json.Step Document :=
  let cs := s.toList
  Json.readValue (2 * cs.length + 2) Json.depthLimit cs

/-- The value that a whole text is, blanks around it apart. -/
def Json.parse? (s : String) : Option Json :=
  match Document.read s with
  | (d, some rest) => if (Json.skipBlanks rest).isEmpty then d.json? else none
  | (_, none) => none

end QueryBoard
