import QueryBoard.Text.Hex
import QueryBoard.Toml.Scalar

/-!
# Reading TOML

A document is read line by line: a header selects the table that the keys after it belong to.
`parse?` gives the fields of the whole document, or nothing for a text that is no document.
-/

set_option autoImplicit false

namespace QueryBoard.Toml

def isTomlBlank (c : Char) : Bool := c = ' ' || c = '\t'

def skipSpace (cs : List Char) : List Char := cs.dropWhile isTomlBlank

/-- Characters that stand in no comment and no string on one line. -/
def isControl (c : Char) : Bool := (c.toNat < 0x20 && c != '\t') || c.toNat == 0x7F

/-- What follows a line break, which must be here. -/
def lineBreak? : List Char → Option (List Char)
  | '\n' :: rest => some rest
  | '\r' :: '\n' :: rest => some rest
  | _ => none

def skipComment? (cs : List Char) : Option (List Char) :=
  match cs with
  | '#' :: rest =>
    let rest := rest.dropWhile fun c => !isControl c
    if rest.isEmpty || (lineBreak? rest).isSome then some rest else none
  | cs => some cs

/-- Finishes a line: blanks, a comment, and the line break or the end of the text. -/
def endLine? (cs : List Char) : Option (List Char) := do
  match ← skipComment? (skipSpace cs) with
  | [] => some []
  | cs => lineBreak? cs

/-- Skips blanks, comments and line breaks; the first argument bounds the number of lines. -/
def skipLines? : Nat → List Char → Option (List Char)
  | 0, cs => some cs
  | bound + 1, cs => do
    let cs ← skipComment? (skipSpace cs)
    match lineBreak? cs with
    | some rest => skipLines? bound rest
    | none => some cs

def unicodeEscape? (count : Nat) (cs : List Char) : Option (Char × List Char) := do
  let ds := cs.take count
  if ds.length ≠ count then none
  let vs ← ds.mapM Text.hexValue?
  let n := vs.foldl (fun acc v => acc * 16 + v) 0
  if n < 0xD800 ∨ (0xE000 ≤ n ∧ n < 0x110000) then some (Char.ofNat n, cs.drop count) else none

def escapeChar? : List Char → Option (Char × List Char)
  | 'b' :: rest => some ('\x08', rest)
  | 'e' :: rest => some ('\x1b', rest)
  | 't' :: rest => some ('\t', rest)
  | 'n' :: rest => some ('\n', rest)
  | 'f' :: rest => some ('\x0c', rest)
  | 'r' :: rest => some ('\r', rest)
  | '"' :: rest => some ('"', rest)
  | '\\' :: rest => some ('\\', rest)
  | 'x' :: rest => unicodeEscape? 2 rest
  | 'u' :: rest => unicodeEscape? 4 rest
  | 'U' :: rest => unicodeEscape? 8 rest
  | _ => none

def skipAllBlanks : List Char → List Char
  | [] => []
  | '\r' :: '\n' :: rest => skipAllBlanks rest
  | c :: rest => if isTomlBlank c || c = '\n' then skipAllBlanks rest else c :: rest

/-- What follows a backslash at the end of a line: the next character that is not blank. -/
def continuedLine? (cs : List Char) : Option (List Char) := do
  let _ ← lineBreak? (skipSpace cs)
  return skipAllBlanks cs

/-- A string on one line, after its opening quote. -/
def readLine? (quote : Char) : Nat → List Char → List Char → Option (String × List Char)
  | 0, _, _ => none
  | _ + 1, _, [] => none
  | bound + 1, acc, c :: rest =>
    if c = quote then some (String.ofList acc.reverse, rest)
    else if c = '\\' ∧ quote = '"' then
      match escapeChar? rest with
      | some (e, rest) => readLine? quote bound (e :: acc) rest
      | none => none
    else if isControl c then none
    else readLine? quote bound (c :: acc) rest

/-- A string over several lines, after its three opening quotes.  Line breaks are kept as they are
written, and up to two quotes may stand at the very end. -/
def readLines? (quote : Char) : Nat → List Char → List Char → Option (String × List Char)
  | 0, _, _ => none
  | _ + 1, _, [] => none
  | bound + 1, acc, c :: rest =>
    if c = quote then
      let quotes := (c :: rest).takeWhile (· = quote)
      if 6 ≤ quotes.length then none
      else if 3 ≤ quotes.length then
        some (String.ofList (acc.reverse ++ quotes.drop 3), rest.drop (quotes.length - 1))
      else readLines? quote bound (c :: acc) rest
    else if c = '\\' ∧ quote = '"' then
      match escapeChar? rest with
      | some (e, rest) => readLines? quote bound (e :: acc) rest
      | none =>
        match continuedLine? rest with
        | some rest => readLines? quote bound acc rest
        | none => none
    else
      match c, rest with
      | '\n', rest => readLines? quote bound ('\n' :: acc) rest
      | '\r', '\n' :: rest => readLines? quote bound ('\n' :: '\r' :: acc) rest
      | c, rest => if isControl c then none else readLines? quote bound (c :: acc) rest

def readString? (quote : Char) (cs : List Char) : Option (String × List Char) :=
  match cs with
  | a :: b :: rest =>
    if a = quote ∧ b = quote then
      readLines? quote (cs.length + 1) [] ((lineBreak? rest).getD rest)
    else readLine? quote (cs.length + 1) [] cs
  | cs => readLine? quote (cs.length + 1) [] cs

def isBareKeyChar (c : Char) : Bool := c.isAlphanum || c = '_' || c = '-'

def readKeyPart? (cs : List Char) : Option (String × List Char) :=
  match cs with
  | '"' :: rest => readLine? '"' (rest.length + 1) [] rest
  | '\'' :: rest => readLine? '\'' (rest.length + 1) [] rest
  | cs =>
    let part := cs.takeWhile isBareKeyChar
    if part.isEmpty then none else some (String.ofList part, cs.dropWhile isBareKeyChar)

/-- How deep values may be nested, and how many parts a key may have. -/
def depthLimit : Nat := 80

/-- The parts of a key with points between them; the first argument bounds their number. -/
def readKeyParts? : Nat → List Char → Option (List String × List Char)
  | 0, _ => none
  | bound + 1, cs => do
    let (part, rest) ← readKeyPart? (skipSpace cs)
    match skipSpace rest with
    | '.' :: rest => do
      let (parts, rest) ← readKeyParts? bound rest
      return (part :: parts, rest)
    | rest => return ([part], rest)

def readKey? (cs : List Char) : Option (List String × List Char) := readKeyParts? depthLimit cs

def isScalarChar (c : Char) : Bool :=
  c.isAlphanum || c = '_' || c = '-' || c = '+' || c = '.' || c = ':'

/-- A scalar without quotes.  A date may go on with its time after one space. -/
def readScalar? (cs : List Char) : Option (Toml × List Char) := do
  let run := cs.takeWhile isScalarChar
  let rest := cs.dropWhile isScalarChar
  let time := rest.tail.takeWhile isScalarChar
  let whole := run ++ ' ' :: time
  if rest.head? = some ' ' ∧ skipDate? run = some [] ∧ time.head?.any Char.isDigit = true then
    return (← scalar? whole, rest.tail.dropWhile isScalarChar)
  else return (← scalar? run, rest)

mutual

/-- A value; the first argument bounds the number of steps, the second the depth of nesting. -/
def readValue? : Nat → Nat → List Char → Option (Toml × List Char)
  | 0, _, _ => none
  | bound + 1, depth, cs =>
    match skipSpace cs, depth with
    | '"' :: rest, _ => (readString? '"' rest).map fun p => (.str p.1, p.2)
    | '\'' :: rest, _ => (readString? '\'' rest).map fun p => (.str p.1, p.2)
    | '[' :: rest, depth + 1 =>
      (readItems? bound depth rest).map fun p => (.array false p.1, p.2)
    | '\x7b' :: rest, depth + 1 =>
      (readInline? bound depth [] rest).map fun p => (.table .inline p.1, p.2)
    | cs, _ => readScalar? cs

def readItems? : Nat → Nat → List Char → Option (List Toml × List Char)
  | 0, _, _ => none
  | bound + 1, depth, cs => do
    match ← skipLines? (cs.length + 1) cs with
    | ']' :: rest => return ([], rest)
    | cs => do
      let (item, rest) ← readValue? bound depth cs
      match ← skipLines? (rest.length + 1) rest with
      | ',' :: rest => do
        let (items, rest) ← readItems? bound depth rest
        return (item :: items, rest)
      | ']' :: rest => return ([item], rest)
      | _ => none

/-- The fields of an inline table up to its closing brace.  Line breaks and comments may stand
around keys and values. -/
def readInline? : Nat → Nat → Fields → List Char → Option (Fields × List Char)
  | 0, _, _, _ => none
  | bound + 1, depth, fields, cs => do
    match ← skipLines? (cs.length + 1) cs with
    | '\x7d' :: rest => return (fields, rest)
    | cs => do
      let (path, rest) ← readKey? cs
      match ← skipLines? (rest.length + 1) rest with
      | '=' :: rest => do
        let (value, rest) ← readValue? bound depth (← skipLines? (rest.length + 1) rest)
        let fields ← assign value path fields
        match ← skipLines? (rest.length + 1) rest with
        | ',' :: rest => readInline? bound depth fields rest
        | '\x7d' :: rest => return (fields, rest)
        | _ => none
      | _ => none

end

/-- What has been read: the document so far, and the path of the table that keys belong to. -/
structure Progress where
  fields : Fields := []
  path : List String := []

def readHeader? (p : Progress) (cs : List Char) : Option (Progress × List Char) := do
  let (asArray, cs) := match cs with
    | '[' :: rest => (true, rest)
    | cs => (false, cs)
  let (path, rest) ← readKey? cs
  let key ← path.getLast?
  match asArray, rest with
  | true, ']' :: ']' :: rest =>
    return (⟨← changeAt (appendTable key) path.dropLast p.fields, path⟩, rest)
  | false, ']' :: rest =>
    return (⟨← changeAt (openTable key) path.dropLast p.fields, path⟩, rest)
  | _, _ => none

def readEntry? (p : Progress) (cs : List Char) : Option (Progress × List Char) := do
  let (key, rest) ← readKey? cs
  match rest with
  | '=' :: rest => do
    let (value, rest) ← readValue? (2 * rest.length + 2) depthLimit rest
    return (⟨← changeAt (assign value key) p.path p.fields, p.path⟩, rest)
  | _ => none

/-- Reads lines to the end; the first argument bounds their number. -/
def readDocument? : Nat → Progress → List Char → Option Fields
  | 0, _, _ => none
  | bound + 1, p, cs =>
    match skipSpace cs with
    | [] => some p.fields
    | '#' :: _ | '\n' :: _ | '\r' :: _ => do
      readDocument? bound p (← endLine? cs)
    | '[' :: rest => do
      let (p, rest) ← readHeader? p rest
      readDocument? bound p (← endLine? rest)
    | cs => do
      let (p, rest) ← readEntry? p cs
      readDocument? bound p (← endLine? rest)

def parse? (s : String) : Option Fields :=
  let cs := s.toList
  let cs := if cs.head? = some '\uFEFF' then cs.tail else cs
  readDocument? (cs.length + 2) {} cs

end QueryBoard.Toml
