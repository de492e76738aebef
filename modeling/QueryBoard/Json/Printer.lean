import QueryBoard.Json.Basic
import QueryBoard.Number.Shortest
import QueryBoard.Text.Hex

/-!
# Writing JSON

Two forms of text: compact, without any blank, and indented, with two spaces per level and empty
containers closed at once.  In strings the quote, the backslash and the control characters below
space are escaped, the latter by their short form when they have one.
-/

set_option autoImplicit false

namespace QueryBoard.Json

def escapeChar (c : Char) : List Char :=
  if c = '"' then ['\\', '"']
  else if c = '\\' then ['\\', '\\']
  else if c = '\x08' then ['\\', 'b']
  else if c = '\x0c' then ['\\', 'f']
  else if c = '\n' then ['\\', 'n']
  else if c = '\r' then ['\\', 'r']
  else if c = '\t' then ['\\', 't']
  else if c.toNat < 0x20 then '\\' :: 'u' :: Text.hexDigits 4 c.toNat
  else [c]

def quote (s : String) : String := String.ofList ('"' :: (s.toList.flatMap escapeChar ++ ['"']))

/-- A floating-point number; what has no number text is `null`. -/
def floatText (x : Binary64) : String := if x.isFinite then Shortest.text x else "null"

mutual

def compact : Json → String
  | .null => "null"
  | .bool true => "true"
  | .bool false => "false"
  | .int n => toString n
  | .float x => floatText x
  | .str s => quote s
  | .arr items => "[" ++ ",".intercalate (compactList items) ++ "]"
  | .obj fields => "\x7b" ++ ",".intercalate (compactFields fields) ++ "\x7d"

def compactList : List Json → List String
  | [] => []
  | j :: rest => compact j :: compactList rest

def compactFields : List (String × Json) → List String
  | [] => []
  | (k, j) :: rest => (quote k ++ ":" ++ compact j) :: compactFields rest

end

def lineStart (level : Nat) : String := "\n" ++ String.ofList (List.replicate (2 * level) ' ')

/-- Lines at one level between brackets, the closing one a level further out. -/
def bracketed (opening closing : String) (level : Nat) (lines : List String) : String :=
  if lines.isEmpty then opening ++ closing
  else
    opening ++ lineStart (level + 1) ++ ("," ++ lineStart (level + 1)).intercalate lines ++
      lineStart level ++ closing

mutual

/-- The indented text of a value that starts at a level of indentation. -/
def prettyAt (level : Nat) : Json → String
  | .arr items => bracketed "[" "]" level (prettyList (level + 1) items)
  | .obj fields => bracketed "\x7b" "\x7d" level (prettyFields (level + 1) fields)
  | .null => "null"
  | .bool true => "true"
  | .bool false => "false"
  | .int n => toString n
  | .float x => floatText x
  | .str s => quote s

def prettyList (level : Nat) : List Json → List String
  | [] => []
  | j :: rest => prettyAt level j :: prettyList level rest

def prettyFields (level : Nat) : List (String × Json) → List String
  | [] => []
  | (k, j) :: rest => (quote k ++ ": " ++ prettyAt level j) :: prettyFields level rest

end

def pretty (j : Json) : String := prettyAt 0 j

end QueryBoard.Json
