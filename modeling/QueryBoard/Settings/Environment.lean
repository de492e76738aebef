import QueryBoard.Text.Alphanumeric
import QueryBoard.Text.Utf8

/-!
# Environment variables in texts

A text may refer to variables, as `$NAME` with the longest name that follows, or with the name in
braces.  A dollar sign before anything else stands for itself.  The values that come in are not
looked through again.  An environment is made of bytes, and a variable whose value is not UTF-8
counts as one that is not set.
-/

set_option autoImplicit false

namespace QueryBoard

/-- A line for each variable: its name, an equals sign and its value, in bytes. -/
abbrev Environment := List (List UInt8)

namespace Environment

def line (name value : String) : List UInt8 := (name ++ "=" ++ value).toUTF8.toList

def restAfter? : List UInt8 → List UInt8 → Option (List UInt8)
  | [], bytes => some bytes
  | a :: start, b :: bytes => if a = b then restAfter? start bytes else none
  | _ :: _, [] => none

/-- The bytes of a variable's value: the first line that starts with the name and an equals sign
gives the rest of it.  No variable has an empty name. -/
def get? (env : Environment) (name : String) : Option (List UInt8) :=
  if name.isEmpty then none else env.findSome? (restAfter? (line name ""))

/-- The value of a variable as a text, if it is one. -/
def text? (env : Environment) (name : String) : Option String :=
  (env.get? name).bind Text.Utf8.strict?

end Environment

namespace Expansion

inductive Piece where
  | literal (s : List Char)
  | reference (name : List Char)
deriving DecidableEq, Repr

def isNameChar (c : Char) : Bool := Text.isAlphanumeric c || c = '_'

/-- Cuts a text into pieces.  A name in braces ends at the next closing brace, or at the end of
the text. -/
def pieces : List Char → List Piece
  | [] => []
  | c :: rest =>
    if c ≠ '$' then
      .literal (c :: rest.takeWhile (· ≠ '$')) :: pieces (rest.dropWhile (· ≠ '$'))
    else
      match rest with
      | '\x7b' :: inner =>
        .reference (inner.takeWhile (· ≠ '\x7d')) :: pieces ((inner.dropWhile (· ≠ '\x7d')).drop 1)
      | rest =>
        let name := rest.takeWhile isNameChar
        if name.isEmpty then .literal ['$'] :: pieces rest
        else .reference name :: pieces (rest.dropWhile isNameChar)
termination_by cs => cs.length
decreasing_by
  · have := (List.dropWhile_sublist (· ≠ '$') (l := rest)).length_le
    simp only [List.length_cons]
    omega
  · have := (List.dropWhile_sublist (· ≠ '\x7d') (l := inner)).length_le
    simp only [List.length_cons, List.length_drop]
    omega
  · simp
  · have := (List.dropWhile_sublist isNameChar (l := rest)).length_le
    simp only [List.length_cons]
    omega

/-- The text that a piece stands for, or else the name that is not set to one. -/
def Piece.value (env : Environment) : Piece → Except String (List Char)
  | .literal s => .ok s
  | .reference name =>
    match env.text? (String.ofList name) with
    | some v => .ok v.toList
    | none => .error (String.ofList name)

end Expansion

/-- The text with the values of its references in their places, or else the first name that is
not set. -/
def Environment.expand (env : Environment) (s : String) : Except String String := do
  return String.ofList (← (Expansion.pieces s.toList).mapM (·.value env)).flatten

end QueryBoard
