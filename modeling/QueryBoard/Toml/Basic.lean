import QueryBoard.Json.Basic

/-!
# TOML documents

A document is a table.  Tables come into being in several ways, and the way decides what may still
be added to them: a table that a header only passed through may get a header of its own, one made
by a key with points may get more such keys, and an inline table is complete.
-/

set_option autoImplicit false

namespace QueryBoard

namespace Toml

/-- How a table came into being. -/
inductive Origin where
  /-- On the way to the table of a header. -/
  | implied
  | header
  /-- On the way of a key with points. -/
  | dotted
  | inline
deriving DecidableEq, Repr

end Toml

/-- A value of a document.  Dates and times, and numbers with a fraction, are kept as written;
of the latter it is known whether they are beyond the range of floating point. -/
inductive Toml where
  | str (s : String)
  | bool (b : Bool)
  | int (n : Int)
  | float (tooLarge : Bool) (text : String)
  | datetime (text : String)
  /-- A list of values, which headers may extend only if headers made it. -/
  | array (byHeaders : Bool) (items : List Toml)
  | table (origin : Toml.Origin) (fields : List (String × Toml))
deriving Repr, Inhabited

namespace Toml

abbrev Fields := List (String × Toml)

mutual

/-- Whether every number in a value can be represented: integers within 128 bits, signed or
unsigned, and other numbers within the range of floating point. -/
def isInRange : Toml → Bool
  | .int n => -Int.pow 2 127 ≤ n && n < Int.pow 2 128
  | .float tooLarge _ => !tooLarge
  | .array _ items => allInRange items
  | .table _ fields => fieldsInRange fields
  | .str _ | .bool _ | .datetime _ => true

def allInRange : List Toml → Bool
  | [] => true
  | t :: ts => isInRange t && allInRange ts

def fieldsInRange : List (String × Toml) → Bool
  | [] => true
  | (_, t) :: fields => isInRange t && fieldsInRange fields

end

/-- Changes the table that the path of a header leads to.  The path goes through the last element
of arrays that headers made. -/
def changeAt (change : Fields → Option Fields) : List String → Fields → Option Fields
  | [], fields => change fields
  | key :: path, fields =>
    match fields.lookup key with
    | none => do return Json.upsert fields key (.table .implied (← changeAt change path []))
    | some (.table origin inner) => do
      if origin = .inline then none
      return Json.upsert fields key (.table origin (← changeAt change path inner))
    | some (.array true items) =>
      match items.getLast? with
      | some (.table origin inner) => do
        let last := .table origin (← changeAt change path inner)
        return Json.upsert fields key (.array true (items.dropLast ++ [last]))
      | _ => none
    | _ => none

/-- Makes the table of a header, which must not have been made before. -/
def openTable (key : String) (fields : Fields) : Option Fields :=
  match fields.lookup key with
  | none => some (Json.upsert fields key (.table .header []))
  | some (.table .implied inner) => some (Json.upsert fields key (.table .header inner))
  | _ => none

def appendTable (key : String) (fields : Fields) : Option Fields :=
  match fields.lookup key with
  | none => some (Json.upsert fields key (.array true [.table .header []]))
  | some (.array true items) =>
    some (Json.upsert fields key (.array true (items ++ [.table .header []])))
  | _ => none

/-- Gives a value to a key, which may have points and must be new. -/
def assign (value : Toml) : List String → Fields → Option Fields
  | [], _ => none
  | [key], fields => if (fields.lookup key).isSome then none else some (fields ++ [(key, value)])
  | key :: path, fields =>
    match fields.lookup key with
    | none => do return Json.upsert fields key (.table .dotted (← assign value path []))
    | some (.table .dotted inner) => do
      return Json.upsert fields key (.table .dotted (← assign value path inner))
    | some (.table .implied inner) => do
      return Json.upsert fields key (.table .implied (← assign value path inner))
    | _ => none

end Toml

end QueryBoard
