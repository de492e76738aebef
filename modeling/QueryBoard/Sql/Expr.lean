import QueryBoard.Value

/-!
# SQL expressions

Data of callers only ever enters an expression as a parameter; literals are constants that the
library itself writes.
-/

set_option autoImplicit false

namespace QueryBoard.Sql

inductive BinaryOp where
  | eq
  | ne
  | lt
  | gt
  | le
  | ge
  | and
deriving DecidableEq, Repr

def BinaryOp.text : BinaryOp → String
  | .eq => "="
  | .ne => "<>"
  | .lt => "<"
  | .gt => ">"
  | .le => "<="
  | .ge => ">="
  | .and => "AND"

/-- A constant written into the text of a statement. -/
inductive Literal where
  | int (n : Int64)
  | str (s : String)
deriving DecidableEq, Repr

inductive Expr where
  | column (table : Option String) (name : String)
  | literal (l : Literal)
  | param (v : Value)
  | binary (op : BinaryOp) (left right : Expr)
  | call (name : String) (args : List Expr)
  | member (negated : Bool) (e : Expr) (items : List Expr)
  | star
  /-- A function as a window over the whole result. -/
  | over (e : Expr)
deriving Repr, Inhabited

namespace Expr

def col (name : String) : Expr := .column none name

def tableCol (table name : String) : Expr := .column (some table) name

def eq (left right : Expr) : Expr := .binary .eq left right

def and (left right : Expr) : Expr := .binary .and left right

def countStar : Expr := .call "count" [.star]

def coalesce (args : List Expr) : Expr := .call "coalesce" args

/-- The conditions joined by AND from the left; no expression for no condition. -/
def conjunction : List Expr → Option Expr
  | [] => none
  | e :: rest => some (rest.foldl and e)

end Expr

end QueryBoard.Sql
