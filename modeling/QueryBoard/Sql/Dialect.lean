import QueryBoard.Text.Quoted

/-!
# SQL dialects

Identifiers and strings are quoted alike in both dialects.  They differ in how a bound parameter
is written: without a number in SQLite, and numbered from one in PostgreSQL.
-/

set_option autoImplicit false

namespace QueryBoard.Sql

inductive Dialect where
  | sqlite
  | postgres
deriving DecidableEq, Repr, Inhabited

namespace Dialect

def name : Dialect → String
  | .sqlite => "sqlite"
  | .postgres => "postgres"

/-- The placeholder of the parameter at a position, counted from one. -/
def placeholder : Dialect → Nat → String
  | .sqlite, _ => "?"
  | .postgres, position => "$" ++ toString position

end Dialect

/-- A table, column or alias name between double quotes. -/
def quoteIdentifier (name : String) : String := Text.Quoted.write '"' name

def quoteString (s : String) : String := Text.Quoted.write '\'' s

end QueryBoard.Sql
