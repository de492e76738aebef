import QueryBoard.Compile.Rules
import QueryBoard.Json.Basic

/-!
# Responses to queries

A select that succeeds gives records with the rules to read them by and the count of all rows,
whatever page was asked for.  A response that carries an error carries no data.
-/

set_option autoImplicit false

namespace QueryBoard

/-- A row of a result: columns in the order of projection. -/
abbrev Record := List (String × Json)

structure SelectData where
  rules : Rules
  data : List Record
  /-- How many rows there are without limit and offset. -/
  total : UInt64
deriving DecidableEq, Repr

structure QueryResponse where
  data : Option SelectData := none
  err : Option String := none
  rawSql : Option String := none
deriving DecidableEq, Repr

def QueryResponse.isOk (r : QueryResponse) : Bool := r.err.isNone

end QueryBoard
