import QueryBoard.Schema.Basic

/-!
# Why a query does not compile
-/

set_option autoImplicit false

namespace QueryBoard

inductive CompileError where
  /-- A table below the root does not say how it joins its parent. -/
  | missingJoinRule (table : String)
  | emptyJoinCondition (table : String)
  | unsupportedOperator (operator : String)
  | duplicateAlias (table : String)
  | unknownTable (table column : String)
  /-- A list where a column takes a single value. -/
  | invalidValue (column : String)
  /-- An insert or update of no column at all. -/
  | noColumns (what : String)
  | schema (e : SchemaError)
deriving DecidableEq, Repr

def CompileError.message : CompileError → String
  | .missingJoinRule table => "table " ++ table ++ " has no join rule"
  | .emptyJoinCondition table => "join rule for table " ++ table ++ " has no conditions"
  | .unsupportedOperator op => "unsupported join operator: " ++ op
  | .duplicateAlias table => "table alias " ++ table ++ " is used more than once"
  | .unknownTable table column => "column " ++ column ++ " references unknown table " ++ table
  | .invalidValue column =>
    "invalid value for column " ++ column ++ ": lists are only allowed in filters"
  | .noColumns what => what ++ " needs at least one column"
  | .schema e => e.message

end QueryBoard
