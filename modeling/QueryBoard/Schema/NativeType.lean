import QueryBoard.Text.Blank
import QueryBoard.Text.Case

/-!
# Types of columns

A backend reports the type of a column under a name of its own.  Queries only tell numbers, texts
and booleans apart, so names are sorted into these, whatever their case, their blanks and their
parameters: `VARCHAR(255)` is a `varchar`.
-/

set_option autoImplicit false

namespace QueryBoard

/-- The type of a column as far as queries care. -/
inductive SemanticType where
  | number
  | string
  | boolean
  | unsupported
deriving DecidableEq, Repr, Inhabited

namespace SemanticType

def name : SemanticType → String
  | .number => "number"
  | .string => "string"
  | .boolean => "boolean"
  | .unsupported => "unsupported"

/-- The type with a name; names of no type stand for an unsupported one. -/
def ofName (s : String) : SemanticType :=
  if s = "number" then .number
  else if s = "string" then .string
  else if s = "boolean" then .boolean
  else .unsupported

theorem ofName_name (t : SemanticType) : ofName t.name = t := by cases t <;> rfl

def numberNames : List String :=
  ["smallint", "integer", "int", "tinyint", "mediumint", "bigint", "int2", "int4", "int8",
    "decimal", "numeric", "real", "double", "double precision", "float", "smallserial", "serial",
    "bigserial"]

def booleanNames : List String := ["boolean", "bool"]

def stringNames : List String :=
  ["character varying", "varchar", "character", "char", "nchar", "nvarchar", "text", "clob",
    "date", "datetime", "timestamp", "timestamptz", "timestamp without time zone",
    "timestamp with time zone", "time", "timetz", "time without time zone",
    "time with time zone", "interval"]

/-- A native name without its parameters, in lower case and with single blanks. -/
def plainName (native : String) : String :=
  Text.collapseBlanks (String.ofList ((Text.lower native).toList.takeWhile (· ≠ '(')))

def ofNative (native : String) : SemanticType :=
  let name := plainName native
  if name ∈ numberNames then .number
  else if name ∈ booleanNames then .boolean
  else if name ∈ stringNames then .string
  else .unsupported

end SemanticType

end QueryBoard
