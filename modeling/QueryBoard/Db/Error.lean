import QueryBoard.Db.Address

/-!
# Why a database refuses a statement
-/

set_option autoImplicit false

namespace QueryBoard.Db

/-- What a statement may hold too much of. -/
inductive Limit where
  | depth
  | parameters
  /-- Tables in the text of a block. -/
  | sources
  /-- Tables that are joined. -/
  | joined
  | resultColumns
  | assignments
  | orderTerms
  | groupTerms
  /-- Rows that go one after the other, each because of the one before. -/
  | cascade
deriving DecidableEq, Repr

inductive DbError where
  | address (e : AddressError)
  | cannotOpen (path : String)
  /-- Something that is no file where a file should be read. -/
  | unreadable
  | readOnly
  /-- A change where the file that keeps what was before cannot be made. -/
  | noJournal
  /-- The file is there, but it holds something else. -/
  | notADatabase
  | noSuchTable (name : String)
  | circularView (name : String)
  /-- A column that does not exist, with the offset of its name in the statement if the fault is
  reported with one. -/
  | noSuchColumn (table : Option String) (column : String) (offset : Option Nat)
  /-- A column of two tables with the same alias. -/
  | ambiguousColumn (table column : String) (offset : Option Nat)
  | noColumnNamed (table column : String)
  | readOnlyView (name : String)
  /-- A change of a table in which the database keeps its own definitions. -/
  | reserved (name : String)
  | indexedView
  | tableNamed (name : String)
  | notNull (table column : String)
  | unique (table : String) (columns : List String)
  | foreignKey
  | datatypeMismatch
  | integerOverflow
  /-- A name that breaks off, as it is written in the statement, with its offset there. -/
  | brokenName (written : String) (offset : Nat)
  /-- More than a limit allows, with the offset of what is too much if it is reported. -/
  | limit (l : Limit) (offset : Option Nat)
  | full
  /-- A function of many rows where only one is at hand. -/
  | misusedAggregate (name : String)
  /-- A list where a single value has to be bound. -/
  | unboundList
  /-- An expression that no query compiles to. -/
  | unsupported
  /-- A stored number that does not fit where it is read into, with the position of its column. -/
  | outOfRange (n : Int) (column : Nat)
  | wrongKind (kind : String) (column : Nat) (name : String)
  /-- A stored text that is not well formed from some byte on, with the number of bytes at fault
  unless the text ends too early. -/
  | malformedText (column start : Nat) (size : Option Nat)
deriving DecidableEq, Repr

def Limit.message : Limit → String
  | .depth => "Expression tree is too large (maximum depth 1000)"
  | .parameters => "too many SQL variables"
  | .sources => "too many FROM clause terms, max: 200"
  | .joined => "at most 64 tables in a join"
  | .resultColumns => "too many columns in result set"
  | .assignments => "too many columns in set list"
  | .orderTerms => "too many terms in ORDER BY clause"
  | .groupTerms => "too many terms in GROUP BY clause"
  | .cascade => "too many levels of trigger recursion"

namespace DbError

def message : DbError → String
  | .address e => e.message
  | .cannotOpen path => "unable to open database file: " ++ path
  | .noJournal => "unable to open database file"
  | .unreadable => "disk I/O error"
  | .readOnly => "attempt to write a readonly database"
  | .notADatabase => "file is not a database"
  | .noSuchTable name => "no such table: " ++ name
  | .circularView name => "view " ++ name ++ " is circularly defined"
  | .noSuchColumn (some table) column _ => "no such column: " ++ table ++ "." ++ column
  | .noSuchColumn none column _ => "no such column: " ++ column
  | .ambiguousColumn table column _ => "ambiguous column name: " ++ table ++ "." ++ column
  | .noColumnNamed table column => "table " ++ table ++ " has no column named " ++ column
  | .reserved name => "table " ++ name ++ " may not be modified"
  | .readOnlyView name => "cannot modify " ++ name ++ " because it is a view"
  | .indexedView => "views may not be indexed"
  | .tableNamed name => "there is already a table named " ++ name
  | .notNull table column => "NOT NULL constraint failed: " ++ table ++ "." ++ column
  | .unique table columns =>
    "UNIQUE constraint failed: " ++ ", ".intercalate (columns.map (table ++ "." ++ ·))
  | .foreignKey => "FOREIGN KEY constraint failed"
  | .datatypeMismatch => "datatype mismatch"
  | .integerOverflow => "integer overflow"
  | .brokenName written _ => "unrecognized token: \"" ++ written ++ "\""
  | .limit l _ => l.message
  | .full => "database or disk is full"
  | .misusedAggregate name => "misuse of aggregate: " ++ name ++ "()"
  | .unboundList => "list values cannot be bound to a single parameter"
  | .unsupported => "unsupported expression"
  | .outOfRange n column => "Integer " ++ toString n ++ " out of range at index " ++ toString column
  | .wrongKind kind column name =>
    "Invalid column type " ++ kind ++ " at index: " ++ toString column ++ ", name: " ++ name
  | .malformedText column start size =>
    "Conversion error from type Text at index: " ++ toString column ++
      (match size with
        | some n => ", invalid utf-8 sequence of " ++ toString n ++ " bytes"
        | none => ", incomplete utf-8 byte sequence") ++
      " from index " ++ toString start

/-- Where in the statement the fault is, in bytes. -/
def offset? : DbError → Option Nat
  | .noSuchColumn _ _ offset | .ambiguousColumn _ _ offset | .limit _ offset => offset
  | .brokenName _ offset => some offset
  | _ => none

def messageIn (e : DbError) (sql : String) : String :=
  match e.offset? with
  | some n => e.message ++ " in " ++ sql ++ " at offset " ++ toString n
  | none => e.message

end DbError

end QueryBoard.Db
