import QueryBoard.Settings.Environment
import QueryBoard.Sql.Dialect
import QueryBoard.Text.Case

/-!
# Connections

How a source is reached.  SQLite is the only kind of source that can be opened.
-/

set_option autoImplicit false

namespace QueryBoard

inductive Driver where
  | sqlite
deriving DecidableEq, Repr

namespace Driver

def name : Driver → String
  | .sqlite => "sqlite"

def dialect : Driver → Sql.Dialect
  | .sqlite => .sqlite

/-- A driver by name in any case; the error is the name in lower case. -/
def parse (s : String) : Except String Driver :=
  let name := Text.lower s
  if name = "sqlite" ∨ name = "sqlite3" then .ok .sqlite else .error name

end Driver

structure Connection where
  driver : Driver := .sqlite
  path : String
deriving DecidableEq, Repr

/-- Whether the connection is to a new empty database in memory. -/
def Connection.isMemory (c : Connection) : Bool := c.path == "" || c.path == ":memory:"

end QueryBoard
