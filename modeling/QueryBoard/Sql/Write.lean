import QueryBoard.Sql.Select

/-!
# INSERT, UPDATE and DELETE statements, and statements of any kind
-/

set_option autoImplicit false

namespace QueryBoard.Sql

/-- ` WHERE a AND b`, or nothing for no condition. -/
def whereTokens (filters : List Expr) : Tokens :=
  match Expr.conjunction filters with
  | some e => .space :: .keyword "WHERE" :: .space :: e.tokens
  | none => []

/-- `INSERT INTO t (a, b) VALUES (x, y), (z, w)` -/
structure Insert where
  table : String
  columns : List String := []
  rows : List (List Expr) := []
deriving Repr

def Insert.tokens (i : Insert) : Tokens :=
  [.keyword "INSERT INTO", .space, .ident i.table] ++
    (if i.columns.isEmpty then []
     else .space :: Tokens.parenList (i.columns.map fun c => [.ident c])) ++
    (if i.rows.isEmpty then []
     else
      .space :: .keyword "VALUES" :: .space ::
        Tokens.commaList (i.rows.map fun row => Tokens.parenList (row.map Expr.tokens)))

/-- `UPDATE t SET a = x, b = y WHERE c` -/
structure Update where
  table : String
  assignments : List (String × Expr) := []
  filters : List Expr := []
deriving Repr

def Update.tokens (u : Update) : Tokens :=
  [.keyword "UPDATE", .space, .ident u.table, .space, .keyword "SET", .space] ++
    Tokens.commaList
      (u.assignments.map fun a =>
        .ident a.1 :: .space :: .operator .eq :: .space :: a.2.tokens) ++
    whereTokens u.filters

/-- `DELETE FROM t WHERE c` -/
structure Delete where
  table : String
  filters : List Expr := []
deriving Repr

def Delete.tokens (d : Delete) : Tokens :=
  [.keyword "DELETE FROM", .space, .ident d.table] ++ whereTokens d.filters

inductive Statement where
  | select (s : Select)
  | insert (i : Insert)
  | update (u : Update)
  | delete (d : Delete)
deriving Repr

namespace Statement

def tokens : Statement → Tokens
  | .select s => s.tokens
  | .insert i => i.tokens
  | .update u => u.tokens
  | .delete d => d.tokens

def text (d : Dialect) (s : Statement) : String := Tokens.text d s.tokens

def params (s : Statement) : List Value := Tokens.params s.tokens

end Statement

end QueryBoard.Sql
