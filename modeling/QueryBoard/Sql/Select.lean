import QueryBoard.Sql.Token

/-!
# SELECT statements

A `Select` is one query block.  A `Query` puts common table expressions in front of a block and
appends further queries to it with UNION.
-/

set_option autoImplicit false

namespace QueryBoard.Sql

/-- ` AS "alias"` after the tokens when there is an alias. -/
def aliased (ts : Tokens) : Option String → Tokens
  | some name => ts ++ [.space, .keyword "AS", .space, .ident name]
  | none => ts

structure SelectItem where
  expr : Expr
  label : Option String := none
deriving Repr

def SelectItem.tokens (i : SelectItem) : Tokens := aliased i.expr.tokens i.label

structure TableRef where
  table : String
  label : Option String := none
deriving Repr, DecidableEq

def TableRef.tokens (r : TableRef) : Tokens := aliased [.ident r.table] r.label

/-- The name by which columns refer to the table. -/
def TableRef.name (r : TableRef) : String := r.label.getD r.table

inductive JoinType where
  | inner
  | left
  | right
deriving DecidableEq, Repr

def JoinType.keyword : JoinType → String
  | .inner => "INNER JOIN"
  | .left => "LEFT JOIN"
  | .right => "RIGHT JOIN"

structure Join where
  type : JoinType
  table : TableRef
  condition : Expr
deriving Repr

def Join.tokens (j : Join) : Tokens :=
  .keyword j.type.keyword :: .space :: j.table.tokens ++
    .space :: .keyword "ON" :: .space :: j.condition.tokens

inductive SortDir where
  | asc
  | desc
deriving DecidableEq, Repr

def SortDir.keyword : SortDir → String
  | .asc => "ASC"
  | .desc => "DESC"

structure OrderItem where
  expr : Expr
  dir : SortDir
deriving Repr

def OrderItem.tokens (o : OrderItem) : Tokens :=
  o.expr.tokens ++ [.space, .keyword o.dir.keyword]

/-- One query block.  An empty select list selects every column; filters hold together; an offset
counts only together with a limit. -/
structure Select where
  items : List SelectItem := []
  source : Option TableRef := none
  joins : List Join := []
  filters : List Expr := []
  groupBy : List Expr := []
  orderBy : List OrderItem := []
  limit : Option UInt64 := none
  offset : Option UInt64 := none
deriving Repr

/-- The tables of a block, first to last. -/
def Select.tables (s : Select) : List TableRef := s.source.toList ++ s.joins.map (·.table)

/-- A count of rows as written in a statement: the greatest signed integer stands for all that is
above it. -/
def rowCount (n : UInt64) : Literal :=
  .int (Int64.ofNat (min n.toNat (Nat.pow 2 63 - 1)))

namespace Select

def limitTokens (s : Select) : Tokens :=
  match s.limit with
  | none => []
  | some n =>
    [.newline 0, .keyword "LIMIT", .space, .literal (rowCount n)] ++
      match s.offset with
      | none => []
      | some m => [.space, .keyword "OFFSET", .space, .literal (rowCount m)]

/-- Optional clause: nothing for an empty list of items. -/
def listClause (before : Tokens) (words : String) (items : List Tokens) : Tokens :=
  if items.isEmpty then before else Tokens.clause before words (Tokens.commaList items)

def tokens (s : Select) : Tokens :=
  let list : Tokens :=
    if s.items.isEmpty then [.space, .star]
    else .newline 1 :: Tokens.separated [.comma, .newline 1] (s.items.map SelectItem.tokens)
  let ts : Tokens := .keyword "SELECT" :: list
  let ts := match s.source with
    | some r => Tokens.clause ts "FROM" r.tokens
    | none => ts
  let ts := ts ++ s.joins.flatMap fun j => .newline 0 :: j.tokens
  let ts := match Expr.conjunction s.filters with
    | some e => Tokens.clause ts "WHERE" e.tokens
    | none => ts
  let ts := listClause ts "GROUP BY" (s.groupBy.map Expr.tokens)
  let ts := listClause ts "ORDER BY" (s.orderBy.map OrderItem.tokens)
  ts ++ s.limitTokens

end Select

/-- A query: common table expressions, a block, and queries appended with UNION. -/
structure Query where
  /-- Name, whether the expression refers to itself, and query of each common table
  expression. -/
  ctes : List (String × Bool × Query) := []
  body : Select := {}
  unions : List Query := []

namespace Query

mutual

def tokens : Query → Tokens
  | ⟨ctes, body, unions⟩ => withTokens ctes (cteTokens ctes) ++ body.tokens ++ unionTokens unions
where
  /-- The WITH clause; one recursive expression makes the whole clause recursive. -/
  withTokens (ctes : List (String × Bool × Query)) (written : List Tokens) : Tokens :=
    if ctes.isEmpty then []
    else
      .keyword "WITH" :: .space ::
        (if ctes.any (·.2.1) then [.keyword "RECURSIVE", .space] else []) ++
        Tokens.separated [.comma, .newline 0] written ++ [.newline 0]

def cteTokens : List (String × Bool × Query) → List Tokens
  | [] => []
  | (name, _, query) :: rest =>
    (.ident name :: .space :: .keyword "AS" :: .space :: .lparen :: .newline 0 ::
      tokens query ++ [.newline 0, .rparen]) :: cteTokens rest

def unionTokens : List Query → Tokens
  | [] => []
  | query :: rest =>
    .newline 0 :: .keyword "UNION" :: .newline 0 :: tokens query ++ unionTokens rest

end

end Query

end QueryBoard.Sql
