import QueryBoard.Proofs.Sql.Clauses

/-!
# Statements out of their text and parameters

A reader for the statements that queries compile to: a left inverse of writing them.  A statement is
known from its text and parameters, in whichever dialect it was written, up to two things that the
text does not have: what a membership in the empty list asks about, and how far above the greatest
signed integer a count of rows is.  The statement without them is `normal`, and has the same text.
-/

set_option autoImplicit false

namespace QueryBoard.Sql

open QueryBoard.Sql.Symbol

/-! ## Selects -/

def readSelectItems (ss : List Symbol) : Option (List SelectItem × List Symbol) :=
  match ss.dropPrefix? [mark "*"] with
  | some ss => some ([], ss)
  | none => readList (mark ",") readItem ss

def readSource (ss : List Symbol) : Option (Option TableRef × List Symbol) :=
  match ss.dropPrefix? [word "FROM"] with
  | some ss => (readTable ss).map fun (r, ss) => (some r, ss)
  | none => some (none, ss)

def readSelect (ss : List Symbol) : Option (Select × List Symbol) := do
  let ss ← ss.dropPrefix? [word "SELECT"]
  let (items, ss) ← readSelectItems ss
  let (source, ss) ← readSource ss
  let (joins, ss) ← readJoins ss.length ss
  let (filters, ss) ← readClause "WHERE" (word "AND") readCondition ss
  let (groupBy, ss) ← readClause "GROUP BY" (mark ",") readOperand ss
  let (orderBy, ss) ← readClause "ORDER BY" (mark ",") readOrderItem ss
  let (limit, ss) ← readCount "LIMIT" ss
  let (offset, ss) ← readCount "OFFSET" ss
  some ({ items, source, joins, filters, groupBy, orderBy, limit, offset }, ss)

namespace Select

/-- Whether a select is made of operands and of conditions on them. -/
structure Regular (s : Select) : Prop where
  items : ∀ i ∈ s.items, Operand i.expr
  joins : ∀ j ∈ s.joins, j.Regular
  filters : ∀ e ∈ s.filters, Condition e
  groupBy : ∀ e ∈ s.groupBy, Operand e
  orderBy : ∀ o ∈ s.orderBy, Operand o.expr
  offset : s.limit = none → s.offset = none

/-- The select without what its text does not have. -/
def normal (s : Select) : Select :=
  { s with
    filters := s.filters.map Expr.normal
    limit := s.limit.map countWritten
    offset := s.offset.map countWritten }

def itemSymbols (s : Select) : List Symbol :=
  if s.items = [] then [mark "*"] else joined (mark ",") (s.items.map (·.tokens.symbols))

def sourceSymbols (s : Select) : List Symbol :=
  (s.source.map fun r => word "FROM" :: r.tokens.symbols).getD []

theorem symbols_where (before : Tokens) (filters : List Expr) :
    Tokens.symbols ((Expr.conjunction filters).elim before fun e =>
      Tokens.clause before "WHERE" e.tokens) =
    before.symbols ++ clauseSymbols "WHERE" (word "AND") (filters.map Expr.symbols) := by
  cases filters with
  | nil => simp [Expr.conjunction, clauseSymbols]
  | cons e rest =>
      have all := Expr.symbols_conjunction (Expr.conjunction_cons e rest)
      rw [Expr.symbols] at all
      simp only [Expr.conjunction, Option.elim_some, Tokens.symbols_clause, clauseSymbols, all,
        List.append_assoc]
      rfl

theorem symbols_listClause (before : Tokens) (ws : String) (items : List Tokens) :
    (listClause before ws items).symbols =
      before.symbols ++ clauseSymbols ws (mark ",") (items.map Tokens.symbols) := by
  cases items with
  | nil => simp [listClause, clauseSymbols]
  | cons i items =>
      simp [listClause, clauseSymbols, Tokens.symbols_clause, Tokens.symbols_commaList]

theorem symbols_items (s : Select) :
    Tokens.symbols (.keyword "SELECT" :: if s.items.isEmpty then [.space, .star]
      else .newline 1 :: Tokens.separated [.comma, .newline 1] (s.items.map SelectItem.tokens)) =
    word "SELECT" :: s.itemSymbols := by
  have keyword : Token.symbols (.keyword "SELECT") = [word "SELECT"] := rfl
  have line : Token.symbols (.newline 1) = [] := rfl
  have separator : Tokens.symbols [.comma, .newline 1] = [mark ","] := rfl
  rw [Tokens.symbols_cons, keyword, itemSymbols]
  cases s.items with
  | nil => rfl
  | cons i items =>
      simp [Tokens.symbols_separated separator, line, Function.comp_def]

theorem symbols_source (s : Select) (before : Tokens) :
    Tokens.symbols (s.source.elim before fun r => Tokens.clause before "FROM" r.tokens) =
      before.symbols ++ s.sourceSymbols := by
  rw [sourceSymbols]
  cases s.source with
  | none => simp
  | some r =>
      rw [Option.elim_some, Tokens.symbols_clause, List.append_assoc]
      rfl

theorem symbols_joins (js : List Join) :
    Tokens.symbols (js.flatMap fun j => .newline 0 :: j.tokens) =
      js.flatMap fun j => j.tokens.symbols := by
  have line : Token.symbols (.newline 0) = [] := rfl
  induction js with
  | nil => rfl
  | cons j js ih => simp [ih, line]

theorem symbols_tokens (s : Select) : s.tokens.symbols =
    word "SELECT" :: (s.itemSymbols ++ (s.sourceSymbols ++
      ((s.joins.flatMap fun j => j.tokens.symbols) ++
        (clauseSymbols "WHERE" (word "AND") (s.filters.map Expr.symbols) ++
          (clauseSymbols "GROUP BY" (mark ",") (s.groupBy.map Expr.symbols) ++
            (clauseSymbols "ORDER BY" (mark ",") (s.orderBy.map (·.tokens.symbols)) ++
              s.limitTokens.symbols)))))) := by
  let list : Tokens := .keyword "SELECT" :: if s.items.isEmpty then [.space, .star]
    else .newline 1 :: Tokens.separated [.comma, .newline 1] (s.items.map SelectItem.tokens)
  let joined : Tokens := (s.source.elim list fun r => Tokens.clause list "FROM" r.tokens) ++
    s.joins.flatMap fun j => .newline 0 :: j.tokens
  let filtered : Tokens := (Expr.conjunction s.filters).elim joined fun e =>
    Tokens.clause joined "WHERE" e.tokens
  have split : s.tokens = listClause (listClause filtered "GROUP BY" (s.groupBy.map Expr.tokens))
      "ORDER BY" (s.orderBy.map OrderItem.tokens) ++ s.limitTokens := by
    simp only [tokens, filtered, joined, list]
    cases s.source <;> cases Expr.conjunction s.filters <;> rfl
  have front : joined.symbols = word "SELECT" :: (s.itemSymbols ++ (s.sourceSymbols ++
      s.joins.flatMap fun j => j.tokens.symbols)) := by
    rw [Tokens.symbols_append, symbols_source, symbols_joins, symbols_items]
    simp
  have middle : filtered.symbols = joined.symbols ++
      clauseSymbols "WHERE" (word "AND") (s.filters.map Expr.symbols) := symbols_where ..
  have groups : (s.groupBy.map Expr.tokens).map Tokens.symbols = s.groupBy.map Expr.symbols :=
    List.map_map
  have orders : (s.orderBy.map OrderItem.tokens).map Tokens.symbols =
      s.orderBy.map (·.tokens.symbols) := List.map_map
  rw [split, Tokens.symbols_append, symbols_listClause, symbols_listClause, middle, front, groups,
    orders]
  simp only [List.append_assoc, List.cons_append]

theorem starts_limit (s : Select) : Starts ["LIMIT"] s.limitTokens.symbols := by
  intro t head
  unfold limitTokens at head
  cases limit : s.limit with
  | none =>
      rw [limit] at head
      cases head
  | some n =>
      rw [limit] at head
      cases head
      exact List.mem_cons_self

theorem readCount_limit {s : Select} (regular : s.Regular) :
    ∃ rest, readCount "LIMIT" s.limitTokens.symbols = some (s.limit.map countWritten, rest) ∧
      readCount "OFFSET" rest = some (s.offset.map countWritten, []) := by
  unfold limitTokens
  cases limit : s.limit with
  | none =>
      refine ⟨[], rfl, ?_⟩
      rw [regular.offset limit]
      rfl
  | some n =>
      cases s.offset with
      | none =>
          exact ⟨[], readCount_symbols "LIMIT" n [], rfl⟩
      | some m =>
          refine ⟨word "OFFSET" :: (Token.literal (rowCount m)).symbols, ?_, ?_⟩
          · exact readCount_symbols "LIMIT" n (word "OFFSET" :: (Token.literal (rowCount m)).symbols)
          · exact readCount_symbols "OFFSET" m []

theorem starts_source {s : Select} {rest : List Symbol}
    (next : Starts ["INNER", "LEFT", "RIGHT", "WHERE", "GROUP", "ORDER", "LIMIT"] rest) :
    Starts clauseWords (s.sourceSymbols ++ rest) := by
  unfold sourceSymbols
  cases s.source with
  | none => exact next.mono (List.subset_cons_self _ _)
  | some r =>
      intro t head
      cases head
      exact List.mem_cons_self

theorem readSource_symbols {s : Select} {rest : List Symbol}
    (next : Starts ["INNER", "LEFT", "RIGHT", "WHERE", "GROUP", "ORDER", "LIMIT"] rest) :
    readSource (s.sourceSymbols ++ rest) = some (s.source, rest) := by
  unfold sourceSymbols readSource
  cases s.source with
  | none =>
      have other := next.dropPrefix?_eq (s := word "FROM") (by decide) []
      simp [other]
  | some r =>
      have table := readTable_symbols r rest (next.head_ne (s := word "AS") (by decide))
      simp [List.dropPrefix?, table]

theorem readSelectItems_symbols {s : Select} (regular : s.Regular) {rest : List Symbol}
    (next : Starts clauseWords rest) :
    readSelectItems (s.itemSymbols ++ rest) = some (s.items, rest) := by
  unfold itemSymbols readSelectItems
  by_cases nil : s.items = []
  · simp [nil, List.dropPrefix?]
  · have list := readList_joined (mark ",") readItem (·.tokens.symbols) id nil
      (next.head_ne (by decide))
      fun i member after continues => by
        have ended : Ended (mark ",") after := by
          rcases continues with rfl | comma
          · exact Or.inl next
          · exact Or.inr comma
        exact readItem_symbols (regular.items i member) after (ended.head_ne (by decide) (by decide))
          (ended.head_ne (by decide) (by decide))
    have noStar : (joined (mark ",") (s.items.map (·.tokens.symbols)) ++ rest).dropPrefix?
        [mark "*"] = none := by
      obtain ⟨i, items, same⟩ := List.exists_cons_of_ne_nil nil
      have operand := regular.items i (same ▸ List.mem_cons_self)
      rw [same, List.map_cons, joined, SelectItem.symbols_tokens, List.append_assoc,
        List.append_assoc]
      exact dropPrefix?_operand operand (by simp [quoted, mark]) (by simp [mark])
        (by simp [word, mark]) _
    rw [List.map_id] at list
    rw [if_neg nil, noStar]
    exact list

/-- The select that is read is the one whose symbols they are, without what they do not have. -/
theorem readSelect_symbols {s : Select} (regular : s.Regular) :
    readSelect s.tokens.symbols = some (s.normal, []) := by
  have orderWords : words "ORDER BY" = [word "ORDER", word "BY"] := rfl
  have groupWords : words "GROUP BY" = [word "GROUP", word "BY"] := rfl
  have limits := s.starts_limit
  have orders := starts_clauseSymbols "ORDER" orderWords limits (mark ",")
    (s.orderBy.map (·.tokens.symbols))
  have groups := starts_clauseSymbols "GROUP" groupWords orders (mark ",")
    (s.groupBy.map Expr.symbols)
  have filters := starts_clauseSymbols "WHERE" whereWords groups (word "AND")
    (s.filters.map Expr.symbols)
  have joins := starts_joins filters s.joins
  have sources := starts_source (s := s) joins
  obtain ⟨rest, limit, offset⟩ := readCount_limit regular
  have readOrders := readClause_symbols "ORDER" orderWords limits (by decide) (mark ",") (by decide)
    readOrderItem (·.tokens.symbols) id
    fun o member after _ => readOrderItem_symbols (regular.orderBy o member) after
  have readGroups := readClause_symbols "GROUP" groupWords orders (by decide) (mark ",") (by decide)
    readOperand Expr.symbols id
    fun e member after continues => by
      have ended : Ended (mark ",") after := continues.imp_left fun more => more.mono (by decide)
      exact readOperand_symbols (regular.groupBy e member) after
        (ended.head_ne (by decide) (by decide))
  have readFilters := readClause_symbols "WHERE" whereWords groups (by decide) (word "AND") (by decide)
    readCondition Expr.symbols Expr.normal
    fun e member after continues => by
      have ended : Ended (word "AND") after := continues.imp_left fun more => more.mono (by decide)
      exact readCondition_symbols (regular.filters e member) after
        (ended.head_ne (by decide) (by decide))
  rw [List.map_id] at readOrders readGroups
  rw [symbols_tokens, readSelect]
  simp only [List.dropPrefix?, beq_self_eq_true, if_true, Option.bind_eq_bind, Option.bind_some,
    readSelectItems_symbols regular sources, readSource_symbols joins]
  rw [readJoins_symbols filters s.joins _ (length_le_length_joins s.joins _) regular.joins]
  simp only [Option.bind_some, readFilters, readGroups, readOrders, limit, offset]
  rfl

end Select

/-! ## Statements that write -/

def readAssignment (ss : List Symbol) : Option ((String × Expr) × List Symbol) := do
  let (name, ss) ← readName ss
  let ss ← ss.dropPrefix? [mark "="]
  let (e, ss) ← readOperand ss
  some ((name, e), ss)

def readWhere (ss : List Symbol) : Option (List Expr × List Symbol) :=
  readClause "WHERE" (word "AND") readCondition ss

def readInsert (ss : List Symbol) : Option (Insert × List Symbol) := do
  let ss ← ss.dropPrefix? (words "INSERT INTO")
  let (table, ss) ← readName ss
  let (columns, ss) ← readParens readName ss
  let ss ← ss.dropPrefix? [word "VALUES"]
  let (rows, ss) ← readList (mark ",") (readParens readOperand) ss
  some ({ table, columns, rows }, ss)

def readUpdate (ss : List Symbol) : Option (Update × List Symbol) := do
  let ss ← ss.dropPrefix? [word "UPDATE"]
  let (table, ss) ← readName ss
  let ss ← ss.dropPrefix? [word "SET"]
  let (assignments, ss) ← readList (mark ",") readAssignment ss
  let (filters, ss) ← readWhere ss
  some ({ table, assignments, filters }, ss)

def readDelete (ss : List Symbol) : Option (Delete × List Symbol) := do
  let ss ← ss.dropPrefix? (words "DELETE FROM")
  let (table, ss) ← readName ss
  let (filters, ss) ← readWhere ss
  some ({ table, filters }, ss)

structure Insert.Regular (i : Insert) : Prop where
  columns : i.columns ≠ []
  rows : i.rows ≠ []
  row : ∀ row ∈ i.rows, row ≠ [] ∧ ∀ e ∈ row, Operand e

structure Update.Regular (u : Update) : Prop where
  some_ : u.assignments ≠ []
  assignments : ∀ a ∈ u.assignments, Operand a.2
  filters : ∀ e ∈ u.filters, Condition e

def Delete.Regular (d : Delete) : Prop := ∀ e ∈ d.filters, Condition e

theorem symbols_whereTokens (filters : List Expr) : (whereTokens filters).symbols =
    clauseSymbols "WHERE" (word "AND") (filters.map Expr.symbols) := by
  cases filters with
  | nil => rfl
  | cons e rest =>
      have blank : Token.symbols .space = [] := rfl
      have all := Expr.symbols_conjunction (Expr.conjunction_cons e rest)
      rw [Expr.symbols] at all
      simp only [whereTokens, Expr.conjunction, Tokens.symbols_cons, blank, all, clauseSymbols]
      rfl

theorem starts_where (filters : List Expr) : Starts ["WHERE"] (whereTokens filters).symbols := by
  have starts := starts_clauseSymbols "WHERE" whereWords (starts_nil []) (word "AND")
    (filters.map Expr.symbols)
  rwa [List.append_nil, ← symbols_whereTokens] at starts

theorem readWhere_symbols {filters : List Expr} (conditions : ∀ e ∈ filters, Condition e) :
    readWhere (whereTokens filters).symbols = some (filters.map Expr.normal, []) := by
  have read := readClause_symbols "WHERE" whereWords (starts_nil []) (by decide) (word "AND")
    (by decide) readCondition Expr.symbols Expr.normal
    fun e member after continues => by
      have ended : Ended (word "AND") after := continues.imp_left fun more => more.mono (by decide)
      exact readCondition_symbols (conditions e member) after
        (ended.head_ne (by decide) (by decide))
  rwa [List.append_nil, ← symbols_whereTokens] at read

theorem readRow_symbols {row : List Expr} (some_ : row ≠ []) (operands : ∀ e ∈ row, Operand e)
    (after : List Symbol) :
    readParens readOperand ((Tokens.parenList (row.map Expr.tokens)).symbols ++ after) =
      some (row, after) := by
  have read := readParens_joined readOperand Expr.symbols id some_ (fun e member next continues => by
    refine readOperand_symbols (operands e member) next ?_
    rcases continues with close | comma
    · simp [close, mark]
    · simp [comma, mark]) after
  have symbols : (row.map Expr.tokens).map Tokens.symbols = row.map Expr.symbols := List.map_map
  rw [List.map_id] at read
  rw [Tokens.symbols_parenList, symbols]
  simpa using read

theorem Insert.symbols_tokens {i : Insert} (regular : i.Regular) : i.tokens.symbols =
    words "INSERT INTO" ++ quoted i.table :: mark "(" ::
      (joined (mark ",") (i.columns.map fun c => [quoted c]) ++ mark ")" :: word "VALUES" ::
        joined (mark ",") (i.rows.map fun row =>
          (Tokens.parenList (row.map Expr.tokens)).symbols)) := by
  have blank : Token.symbols .space = [] := rfl
  have values : Token.symbols (.keyword "VALUES") = [word "VALUES"] := rfl
  have name (c : String) : Tokens.symbols [.ident c] = [quoted c] := rfl
  have columns : i.columns.isEmpty = false := by simpa using regular.columns
  have rows : i.rows.isEmpty = false := by simpa using regular.rows
  have start : Tokens.symbols [.keyword "INSERT INTO", .space, .ident i.table] =
    words "INSERT INTO" ++ [quoted i.table] := rfl
  rw [Insert.tokens, columns, rows, Tokens.symbols_append, Tokens.symbols_append, start]
  simp only [Tokens.symbols_cons, blank, values, Tokens.symbols_parenList,
    Tokens.symbols_commaList, List.map_map, Function.comp_def, name, Bool.false_eq_true, if_false,
    List.append_assoc, List.nil_append, List.cons_append]

theorem readInsert_symbols {i : Insert} (regular : i.Regular) :
    readInsert i.tokens.symbols = some (i, []) := by
  have columns := readParens_joined readName (fun c => [quoted c]) id regular.columns
    (fun c _ after _ => readName_quoted c after)
  have stop : ([] : List Symbol).head? ≠ some (mark ",") := by simp
  have rows := readList_joined (mark ",") (readParens readOperand)
    (fun row => (Tokens.parenList (row.map Expr.tokens)).symbols) id regular.rows stop
    fun row member after _ => readRow_symbols (regular.row row member).1 (regular.row row member).2
      after
  rw [List.map_id] at columns rows
  rw [List.append_nil] at rows
  rw [Insert.symbols_tokens regular, readInsert, dropPrefix?_append]
  simp [readName_quoted, columns, List.dropPrefix?, rows]

theorem readAssignment_symbols {a : String × Expr} (operand : Operand a.2) (after : List Symbol)
    (noPoint : after.head? ≠ some (mark ".")) :
    readAssignment (quoted a.1 :: mark "=" :: a.2.symbols ++ after) = some (a, after) := by
  have value := readOperand_symbols operand after noPoint
  simp [readAssignment, readName_quoted, List.dropPrefix?, value]

theorem Update.symbols_tokens (u : Update) : u.tokens.symbols =
    word "UPDATE" :: quoted u.table :: word "SET" ::
      (joined (mark ",") (u.assignments.map fun a => quoted a.1 :: mark "=" :: a.2.symbols) ++
        (whereTokens u.filters).symbols) := by
  have assignment (a : String × Expr) : Tokens.symbols
      (.ident a.1 :: .space :: .operator .eq :: .space :: a.2.tokens) =
      quoted a.1 :: mark "=" :: a.2.symbols := rfl
  have start : Tokens.symbols [.keyword "UPDATE", .space, .ident u.table, .space, .keyword "SET",
    .space] = [word "UPDATE", quoted u.table, word "SET"] := rfl
  rw [Update.tokens, Tokens.symbols_append, Tokens.symbols_append, start, Tokens.symbols_commaList,
    List.map_map]
  simp only [Function.comp_def, assignment, List.cons_append, List.nil_append]

theorem readUpdate_symbols {u : Update} (regular : u.Regular) : readUpdate u.tokens.symbols =
    some ({ u with filters := u.filters.map Expr.normal }, []) := by
  have starts := starts_where u.filters
  have assignments := readList_joined (mark ",") readAssignment
    (fun a => quoted a.1 :: mark "=" :: a.2.symbols) id regular.some_ (starts.head_ne (by decide))
    fun a member after continues => by
      refine readAssignment_symbols (regular.assignments a member) after ?_
      rcases continues with rfl | comma
      · exact starts.head_ne (by decide)
      · simp [comma, mark]
  rw [List.map_id] at assignments
  rw [Update.symbols_tokens, readUpdate]
  simp [List.dropPrefix?, readName_quoted, assignments, readWhere_symbols regular.filters]

theorem readDelete_symbols {d : Delete} (regular : d.Regular) : readDelete d.tokens.symbols =
    some ({ d with filters := d.filters.map Expr.normal }, []) := by
  have split : d.tokens.symbols =
      words "DELETE FROM" ++ quoted d.table :: (whereTokens d.filters).symbols := by
    rw [Delete.tokens, Tokens.symbols_append]
    rfl
  rw [split, readDelete, dropPrefix?_append]
  simp [readName_quoted, readWhere_symbols regular]

/-! ## Statements of any kind -/

def readStatement (ss : List Symbol) : Option (Statement × List Symbol) :=
  (readSelect ss).map (fun (s, ss) => (.select s, ss)) <|>
    (readInsert ss).map (fun (i, ss) => (.insert i, ss)) <|>
    (readUpdate ss).map (fun (u, ss) => (.update u, ss)) <|>
    (readDelete ss).map (fun (d, ss) => (.delete d, ss))

namespace Statement

/-- The statement with a text and parameters. -/
def recover (text : String) (params : List Value) : Option Statement := do
  let ls ← Lexeme.lex text.toList
  let ss ← bind ls params
  match ← readStatement ss with
  | (s, []) => some s
  | _ => none

def Regular : Statement → Prop
  | .select s => s.Regular
  | .insert i => i.Regular
  | .update u => u.Regular
  | .delete d => d.Regular

/-- The statement without what its text does not have: a membership in the empty list asks about
nothing, and a count of rows is at most the greatest signed integer. -/
def normal : Statement → Statement
  | .select s => .select s.normal
  | .insert i => .insert i
  | .update u => .update { u with filters := u.filters.map Expr.normal }
  | .delete d => .delete { d with filters := d.filters.map Expr.normal }

theorem readStatement_symbols {s : Statement} (regular : s.Regular) :
    readStatement s.tokens.symbols = some (s.normal, []) := by
  cases s with
  | select s =>
      have read := s.readSelect_symbols regular
      simp [readStatement, tokens, normal, read]
  | insert i =>
      have read := readInsert_symbols regular
      have noSelect : readSelect i.tokens.symbols = none := rfl
      simp [readStatement, tokens, normal, read, noSelect]
  | update u =>
      have read := readUpdate_symbols regular
      have noSelect : readSelect u.tokens.symbols = none := rfl
      have noInsert : readInsert u.tokens.symbols = none := rfl
      simp [readStatement, tokens, normal, read, noSelect, noInsert]
  | delete d =>
      have read := readDelete_symbols regular
      have noSelect : readSelect d.tokens.symbols = none := rfl
      have noInsert : readInsert d.tokens.symbols = none := rfl
      have noUpdate : readUpdate d.tokens.symbols = none := rfl
      simp [readStatement, tokens, normal, read, noSelect, noInsert, noUpdate]

/-- A statement is known from its text and parameters, but for what its text does not have. -/
theorem recover_text {s : Statement} (regular : s.Regular) (legible : Legible s.tokens)
    (plain : s.tokens.PlainNames) (d : Dialect) :
    recover (s.text d) s.params = some s.normal := by
  have lexed : Lexeme.lex (s.text d).toList = some (Tokens.lexemesFrom d 1 s.tokens) :=
    legible.lex_textFrom d s.tokens 1 plain
  have bound : bind (Tokens.lexemesFrom d 1 s.tokens) s.params = some s.tokens.symbols :=
    Tokens.bind_lexemesFrom d s.tokens 1
  simp [recover, lexed, bound, readStatement_symbols regular]

end Statement

/-! ## What a text does not have -/

theorem Expr.tokens_normal (e : Expr) : e.normal.tokens = e.tokens := by
  unfold normal
  split
  · rw [tokens, tokens]
  · rfl

/-- The conditions of a statement are written alike with what their text does not have and without. -/
theorem Expr.conjunction_normal (es : List Expr) :
    (conjunction (es.map normal)).map tokens = (conjunction es).map tokens := by
  have folded : ∀ (rest : List Expr) (first other : Expr), first.tokens = other.tokens →
      ((rest.map normal).foldl and first).tokens = (rest.foldl and other).tokens := by
    intro rest
    induction rest with
    | nil =>
        intro first other same
        exact same
    | cons e rest ih =>
        intro first other same
        refine ih _ _ ?_
        rw [and, and, tokens, tokens, same, e.tokens_normal]
  cases es with
  | nil => rfl
  | cons e rest => exact congrArg some (folded rest e.normal e e.tokens_normal)

/-- Only a membership in the empty list loses something. -/
theorem Expr.eq_of_normal_eq {e e' : Expr} (same : e.normal = e'.normal) :
    e = e' ∨ ∃ negated x x', e = .member negated x [] ∧ e' = .member negated x' [] := by
  unfold normal at same
  split at same <;> split at same
  · cases same
    exact Or.inr ⟨_, _, _, rfl, rfl⟩
  · subst same
    exact Or.inr ⟨_, _, _, rfl, rfl⟩
  · subst same
    exact Or.inr ⟨_, _, _, rfl, rfl⟩
  · exact Or.inl same

theorem toNat_countWritten (n : UInt64) :
    (countWritten n).toNat = min n.toNat (Nat.pow 2 63 - 1) := by
  refine UInt64.toNat_ofNat_of_lt' ?_
  have : Nat.pow 2 63 = 2 ^ 63 := rfl
  have : UInt64.size = 2 ^ 64 := rfl
  omega

/-- Only counts of rows from the greatest signed integer on are not told apart. -/
theorem countWritten_eq_iff {n m : UInt64} : countWritten n = countWritten m ↔
    n = m ∨ (Nat.pow 2 63 - 1 ≤ n.toNat ∧ Nat.pow 2 63 - 1 ≤ m.toNat) := by
  rw [← UInt64.toNat_inj, ← UInt64.toNat_inj, toNat_countWritten, toNat_countWritten]
  omega

theorem rowCount_countWritten (n : UInt64) : rowCount (countWritten n) = rowCount n := by
  rw [rowCount, toNat_countWritten, Nat.min_assoc, Nat.min_self, rowCount]

theorem whereTokens_normal (filters : List Expr) :
    whereTokens (filters.map Expr.normal) = whereTokens filters := by
  have alike := Expr.conjunction_normal filters
  unfold whereTokens
  cases given : Expr.conjunction filters with
  | none =>
      rw [given, Option.map_none, Option.map_eq_none_iff] at alike
      rw [alike]
  | some e =>
      rw [given] at alike
      obtain ⟨other, normal, same⟩ := Option.map_eq_some_iff.mp alike
      rw [normal]
      simp only [same]

theorem Select.limitTokens_normal (s : Select) : s.normal.limitTokens = s.limitTokens := by
  unfold limitTokens normal
  cases s.limit <;> cases s.offset <;> simp [rowCount_countWritten]

theorem Select.tokens_normal (s : Select) : s.normal.tokens = s.tokens := by
  have alike := Expr.conjunction_normal s.filters
  have limits := s.limitTokens_normal
  unfold tokens
  rw [limits]
  cases given : Expr.conjunction s.filters with
  | none =>
      rw [given, Option.map_none, Option.map_eq_none_iff] at alike
      simp only [normal, alike]
      rfl
  | some e =>
      rw [given] at alike
      obtain ⟨other, rest, same⟩ := Option.map_eq_some_iff.mp alike
      simp only [normal, rest, same]
      rfl

theorem Statement.tokens_normal (s : Statement) : s.normal.tokens = s.tokens := by
  cases s with
  | select s => exact s.tokens_normal
  | insert i => rfl
  | update u => simp only [normal, tokens, Update.tokens, whereTokens_normal]
  | delete d => simp only [normal, tokens, Delete.tokens, whereTokens_normal]

end QueryBoard.Sql
