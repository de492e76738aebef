import QueryBoard.Proofs.Compile.Projection
import QueryBoard.Proofs.Compile.Values
import QueryBoard.Proofs.Sql.Block

/-!
# Conditions and values, statement by statement

A column with a value is one predicate, and the predicates of a query are written one after the
other behind a single word; a query whose conditions are all without a value has no such clause, and
an insert never has.  A write looks at the names and values of its columns and conditions, and at
nothing else.
-/

set_option autoImplicit false

namespace QueryBoard

attribute [local simp] ok_bind pure_eq_ok map_ok

open Sql (Expr Token Tokens)

/-! ## Predicates as they are written -/

/-- How the condition on a column is written, if it has a value. -/
def ColumnRef.predicate? (target : Tokens) (c : ColumnRef) : Option Tokens :=
  match c.value with
  | none => none
  | some (.list []) => some [.keyword "FALSE"]
  | some (.list (v :: vs)) =>
    some (target ++ .space :: .keyword "IN" :: .space ::
      Tokens.parenList ((v :: vs).map fun v => [.param v]))
  | some v => some (target ++ [.space, .operator .eq, .space, .param v])

theorem ColumnRef.isSome_predicate? (target : Tokens) (c : ColumnRef) :
    (c.predicate? target).isSome = true ↔ c.value ≠ none := by
  unfold predicate?
  split <;> simp_all

theorem Sql.Expr.tokensList_params (vs : List Value) :
    tokensList (vs.map param) = vs.map fun v => [Token.param v] := by
  induction vs with
  | nil => rfl
  | cons v vs ih =>
      rw [List.map_cons, tokensList, ih, tokens]
      rfl

theorem ColumnRef.tokens_condition? (target : Expr) (c : ColumnRef) :
    (c.condition? target).map Expr.tokens = c.predicate? target.tokens := by
  obtain ⟨column, tableKey, func, payload, value⟩ := c
  cases value with
  | none => rfl
  | some v =>
      cases v with
      | list items =>
          cases items with
          | nil => rfl
          | cons v vs => simp [condition?, predicate?, Expr.tokens, Expr.tokensList_params]
      | _ => simp [condition?, predicate?, Expr.eq, Expr.tokens]

namespace Query

/-- How a condition names its column: with the alias of its table in a select. -/
def targetTokens (q : Query) (c : ColumnRef) : Tokens :=
  if q.operation = .select then [.ident c.label, .dot, .ident c.name] else [.ident c.name]

/-- The predicates of a query, one for each condition that has a value. -/
def predicates (q : Query) : List Tokens :=
  q.filters.filterMap fun c => c.predicate? (q.targetTokens c)

theorem predicates_ne_nil_iff (q : Query) :
    q.predicates ≠ [] ↔ ∃ c ∈ q.filters, c.value ≠ none := by
  constructor
  · intro some
    obtain ⟨ts, member⟩ := List.exists_mem_of_ne_nil _ some
    obtain ⟨c, listed, written⟩ := List.mem_filterMap.mp member
    exact ⟨c, listed, (c.isSome_predicate? _).mp (Option.isSome_of_eq_some written)⟩
  · rintro ⟨c, listed, value⟩
    obtain ⟨ts, written⟩ := Option.isSome_iff_exists.mp
      ((c.isSome_predicate? (q.targetTokens c)).mpr value)
    exact List.ne_nil_of_mem (List.mem_filterMap.mpr ⟨c, listed, written⟩)

theorem tokens_conditions {q : Query} {target : ColumnRef → Expr}
    (written : ∀ c, (target c).tokens = q.targetTokens c) :
    (q.filters.filterMap fun c => c.condition? (target c)).map Expr.tokens = q.predicates := by
  rw [List.map_filterMap]
  refine List.filterMap_congr fun c _ => ?_
  rw [ColumnRef.tokens_condition?, written]

theorem tokens_writeFilters {q : Query} (writes : q.operation ≠ .select) :
    q.writeFilters.map Expr.tokens = q.predicates :=
  tokens_conditions fun c => by rw [targetTokens, if_neg writes, Expr.col, Expr.tokens]

/-! ## Statements as they are written -/

/-- How the columns of a write are named. -/
def columnTokens (q : Query) : List Tokens := q.columns.map fun c => [.ident c.name]

/-- The values that are written, one for each column; null for an absent one. -/
def valueTokens (q : Query) : List Tokens :=
  q.columns.map fun c => [.param (c.value.getD .null)]

/-- What is assigned, column by column. -/
def assignmentTokens (q : Query) : List Tokens :=
  q.columns.map fun c =>
    [.ident c.name, .space, .operator .eq, .space, .param (c.value.getD .null)]

/-- How the statement of a query is written.  Of a select only the place of the conditions is given:
behind its tables, and before all that comes after them. -/
inductive WrittenAs (q : Query) : Sql.Statement → Prop where
  | select {s : Sql.Select} : q.operation = .select →
      s.tokens = s.listTokens ++ s.tableTokens ++ Sql.whereClause (.newline 0) q.predicates ++
        s.tailTokens →
      WrittenAs q (.select s)
  | insert {i : Sql.Insert} : q.operation = .insert → q.columns ≠ [] →
      i.tokens = [.keyword "INSERT INTO", .space, .ident q.table.key.name, .space] ++
        Tokens.parenList q.columnTokens ++ [.space, .keyword "VALUES", .space] ++
        Tokens.parenList q.valueTokens →
      WrittenAs q (.insert i)
  | update {u : Sql.Update} : q.operation = .update → q.columns ≠ [] →
      u.tokens = [.keyword "UPDATE", .space, .ident q.table.key.name, .space, .keyword "SET",
          .space] ++ Tokens.commaList q.assignmentTokens ++
        Sql.whereClause .space q.predicates →
      WrittenAs q (.update u)
  | delete {d : Sql.Delete} : q.operation = .delete →
      d.tokens = [.keyword "DELETE FROM", .space, .ident q.table.key.name] ++
        Sql.whereClause .space q.predicates →
      WrittenAs q (.delete d)

theorem writtenValues_eq_ok {what : String} {q : Query} {values : List Expr}
    (success : q.writtenValues what = .ok values) :
    q.columns ≠ [] ∧ values = q.columns.map fun c => Expr.param (c.value.getD .null) := by
  unfold writtenValues at success
  split at success
  · cases success
  · next some =>
      have each := map_eq_of_mapM (fun _ _ => ColumnRef.eq_param_of_assigned) success
      exact ⟨by simpa using some, by simpa using each⟩

theorem writtenAs_select {schema : SchemaLookup} {q : Query} {s : Sql.Select}
    (selects : q.operation = .select) (success : q.compileSelect schema = .ok s) :
    q.WrittenAs (.select s) := by
  obtain ⟨_, _, success⟩ := bind_eq_ok_iff.mp success
  obtain ⟨joins, _, success⟩ := bind_eq_ok_iff.mp success
  obtain ⟨_, _, success⟩ := bind_eq_ok_iff.mp success
  obtain ⟨root, _, same⟩ := bind_eq_ok_iff.mp success
  cases same
  have conditions : (q.selectBlock joins root).filters.map Expr.tokens = q.predicates :=
    tokens_conditions fun c => by
      rw [targetTokens, if_pos selects, ColumnRef.qualified, Expr.tableCol, Expr.tokens]
  refine WrittenAs.select selects ?_
  rw [Sql.Select.tokens_eq, conditions]

theorem writtenAs_insert {q : Query} {i : Sql.Insert} (inserts : q.operation = .insert)
    (success : q.compileInsert = .ok i) : q.WrittenAs (.insert i) := by
  obtain ⟨values, written, same⟩ := bind_eq_ok_iff.mp success
  cases same
  obtain ⟨some, rfl⟩ := writtenValues_eq_ok written
  refine WrittenAs.insert inserts some ?_
  simp [Sql.Insert.tokens, some, columnTokens, valueTokens, Tokens.commaList, Tokens.separated,
    Function.comp_def, Expr.tokens]

theorem writtenAs_update {q : Query} {u : Sql.Update} (updates : q.operation = .update)
    (success : q.compileUpdate = .ok u) : q.WrittenAs (.update u) := by
  obtain ⟨values, written, same⟩ := bind_eq_ok_iff.mp success
  cases same
  obtain ⟨some, rfl⟩ := writtenValues_eq_ok written
  have conditions := tokens_writeFilters (q := q) (by rw [updates]; decide)
  refine WrittenAs.update updates some ?_
  simp [Sql.Update.tokens, Sql.whereTokens_eq, conditions, assignmentTokens, List.zip_map',
    Function.comp_def, Expr.tokens]

theorem writtenAs_delete {q : Query} (deletes : q.operation = .delete) :
    q.WrittenAs (.delete q.compileDelete) := by
  have conditions := tokens_writeFilters (q := q) (by rw [deletes]; decide)
  refine WrittenAs.delete deletes ?_
  simp [Sql.Delete.tokens, compileDelete, Sql.whereTokens_eq, conditions]

theorem writtenAs_statement {schema : SchemaLookup} {q : Query} {s : Sql.Statement}
    (success : q.statement schema = .ok s) : q.WrittenAs s := by
  unfold statement at success
  cases kind : q.operation with
  | select =>
      rw [kind] at success
      obtain ⟨block, compiled, same⟩ := bind_eq_ok_iff.mp success
      cases same
      exact writtenAs_select kind compiled
  | insert =>
      rw [kind] at success
      obtain ⟨i, compiled, same⟩ := bind_eq_ok_iff.mp success
      cases same
      exact writtenAs_insert kind compiled
  | update =>
      rw [kind] at success
      obtain ⟨u, compiled, same⟩ := bind_eq_ok_iff.mp success
      cases same
      exact writtenAs_update kind compiled
  | delete =>
      rw [kind] at success
      cases success
      exact writtenAs_delete kind

theorem WrittenAs.unconditional_iff {q : Query} {s : Sql.Statement} (written : q.WrittenAs s) :
    Tokens.Unconditional s.tokens ↔ q.operation = .insert ∨ q.predicates = [] := by
  cases written with
  | @select s selects tokens =>
      simp [Sql.Statement.tokens, tokens, s.unconditional_listTokens, s.unconditional_tableTokens,
        s.unconditional_tailTokens, Sql.unconditional_whereClause, selects]
  | insert inserts some tokens =>
      have names : (Tokens.parenList q.columnTokens).Unconditional := by
        refine Tokens.Unconditional.parenList fun ts member => ?_
        obtain ⟨c, _, rfl⟩ := List.mem_map.mp member
        simp
      have values : (Tokens.parenList q.valueTokens).Unconditional := by
        refine Tokens.Unconditional.parenList fun ts member => ?_
        obtain ⟨c, _, rfl⟩ := List.mem_map.mp member
        simp
      simp [Sql.Statement.tokens, tokens, names, values, inserts]
  | update updates some tokens =>
      have assigned : (Tokens.commaList q.assignmentTokens).Unconditional := by
        refine Tokens.Unconditional.commaList fun ts member => ?_
        obtain ⟨c, _, rfl⟩ := List.mem_map.mp member
        simp
      simp [Sql.Statement.tokens, tokens, assigned, Sql.unconditional_whereClause, updates]
  | delete deletes tokens =>
      simp [Sql.Statement.tokens, tokens, Sql.unconditional_whereClause, deletes]

/-- A statement has the word of its conditions if one has a value, unless it is an insert. -/
theorem WrittenAs.where_iff {q : Query} {s : Sql.Statement} (written : q.WrittenAs s) :
    Token.keyword "WHERE" ∈ s.tokens ↔
      q.operation ≠ .insert ∧ ∃ c ∈ q.filters, c.value ≠ none := by
  rw [← predicates_ne_nil_iff, ne_eq, ne_eq, ← not_or, ← written.unconditional_iff]
  exact not_not.symm

end Query

/-! ## What a write looks at -/

/-- The name and the value of a column. -/
def ColumnRef.bare (c : ColumnRef) : ColumnRef := { named c.name with value := c.value }

namespace Query

/-- A query with nothing left but its operation, the name of its table, and the names and values of
the columns that are written and of the conditions that there can be. -/
def bare (q : Query) : Query where
  operation := q.operation
  table := { key := ⟨q.table.key.name, 0⟩ }
  columns := if q.operation = .delete then [] else q.columns.map ColumnRef.bare
  filters := if q.operation = .insert then [] else q.filters.map ColumnRef.bare

theorem writtenValues_bare {q : Query} (some : q.operation ≠ .delete) (what : String) :
    q.bare.writtenValues what = q.writtenValues what := by
  have columns : q.bare.columns = q.columns.map ColumnRef.bare := if_neg some
  rw [writtenValues, writtenValues, columns, List.isEmpty_map, List.mapM_map]
  rfl

theorem columnNames_bare {q : Query} (some : q.operation ≠ .delete) :
    q.bare.columns.map (·.name) = q.columns.map (·.name) := by
  have columns : q.bare.columns = q.columns.map ColumnRef.bare := if_neg some
  rw [columns, List.map_map]
  rfl

theorem writeFilters_bare {q : Query} (some : q.operation ≠ .insert) :
    q.bare.writeFilters = q.writeFilters := by
  have filters : q.bare.filters = q.filters.map ColumnRef.bare := if_neg some
  rw [writeFilters, writeFilters, filters, List.filterMap_map]
  rfl

/-- A write is compiled like its bare form, over any schema. -/
theorem compile_bare {q : Query} (writes : q.operation ≠ .select) (dialect : Sql.Dialect)
    (schema schema' : SchemaLookup) :
    q.bare.compile dialect schema' = q.compile dialect schema := by
  have operation : q.bare.operation = q.operation := rfl
  have table : q.bare.table.key.name = q.table.key.name := rfl
  have statement : q.bare.statement schema' = q.statement schema := by
    unfold Query.statement
    rw [operation]
    cases kind : q.operation with
    | select => exact absurd kind writes
    | insert =>
        have keeps : q.operation ≠ .delete := by rw [kind]; decide
        simp only [compileInsert, writtenValues_bare keeps, columnNames_bare keeps, table]
    | update =>
        have keeps : q.operation ≠ .delete := by rw [kind]; decide
        have filters : q.operation ≠ .insert := by rw [kind]; decide
        simp only [compileUpdate, writtenValues_bare keeps, columnNames_bare keeps,
          writeFilters_bare filters, table]
    | delete =>
        have filters : q.operation ≠ .insert := by rw [kind]; decide
        simp only [compileDelete, writeFilters_bare filters, table]
  rw [compile, compile, statement, operation, if_neg writes, if_neg writes]

/-- The statement of a query has a predicate for each condition with a value and no other, one value
for each column that is written, and binds these values in their order.  An insert leaves conditions
out.  All that a write looks at is in its bare form. -/
theorem compile_predicates (dialect : Sql.Dialect) (schema : SchemaLookup) (q : Query) :
    (∀ c, q.compile dialect schema = .ok c →
      q.WrittenAs c.statement ∧ c.params = q.bound ∧
        (Token.keyword "WHERE" ∈ c.statement.tokens ↔
          q.operation ≠ .insert ∧ ∃ f ∈ q.filters, f.value ≠ none) ∧
        (q.operation ≠ .select → c.rules = [])) ∧
      (q.operation ≠ .select → ∀ (q' : Query) (schema' : SchemaLookup), q'.bare = q.bare →
        q'.compile dialect schema' = q.compile dialect schema) := by
  constructor
  · intro c success
    obtain ⟨s, built, same⟩ := bind_eq_ok_iff.mp success
    cases same
    have written := writtenAs_statement built
    exact ⟨written, params_statement built, written.where_iff, fun writes => if_neg writes⟩
  · intro writes q' schema' same
    have operation : q'.operation = q.operation := by
      change q'.bare.operation = q.bare.operation
      rw [same]
    rw [← compile_bare writes dialect schema schema,
      ← compile_bare (by rwa [operation]) dialect schema' schema, same]

/-- Conditions with a null, without a value, with a list and with an empty one, in an update of a
table that has a number. -/
def retireOld : Query where
  operation := .update
  table := { key := ⟨"items", 3⟩ }
  columns := [(ColumnRef.named "state").withValue (.str "old"), .named "owner"]
  filters :=
    [(ColumnRef.named "seen").withValue .null, .named "kind",
      (ColumnRef.named "size").withValue (.list [.int 1, .int 2]),
      (ColumnRef.named "tag").withValue (.list [])]

theorem compile_predicates_retireOld : ∃ c,
    retireOld.compile .postgres (Catalog.table []) = .ok c ∧
      c.text = "UPDATE \"items\" SET \"state\" = $1, \"owner\" = $2 " ++
        "WHERE \"seen\" = $3 AND \"size\" IN ($4, $5) AND FALSE" ∧
      c.params = [.str "old", .null, .null, .int 1, .int 2] ∧
      Token.keyword "WHERE" ∈ c.statement.tokens ∧ c.rules = [] ∧
      { retireOld with table := { key := ⟨"items", 0⟩ }, limit := 7 }.compile .postgres
        orderCatalog.table = .ok c := by
  have done : (retireOld.compile .postgres (Catalog.table [])).toOption.map Compiled.text =
      some ("UPDATE \"items\" SET \"state\" = $1, \"owner\" = $2 " ++
        "WHERE \"seen\" = $3 AND \"size\" IN ($4, $5) AND FALSE") := by decide +kernel
  obtain ⟨c, compiled, text⟩ := exists_ok_of_toOption_map done
  obtain ⟨own, alike⟩ := compile_predicates .postgres (Catalog.table []) retireOld
  obtain ⟨_, params, word, rules⟩ := own c compiled
  have valued : ∃ f ∈ retireOld.filters, f.value ≠ none := by decide
  refine ⟨c, compiled, text, params.trans rfl, word.mpr ⟨by decide, valued⟩, rules (by decide), ?_⟩
  rw [← compiled]
  exact alike (by decide) _ _ rfl

/-- An insert that is given a condition. -/
def insertWhere : Query where
  operation := .insert
  table := { key := ⟨"t", 0⟩ }
  columns := [(ColumnRef.named "a").withValue (.int 1)]
  filters := [(ColumnRef.named "x").withValue (.list [])]

/-- The condition has a value, and the statement no clause for it. -/
theorem insertWhere_unconditional : ∃ c,
    insertWhere.compile .sqlite (Catalog.table []) = .ok c ∧
      c.text = "INSERT INTO \"t\" (\"a\") VALUES (?)" ∧
      (∃ f ∈ insertWhere.filters, f.value ≠ none) ∧
      Token.keyword "WHERE" ∉ c.statement.tokens := by
  have done : (insertWhere.compile .sqlite (Catalog.table [])).toOption.map Compiled.text =
      some "INSERT INTO \"t\" (\"a\") VALUES (?)" := by decide +kernel
  obtain ⟨c, compiled, text⟩ := exists_ok_of_toOption_map done
  obtain ⟨s, built, same⟩ := bind_eq_ok_iff.mp compiled
  cases same
  refine ⟨_, compiled, text, by decide, fun word => ?_⟩
  exact ((writtenAs_statement built).where_iff.mp word).1 rfl

end Query

end QueryBoard
