import QueryBoard.Compile.Basic
import QueryBoard.Proofs.Fallible
import QueryBoard.Proofs.Sql.Parts

/-!
# Statements that queries compile to are read back

The only functions in a compiled statement are the aggregates.  What a query contains otherwise
gets into the text in quotes or as a placeholder.
-/

set_option autoImplicit false

namespace QueryBoard

open Sql (Expr)

/-! ## The expressions of a compiled statement -/

theorem Aggregate.isWord_name (f : Aggregate) : Sql.IsWord f.name.toList := by
  cases f <;> (rw [Aggregate.name]; decide)

namespace ColumnRef

theorem plainNames_projected (c : ColumnRef) : c.projected.PlainNames := by
  have column : c.qualified.PlainNames := Expr.plainNames_column _ _
  unfold projected
  cases c.func with
  | none => exact column
  | some f => exact Expr.plainNames_call f.isWord_name (by simpa using column)

theorem plainNames_condition? {target e : Expr} (plain : target.PlainNames) {c : ColumnRef}
    (given : c.condition? target = some e) : e.PlainNames := by
  unfold condition? at given
  split at given
  · cases given
  · cases given
    refine Expr.plainNames_member false plain ?_
    intro i member
    obtain ⟨v, _, rfl⟩ := List.mem_map.mp member
    exact Expr.plainNames_param v
  · cases given
    exact plain.binary (Expr.plainNames_param _) .eq

theorem plainNames_assigned {c : ColumnRef} {e : Expr} (success : c.assigned = .ok e) :
    e.PlainNames := by
  unfold assigned at success
  split at success
  · cases success
  · cases success
    exact Expr.plainNames_param _
  · cases success
    exact Expr.plainNames_param _

end ColumnRef

theorem JoinCondition.plainNames_predicate {parent child : String} {c : JoinCondition} {e : Expr}
    (success : c.predicate parent child = .ok e) : e.PlainNames := by
  obtain ⟨op, _, same⟩ := bind_eq_ok_iff.mp success
  cases same
  exact (Expr.plainNames_column _ _).binary (Expr.plainNames_column _ _) op

namespace TableNode

theorem plainNames_join {parent : String} {key : TableKey} {rule : Option JoinRule} {j : Sql.Join}
    (success : TableNode.join parent key rule = .ok j) : j.condition.PlainNames := by
  cases rule with
  | none => cases success
  | some r =>
      obtain ⟨predicates, written, rest⟩ := bind_eq_ok_iff.mp success
      have each : ∀ e ∈ predicates, e.PlainNames := by
        intro e member
        obtain ⟨c, _, of⟩ := exists_of_mem_mapM written e member
        exact JoinCondition.plainNames_predicate of
      cases joined : Expr.conjunction predicates with
      | none =>
          rw [joined] at rest
          cases rest
      | some condition =>
          rw [joined] at rest
          cases rest
          exact Expr.PlainNames.conjunction each joined

theorem plainNames_joinsTo : ∀ (ts : List TableNode) (parent : String) (joins : List Sql.Join),
    joinsTo parent ts = .ok joins → ∀ j ∈ joins, j.condition.PlainNames
  | [], parent, joins, success => by
      rw [joinsTo] at success
      cases success
      simp
  | ⟨key, next, rule⟩ :: rest, parent, joins, success => by
      rw [joinsTo] at success
      obtain ⟨first, joined, success⟩ := bind_eq_ok_iff.mp success
      obtain ⟨below, lower, success⟩ := bind_eq_ok_iff.mp success
      obtain ⟨after, later, same⟩ := bind_eq_ok_iff.mp success
      cases same
      intro j member
      rcases List.mem_append.mp member with member | member
      · rcases List.mem_cons.mp member with rfl | member
        · exact plainNames_join joined
        · exact plainNames_joinsTo next key.label below lower j member
      · exact plainNames_joinsTo rest parent after later j member

end TableNode

namespace Query

theorem plainNames_rootItems {schema : SchemaLookup} {q : Query} {items : List Sql.SelectItem}
    (success : q.rootItems schema = .ok items) : ∀ i ∈ items, i.expr.PlainNames := by
  unfold rootItems at success
  split at success
  · cases success
    simp
  · obtain ⟨key, _, same⟩ := bind_eq_ok_iff.mp success
    cases same
    intro i member
    obtain ⟨name, _, rfl⟩ := List.mem_map.mp member
    exact Expr.plainNames_column _ _

theorem plainNames_selectBlock {q : Query} {joins : List Sql.Join} {items : List Sql.SelectItem}
    (conditions : ∀ j ∈ joins, j.condition.PlainNames)
    (root : ∀ i ∈ items, i.expr.PlainNames) : (q.selectBlock joins items).PlainNames where
  items := by
    intro i member
    rcases List.mem_append.mp member with member | member
    · obtain ⟨c, _, rfl⟩ := List.mem_map.mp member
      exact c.plainNames_projected
    · exact root i member
  joins := conditions
  filters := by
    intro e member
    obtain ⟨c, _, given⟩ := List.mem_filterMap.mp member
    exact ColumnRef.plainNames_condition? (Expr.plainNames_column _ _) given
  groupBy := by
    intro e member
    simp only [selectBlock] at member
    split at member
    · obtain ⟨c, _, rfl⟩ := List.mem_map.mp member
      exact c.plainNames_projected
    · cases member
  orderBy := by
    intro o member
    obtain ⟨c, _, rfl⟩ := List.mem_map.mp member
    exact c.plainNames_projected

theorem plainNames_compileSelect {schema : SchemaLookup} {q : Query} {s : Sql.Select}
    (success : q.compileSelect schema = .ok s) : s.PlainNames := by
  obtain ⟨_, _, success⟩ := bind_eq_ok_iff.mp success
  obtain ⟨joins, joined, success⟩ := bind_eq_ok_iff.mp success
  obtain ⟨_, _, success⟩ := bind_eq_ok_iff.mp success
  obtain ⟨items, found, same⟩ := bind_eq_ok_iff.mp success
  cases same
  refine plainNames_selectBlock ?_ (plainNames_rootItems found)
  cases table : q.table with
  | mk key next rule =>
      rw [table, TableNode.joins] at joined
      exact TableNode.plainNames_joinsTo next key.label joins joined

theorem plainNames_writtenValues {what : String} {q : Query} {values : List Expr}
    (success : q.writtenValues what = .ok values) : ∀ e ∈ values, e.PlainNames := by
  unfold writtenValues at success
  split at success
  · cases success
  · intro e member
    obtain ⟨c, _, of⟩ := exists_of_mem_mapM success e member
    exact ColumnRef.plainNames_assigned of

theorem plainNames_writeFilters (q : Query) : ∀ e ∈ q.writeFilters, e.PlainNames := by
  intro e member
  obtain ⟨c, _, given⟩ := List.mem_filterMap.mp member
  exact ColumnRef.plainNames_condition? (Expr.plainNames_column _ _) given

theorem plainNames_statement {schema : SchemaLookup} {q : Query} {s : Sql.Statement}
    (success : q.statement schema = .ok s) : s.tokens.PlainNames := by
  unfold statement at success
  cases kind : q.operation with
  | select =>
      rw [kind] at success
      obtain ⟨block, compiled, same⟩ := bind_eq_ok_iff.mp success
      cases same
      exact (plainNames_compileSelect compiled).tokens
  | insert =>
      rw [kind] at success
      obtain ⟨i, compiled, same⟩ := bind_eq_ok_iff.mp success
      cases same
      obtain ⟨values, written, same⟩ := bind_eq_ok_iff.mp compiled
      cases same
      refine Sql.Insert.plainNames ?_
      simpa using plainNames_writtenValues written
  | update =>
      rw [kind] at success
      obtain ⟨u, compiled, same⟩ := bind_eq_ok_iff.mp success
      cases same
      obtain ⟨values, written, same⟩ := bind_eq_ok_iff.mp compiled
      cases same
      refine Sql.Update.plainNames ?_ q.plainNames_writeFilters
      intro a member
      exact plainNames_writtenValues written a.2 (List.of_mem_zip member).2
  | delete =>
      rw [kind] at success
      cases success
      exact Sql.Delete.plainNames q.plainNames_writeFilters

end Query

/-! ## Reading them back -/

theorem Sql.Statement.legible (s : Sql.Statement) : Sql.Legible s.tokens := by
  cases s with
  | select s => exact s.legible
  | insert i => exact i.legible
  | update u => exact u.legible
  | delete d => exact d.legible

/-- Every statement of the builders whose functions have plain names, and every statement that a
query compiles to, is read back as it was built, in either dialect.  The tokens that are read back
hold the names, functions, constants and values of the statement, each as it was given. -/
theorem statements_readBack :
    (∀ (d : Sql.Dialect) (b : Sql.Built), b.tokens.PlainNames →
      Sql.ReadBack d b.tokens ∧ b.tokens.parts = b.parts) ∧
      ∀ (d : Sql.Dialect) (schema : SchemaLookup) (q : Query) (c : Compiled),
        q.compile d schema = .ok c → c.dialect = d ∧ Sql.ReadBack c.dialect c.statement.tokens ∧
          c.statement.tokens.parts = c.statement.parts := by
  constructor
  · intro d b plain
    exact ⟨b.legible.readBack plain d, b.parts_tokens⟩
  · intro d schema q c success
    obtain ⟨s, built, same⟩ := bind_eq_ok_iff.mp success
    cases same
    exact ⟨rfl, s.legible.readBack (Query.plainNames_statement built) d, s.parts_tokens⟩

/-- A count over a table and a column whose names hold quotes, marks and placeholders. -/
def hostileCount : Query where
  operation := .select
  table := { key := ⟨"a\"; --", 0⟩ }
  columns := [(ColumnRef.of ⟨"a\"; --", 0⟩ "b' OR ? = $1").withFunc .count]
  filters := [(ColumnRef.of ⟨"a\"; --", 0⟩ "\"\"\n/*").withValue (.str "'")]

theorem hostileCount_compiles :
    ∃ c, hostileCount.compile .postgres (Catalog.table []) = .ok c := by
  simp [hostileCount, Query.compile, Query.statement, Query.compileSelect, Query.checkedColumns,
    Query.rootItems, Query.hasAggregate, TableNode.checkAliases, TableNode.aliases,
    TableNode.aliasesList, firstRepeated?, TableNode.joins, TableNode.joinsTo,
    ColumnRef.checkTable, ColumnRef.label, ColumnRef.withValue, ColumnRef.withFunc, ColumnRef.of]
  exact ⟨_, rfl⟩

theorem statements_readBack_hostileCount :
    (∃ c, hostileCount.compile .postgres (Catalog.table []) = .ok c ∧
        Sql.ReadBack c.dialect c.statement.tokens ∧
        c.statement.tokens.parts = c.statement.parts) ∧
      Sql.ReadBack .sqlite
        (Sql.Built.delete { table := "\"", filters := [.eq (.col "?") (.param .null)] }).tokens := by
  constructor
  · obtain ⟨c, compiled⟩ := hostileCount_compiles
    obtain ⟨_, read, parts⟩ :=
      statements_readBack.2 .postgres (Catalog.table []) hostileCount c compiled
    exact ⟨c, compiled, read, parts⟩
  · refine (statements_readBack.1 _ _ ?_).1
    apply Sql.Delete.plainNames
    intro e member
    rw [List.mem_singleton.mp member]
    exact (Expr.plainNames_column _ _).binary (Expr.plainNames_param _) .eq

end QueryBoard
