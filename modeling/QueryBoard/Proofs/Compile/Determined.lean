import QueryBoard.Proofs.Compile.Rendering
import QueryBoard.Proofs.Sql.Recovery

/-!
# The statement that a text and parameters stand for

What queries compile to is made of few forms: operands are columns, aggregates of columns and
parameters, conditions compare two operands or ask whether one is in a list.  So a compiled statement
is read out of its text and parameters, and two queries compile to the same text with the same
parameters exactly if their statements differ in nothing but what a text does not have.
-/

set_option autoImplicit false

namespace QueryBoard

open Sql (Expr)

/-! ## The forms of a compiled statement -/

namespace ColumnRef

theorem operand_projected (c : ColumnRef) : Sql.Operand c.projected := by
  unfold projected
  cases c.func with
  | none => exact .column _ _
  | some f => exact .call f _ _

theorem condition_condition? {target e : Expr} (operand : Sql.Operand target) {c : ColumnRef}
    (given : c.condition? target = some e) : Sql.Condition e := by
  unfold condition? at given
  split at given
  · cases given
  · cases given
    refine .member operand ?_
    intro i member
    obtain ⟨v, _, rfl⟩ := List.mem_map.mp member
    exact .param v
  · cases given
    exact .compare (by decide) operand (.param _)

theorem operand_assigned {c : ColumnRef} {e : Expr} (success : c.assigned = .ok e) :
    Sql.Operand e := by
  unfold assigned at success
  split at success
  · cases success
  · cases success
    exact .param _
  · cases success
    exact .param _

end ColumnRef

theorem joinOperator_ne_and {w : String} {op : Sql.BinaryOp} (success : joinOperator w = .ok op) :
    op ≠ .and := by
  rintro rfl
  unfold joinOperator at success
  repeat' split at success
  all_goals cases success

theorem JoinCondition.condition_predicate {parent child : String} {c : JoinCondition} {e : Expr}
    (success : c.predicate parent child = .ok e) : Sql.Condition e ∧ e.normal = e := by
  obtain ⟨op, found, same⟩ := bind_eq_ok_iff.mp success
  cases same
  exact ⟨.compare (joinOperator_ne_and found) (.column _ _) (.column _ _), rfl⟩

namespace TableNode

theorem regular_join {parent : String} {key : TableKey} {rule : Option JoinRule} {j : Sql.Join}
    (success : TableNode.join parent key rule = .ok j) : j.Regular := by
  cases rule with
  | none => cases success
  | some r =>
      obtain ⟨predicates, written, rest⟩ := bind_eq_ok_iff.mp success
      have each : ∀ e ∈ predicates, Sql.Condition e ∧ e.normal = e := by
        intro e member
        obtain ⟨c, _, of⟩ := exists_of_mem_mapM written e member
        exact JoinCondition.condition_predicate of
      cases joined : Expr.conjunction predicates with
      | none =>
          rw [joined] at rest
          cases rest
      | some condition =>
          rw [joined] at rest
          cases rest
          exact ⟨predicates, joined, each⟩

theorem regular_joinsTo : ∀ (ts : List TableNode) (parent : String) (joins : List Sql.Join),
    joinsTo parent ts = .ok joins → ∀ j ∈ joins, j.Regular
  | [], parent, joins, success => by
      rw [joinsTo] at success
      cases success
      simp
  | ⟨key, next, rule⟩ :: rest, parent, joins, success => by
      rw [joinsTo] at success
      obtain ⟨first, joined, success⟩ := bind_eq_ok_iff.mp success
      obtain ⟨below, lower, success⟩ := bind_eq_ok_iff.mp success
      obtain ⟨after, later, same⟩ := bind_eq_ok_iff.mp success
      cases same
      intro j member
      rcases List.mem_append.mp member with member | member
      · rcases List.mem_cons.mp member with rfl | member
        · exact regular_join joined
        · exact regular_joinsTo next key.label below lower j member
      · exact regular_joinsTo rest parent after later j member

end TableNode

namespace Query

theorem operand_rootItems {schema : SchemaLookup} {q : Query} {items : List Sql.SelectItem}
    (success : q.rootItems schema = .ok items) : ∀ i ∈ items, Sql.Operand i.expr := by
  unfold rootItems at success
  split at success
  · cases success
    simp
  · obtain ⟨key, _, same⟩ := bind_eq_ok_iff.mp success
    cases same
    intro i member
    obtain ⟨name, _, rfl⟩ := List.mem_map.mp member
    exact .column _ _

theorem regular_selectBlock {q : Query} {joins : List Sql.Join} {items : List Sql.SelectItem}
    (conditions : ∀ j ∈ joins, j.Regular) (root : ∀ i ∈ items, Sql.Operand i.expr) :
    (q.selectBlock joins items).Regular where
  items := by
    intro i member
    rcases List.mem_append.mp member with member | member
    · obtain ⟨c, _, rfl⟩ := List.mem_map.mp member
      exact c.operand_projected
    · exact root i member
  joins := conditions
  filters := by
    intro e member
    obtain ⟨c, _, given⟩ := List.mem_filterMap.mp member
    exact ColumnRef.condition_condition? (.column _ _) given
  groupBy := by
    intro e member
    simp only [selectBlock] at member
    split at member
    · obtain ⟨c, _, rfl⟩ := List.mem_map.mp member
      exact c.operand_projected
    · cases member
  orderBy := by
    intro o member
    obtain ⟨c, _, rfl⟩ := List.mem_map.mp member
    exact c.operand_projected
  offset := by
    intro none
    simp only [selectBlock] at none ⊢
    split at none
    · next zero => rw [if_pos zero]
    · cases none

theorem regular_compileSelect {schema : SchemaLookup} {q : Query} {s : Sql.Select}
    (success : q.compileSelect schema = .ok s) : s.Regular := by
  obtain ⟨_, _, success⟩ := bind_eq_ok_iff.mp success
  obtain ⟨joins, joined, success⟩ := bind_eq_ok_iff.mp success
  obtain ⟨_, _, success⟩ := bind_eq_ok_iff.mp success
  obtain ⟨items, found, same⟩ := bind_eq_ok_iff.mp success
  cases same
  refine regular_selectBlock ?_ (operand_rootItems found)
  cases table : q.table with
  | mk key next rule =>
      rw [table, TableNode.joins] at joined
      exact TableNode.regular_joinsTo next key.label joins joined

/-- There is a value for every column, and there is a column. -/
theorem operand_writtenValues {what : String} {q : Query} {values : List Expr}
    (success : q.writtenValues what = .ok values) :
    q.columns ≠ [] ∧ values.length = q.columns.length ∧ ∀ e ∈ values, Sql.Operand e := by
  unfold writtenValues at success
  split at success
  · cases success
  · next some_ =>
      refine ⟨by simpa using some_, ?_, ?_⟩
      · exact (mapM_eq_ok_iff.mp success).length_eq.symm
      · intro e member
        obtain ⟨c, _, of⟩ := exists_of_mem_mapM success e member
        exact ColumnRef.operand_assigned of

theorem condition_writeFilters (q : Query) : ∀ e ∈ q.writeFilters, Sql.Condition e := by
  intro e member
  obtain ⟨c, _, given⟩ := List.mem_filterMap.mp member
  exact ColumnRef.condition_condition? (.column _ _) given

theorem regular_compileInsert {q : Query} {i : Sql.Insert} (success : q.compileInsert = .ok i) :
    (Sql.Statement.insert i).Regular := by
  obtain ⟨values, written, same⟩ := bind_eq_ok_iff.mp success
  cases same
  obtain ⟨some_, long, operands⟩ := operand_writtenValues written
  have values_ : values ≠ [] := by
    intro nil
    rw [nil] at long
    exact some_ (List.length_eq_zero_iff.mp long.symm)
  exact {
    columns := by simpa using some_
    rows := List.cons_ne_nil values []
    row := by
      intro row member
      rw [List.mem_singleton.mp member]
      exact ⟨values_, operands⟩ }

theorem regular_compileUpdate {q : Query} {u : Sql.Update} (success : q.compileUpdate = .ok u) :
    (Sql.Statement.update u).Regular := by
  obtain ⟨values, written, same⟩ := bind_eq_ok_iff.mp success
  cases same
  obtain ⟨some_, long, operands⟩ := operand_writtenValues written
  exact {
    some_ := by
      intro nil
      have none := congrArg List.length nil
      simp [long] at none
      exact some_ none
    assignments := fun a member => operands a.2 (List.of_mem_zip member).2
    filters := q.condition_writeFilters }

theorem regular_statement {schema : SchemaLookup} {q : Query} {s : Sql.Statement}
    (success : q.statement schema = .ok s) : s.Regular := by
  unfold statement at success
  cases kind : q.operation with
  | select =>
      rw [kind] at success
      obtain ⟨block, compiled, same⟩ := bind_eq_ok_iff.mp success
      cases same
      exact regular_compileSelect compiled
  | insert =>
      rw [kind] at success
      obtain ⟨i, compiled, same⟩ := bind_eq_ok_iff.mp success
      cases same
      exact regular_compileInsert compiled
  | update =>
      rw [kind] at success
      obtain ⟨u, compiled, same⟩ := bind_eq_ok_iff.mp success
      cases same
      exact regular_compileUpdate compiled
  | delete =>
      rw [kind] at success
      cases success
      exact q.condition_writeFilters

end Query

/-! ## Reading them -/

/-- What a statement of its kind does. -/
def Sql.Statement.operation : Sql.Statement → Operation
  | .select _ => .select
  | .insert _ => .insert
  | .update _ => .update
  | .delete _ => .delete

theorem Sql.Statement.operation_normal (s : Sql.Statement) : s.normal.operation = s.operation := by
  cases s <;> rfl

theorem Query.operation_statement {schema : SchemaLookup} {q : Query} {s : Sql.Statement}
    (success : q.statement schema = .ok s) : s.operation = q.operation := by
  unfold statement at success
  cases kind : q.operation with
  | delete =>
      rw [kind] at success
      cases success
      rfl
  | _ =>
      rw [kind] at success
      obtain ⟨_, _, same⟩ := bind_eq_ok_iff.mp success
      cases same
      rfl

theorem Query.recover_compile {d : Sql.Dialect} {schema : SchemaLookup} {q : Query} {c : Compiled}
    (compiled : q.compile d schema = .ok c) :
    Sql.Statement.recover c.text c.params = some c.statement.normal ∧
      c.operation = c.statement.normal.operation ∧ c.dialect = d := by
  obtain ⟨s, built, same⟩ := bind_eq_ok_iff.mp compiled
  cases same
  have read := Sql.Statement.recover_text (regular_statement built) s.legible
    (plainNames_statement built) d
  have kind : q.operation = s.normal.operation := by
    rw [s.operation_normal, operation_statement built]
  exact ⟨read, kind, rfl⟩

/-- A compiled statement is recovered from its text and parameters.  Two compiled statements with
the same text and parameters are the same but for what `normal` leaves out, and what it leaves out
is in no text. -/
theorem Query.compile_determined {d d' : Sql.Dialect} {schema schema' : SchemaLookup} {q q' : Query}
    {c c' : Compiled} (compiled : q.compile d schema = .ok c)
    (compiled' : q'.compile d' schema' = .ok c') :
    Sql.Statement.recover c.text c.params = some c.statement.normal ∧
      (c.text = c'.text → c.params = c'.params →
        c.operation = c'.operation ∧ c.statement.normal = c'.statement.normal) ∧
      (d = d' → c.statement.normal = c'.statement.normal →
        c.text = c'.text ∧ c.params = c'.params) := by
  obtain ⟨read, kind, dialect⟩ := recover_compile compiled
  obtain ⟨read', kind', dialect'⟩ := recover_compile compiled'
  refine ⟨read, ?_, ?_⟩
  · intro text params
    rw [text, params, read'] at read
    have same := Option.some.inj read
    exact ⟨by rw [kind, kind', same], same.symm⟩
  · intro sameDialect same
    have tokens : c.statement.tokens = c'.statement.tokens := by
      rw [← c.statement.tokens_normal, same, c'.statement.tokens_normal]
    have written : c.dialect = c'.dialect := by rw [dialect, dialect', sameDialect]
    exact ⟨by rw [Compiled.text, Compiled.text, Sql.Statement.text, Sql.Statement.text, tokens,
      written], by rw [Compiled.params, Compiled.params, Sql.Statement.params, Sql.Statement.params,
      tokens]⟩

/-- A count of the rows whose column is in the empty list. -/
def countNone (column : String) (limit : UInt64) : Query where
  operation := .select
  table := { key := ⟨"t", 0⟩ }
  columns := [(ColumnRef.of ⟨"t", 0⟩ "id").withFunc .count]
  filters := [(ColumnRef.of ⟨"t", 0⟩ column).withValue (.list [])]
  limit := limit

/-- The block that the count compiles to. -/
def countNoneBlock (column : String) (limit : UInt64) : Sql.Select where
  items := [⟨.call "count" [.tableCol "t" "id"], some "count t.id"⟩]
  source := some ⟨"t", some "t"⟩
  filters := [.member false (.tableCol "t" column) []]
  limit := some limit
  offset := some 0

theorem countNone_compiles (column : String) (limit : UInt64) (some_ : limit ≠ 0) :
    ∃ c, (countNone column limit).compile .sqlite (Catalog.table []) = .ok c ∧
      c.statement = .select (countNoneBlock column limit) := by
  simp [countNone, Query.compile, Query.statement, Query.compileSelect, Query.checkedColumns,
    Query.rootItems, Query.hasAggregate, TableNode.checkAliases, TableNode.aliases,
    TableNode.aliasesList, firstRepeated?, TableNode.joins, TableNode.joinsTo,
    ColumnRef.checkTable, ColumnRef.label, ColumnRef.withValue, ColumnRef.withFunc, ColumnRef.of]
  refine ⟨_, rfl, ?_⟩
  simp [Query.selectBlock, countNoneBlock, some_, Query.hasAggregate, ColumnRef.selectItem,
    ColumnRef.projected, ColumnRef.qualified, ColumnRef.label, ColumnRef.condition?,
    ColumnRef.outputName, ColumnRef.name, ColumnRef.named, TableNode.label, TableKey.label,
    Aggregate.name]

theorem Query.compile_determined_countNone :
    ∃ c c', (countNone "a" 0x7fffffffffffffff).compile .sqlite (Catalog.table []) = .ok c ∧
      (countNone "b" 0xffffffffffffffff).compile .sqlite (Catalog.table []) = .ok c' ∧
      c.statement ≠ c'.statement ∧ c.text = c'.text ∧ c.params = c'.params ∧
      Sql.Statement.recover c.text c.params = some c'.statement.normal := by
  obtain ⟨c, compiled, block⟩ := countNone_compiles "a" 0x7fffffffffffffff (by decide)
  obtain ⟨c', compiled', block'⟩ := countNone_compiles "b" 0xffffffffffffffff (by decide)
  obtain ⟨read, apart, alike⟩ := Query.compile_determined compiled compiled'
  have same : c.statement.normal = c'.statement.normal := by
    rw [block, block']
    rfl
  obtain ⟨text, params⟩ := alike rfl same
  refine ⟨c, c', compiled, compiled', ?_, text, params, ?_⟩
  · rw [block, block']
    simp [countNoneBlock]
  · rw [read, (apart text params).2]

end QueryBoard
