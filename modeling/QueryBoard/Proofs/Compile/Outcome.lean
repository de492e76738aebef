import QueryBoard.Compile.Basic
import QueryBoard.Proofs.Fallible
import Mathlib.Data.List.Nodup

/-!
# When a query compiles, and with which error it does not

`Query.Fault` says what is wrong with a query, without compiling it.  A query may have several
faults of which only one counts: each kind of fault is looked for only where those before it are
absent, and of one kind the first in the order of the query is taken.  Compiling fails with exactly
that error, and succeeds when there is none.
-/

set_option autoImplicit false

namespace QueryBoard

/-! ## Faults -/

def joinOperators : List String := ["=", "<>", "!=", "<", ">", "<=", ">="]

namespace TableNode

mutual

/-- The tables below a table, each before the tables that join it. -/
def descendants : TableNode → List TableNode
  | ⟨_, next, _⟩ => descendantsList next

def descendantsList : List TableNode → List TableNode
  | [] => []
  | t :: rest => t :: t.descendants ++ descendantsList rest

end

/-- What is wrong with the way a table joins its parent. -/
inductive JoinFault (t : TableNode) : CompileError → Prop where
  | noRule : t.rule = none → JoinFault t (.missingJoinRule t.label)
  | operator {rule : JoinRule} {before after : List JoinCondition} {c : JoinCondition} :
      t.rule = some rule → rule.conditions = before ++ c :: after →
      (∀ b ∈ before, b.operator ∈ joinOperators) → c.operator ∉ joinOperators →
      JoinFault t (.unsupportedOperator c.operator)
  | noCondition {rule : JoinRule} :
      t.rule = some rule → rule.conditions = [] → JoinFault t (.emptyJoinCondition t.label)

end TableNode

namespace Query

/-- What is wrong with a select. -/
inductive SelectFault (schema : SchemaLookup) (q : Query) : CompileError → Prop where
  /-- An alias repeats an earlier one, and is the first to do so. -/
  | duplicate {before after : List String} {a : String} :
      q.table.aliases = before ++ a :: after → before.Nodup → a ∈ before →
      SelectFault schema q (.duplicateAlias a)
  /-- A table joins badly, and is the first to do so. -/
  | join {before after : List TableNode} {t : TableNode} {e : CompileError} :
      q.table.aliases.Nodup →
      q.table.descendants = before ++ t :: after → (∀ b ∈ before, ∀ e', ¬ b.JoinFault e') →
      t.JoinFault e → SelectFault schema q e
  /-- A column is of a table outside the tree, and is the first that is. -/
  | column {before after : List ColumnRef} {c : ColumnRef} :
      q.table.aliases.Nodup → (∀ t ∈ q.table.descendants, ∀ e', ¬ t.JoinFault e') →
      q.filters ++ q.orderBy ++ q.columns = before ++ c :: after →
      (∀ b ∈ before, b.label ∈ q.table.aliases) → c.label ∉ q.table.aliases →
      SelectFault schema q (.unknownTable c.label c.name)
  /-- The root table is needed from the schema, and cannot be had. -/
  | schema {e : SchemaError} :
      q.table.aliases.Nodup → (∀ t ∈ q.table.descendants, ∀ e', ¬ t.JoinFault e') →
      (∀ c ∈ q.filters ++ q.orderBy ++ q.columns, c.label ∈ q.table.aliases) →
      (∀ c ∈ q.columns, c.func = none) →
      (∀ c ∈ q.columns, c.label = q.table.label → c.column.primaryKey = false) →
      schema q.table.key.name = .error e → SelectFault schema q (.schema e)

def writesColumns (q : Query) : Prop := q.operation = .insert ∨ q.operation = .update

/-- What is wrong with a query. -/
inductive Fault (schema : SchemaLookup) (q : Query) : CompileError → Prop where
  | select {e : CompileError} :
      q.operation = .select → SelectFault schema q e → Fault schema q e
  | noColumns :
      q.writesColumns → q.columns = [] → Fault schema q (.noColumns q.operation.name)
  /-- A column is given a list, and is the first that is. -/
  | value {before after : List ColumnRef} {c : ColumnRef} {items : List Value} :
      q.writesColumns → q.columns = before ++ c :: after →
      (∀ b ∈ before, ∀ items', b.value ≠ some (.list items')) → c.value = some (.list items) →
      Fault schema q (.invalidValue c.name)

end Query

/-! ## Joins -/

theorem joinOperator_fails (op : String) :
    FailsWith (joinOperator op) fun e => op ∉ joinOperators ∧ e = .unsupportedOperator op := by
  by_cases known : op ∈ joinOperators
  · have found : ∃ o, joinOperator op = .ok o := by
      simp only [joinOperators, List.mem_cons, List.not_mem_nil, or_false] at known
      rcases known with rfl | rfl | rfl | rfl | rfl | rfl | rfl <;> exact ⟨_, rfl⟩
    obtain ⟨o, same⟩ := found
    rw [same]
    exact (FailsWith.ok o).congr fun e => by simp [known]
  · have failed : joinOperator op = .error (.unsupportedOperator op) := by
      simp only [joinOperators, List.mem_cons, List.not_mem_nil, or_false, not_or] at known
      obtain ⟨eq, ne, ne', lt, gt, le, ge⟩ := known
      simp [joinOperator, eq, ne, ne', lt, gt, le, ge]
    rw [failed]
    exact (FailsWith.error _).congr fun e => by simp [known]

theorem JoinCondition.predicate_fails (parent child : String) (c : JoinCondition) :
    FailsWith (c.predicate parent child) fun e =>
      c.operator ∉ joinOperators ∧ e = .unsupportedOperator c.operator :=
  (joinOperator_fails c.operator).map _

namespace TableNode

theorem joinFault_of_rule {t : TableNode} {rule : JoinRule} (given : t.rule = some rule)
    (e : CompileError) :
    t.JoinFault e ↔
      First (fun c e => c.operator ∉ joinOperators ∧ e = .unsupportedOperator c.operator)
        rule.conditions e ∨ rule.conditions = [] ∧ e = .emptyJoinCondition t.label := by
  constructor
  · intro fault
    cases fault with
    | noRule absent =>
        rw [absent] at given
        cases given
    | @operator rule' before after c given' split known unknown =>
        rw [given] at given'
        cases given'
        refine Or.inl ⟨before, c, after, split, ?_, unknown, rfl⟩
        rintro b member e' ⟨unknown', _⟩
        exact unknown' (known b member)
    | noCondition given' empty =>
        rw [given] at given'
        cases given'
        exact Or.inr ⟨empty, rfl⟩
  · rintro (⟨before, c, after, split, known, unknown, rfl⟩ | ⟨empty, rfl⟩)
    · refine JoinFault.operator given split ?_ unknown
      intro b member
      by_contra other
      exact known b member _ ⟨other, rfl⟩
    · exact JoinFault.noCondition given empty

theorem join_fails (parent : String) (key : TableKey) (next : List TableNode)
    (rule : Option JoinRule) :
    FailsWith (TableNode.join parent key rule) (JoinFault ⟨key, next, rule⟩) := by
  cases rule with
  | none =>
      have failed : FailsWith (TableNode.join parent key none) fun e =>
          e = .missingJoinRule key.label := FailsWith.error _
      refine failed.congr fun e => ?_
      constructor
      · rintro rfl
        exact JoinFault.noRule rfl
      · intro fault
        cases fault with
        | noRule _ => rfl
        | operator given _ _ _ => cases given
        | noCondition given _ => cases given
  | some rule =>
      have predicates := FailsWith.mapM (JoinCondition.predicate_fails parent key.label)
        rule.conditions
      have whole : FailsWith (TableNode.join parent key (some rule)) _ :=
        predicates.bind (Q := fun e => rule.conditions = [] ∧ e = .emptyJoinCondition key.label) (by
          intro es written
          have each := mapM_eq_ok_iff.mp written
          cases es with
          | nil =>
              have empty : rule.conditions = [] := List.forall₂_nil_right_iff.mp each
              exact (FailsWith.error _).congr fun e => by simp [empty]
          | cons first more =>
              obtain ⟨c, cs, _, _, same⟩ := List.forall₂_cons_right_iff.mp each
              exact (FailsWith.ok _).congr fun e => by simp [same])
      refine whole.congr fun e => ?_
      rw [joinFault_of_rule rfl]
      constructor
      · rintro (fault | ⟨_, fault⟩)
        · exact Or.inl fault
        · exact Or.inr fault
      · rintro (fault | ⟨empty, same⟩)
        · exact Or.inl fault
        · refine Or.inr ⟨fun e' => ?_, empty, same⟩
          rw [empty]
          exact First.nil_iff.mp

mutual

theorem joins_fails : (t : TableNode) → FailsWith t.joins (First JoinFault t.descendants)
  | ⟨key, next, _⟩ => by
      rw [joins, descendants]
      exact joinsTo_fails key.label next

theorem joinsTo_fails (parent : String) : (ts : List TableNode) →
    FailsWith (joinsTo parent ts) (First JoinFault (descendantsList ts))
  | [] => by
      rw [joinsTo, descendantsList]
      exact (FailsWith.ok []).congr fun e => First.nil_iff.symm
  | ⟨key, next, rule⟩ :: rest => by
      have below := joinsTo_fails key.label next
      have after := joinsTo_fails parent rest
      rw [joinsTo, descendantsList, descendants]
      have whole := (join_fails parent key next rule).bind fun j _ =>
        below.bind fun joins _ => after.map fun more => j :: joins ++ more
      refine whole.congr fun e => ?_
      rw [List.cons_append, First.cons_iff, First.append_iff, none_first_iff]

end

end TableNode

/-! ## Aliases -/

/-- A name that is found repeated is the first one that is. -/
theorem firstRepeated?_eq_some_iff {a : String} : ∀ (l seen : List String),
    firstRepeated? seen l = some a ↔ ∃ before after, l = before ++ a :: after ∧ before.Nodup ∧
      (∀ b ∈ before, b ∉ seen) ∧ (a ∈ before ∨ a ∈ seen) := by
  intro l
  induction l with
  | nil =>
      intro seen
      simp [firstRepeated?]
  | cons x rest ih =>
      intro seen
      rw [firstRepeated?]
      by_cases repeats : x ∈ seen
      · rw [if_pos repeats, Option.some.injEq]
        constructor
        · rintro rfl
          exact ⟨[], rest, rfl, List.nodup_nil, by simp, Or.inr repeats⟩
        · rintro ⟨before, after, split, _, fresh, _⟩
          cases before with
          | nil => cases split; rfl
          | cons y before =>
              cases split
              exact absurd repeats (fresh x (by simp))
      · rw [if_neg repeats, ih]
        constructor
        · rintro ⟨before, after, rfl, distinct, fresh, known⟩
          refine ⟨x :: before, after, rfl, ?_, ?_, ?_⟩
          · refine List.nodup_cons.mpr ⟨fun member => ?_, distinct⟩
            exact fresh x member (by simp)
          · intro b member
            rcases List.mem_cons.mp member with rfl | member
            · exact repeats
            · exact fun old => fresh b member (by simp [old])
          · simp only [List.mem_cons] at known ⊢
            tauto
        · rintro ⟨before, after, split, distinct, fresh, known⟩
          cases before with
          | nil =>
              cases split
              exact absurd known (by simpa using repeats)
          | cons y before =>
              cases split
              obtain ⟨apart, distinct⟩ := List.nodup_cons.mp distinct
              refine ⟨before, after, rfl, distinct, ?_, ?_⟩
              · intro b member old
                rcases List.mem_cons.mp old with rfl | old
                · exact apart member
                · exact fresh b (by simp [member]) old
              · simp only [List.mem_cons] at known ⊢
                tauto

theorem firstRepeated?_eq_none_iff : ∀ (l seen : List String),
    firstRepeated? seen l = none ↔ l.Nodup ∧ ∀ b ∈ l, b ∉ seen := by
  intro l
  induction l with
  | nil => intro seen; simp [firstRepeated?]
  | cons x rest ih =>
      intro seen
      rw [firstRepeated?]
      by_cases repeats : x ∈ seen
      · simp [repeats]
      · rw [if_neg repeats, ih, List.nodup_cons]
        simp only [List.mem_cons, not_or, forall_eq_or_imp]
        constructor
        · rintro ⟨distinct, fresh⟩
          exact ⟨⟨fun member => (fresh x member).1 rfl, distinct⟩, repeats,
            fun b member => (fresh b member).2⟩
        · rintro ⟨⟨apart, distinct⟩, _, fresh⟩
          refine ⟨distinct, fun b member => ⟨?_, fresh b member⟩⟩
          rintro rfl
          exact apart member

def TableNode.AliasFault (t : TableNode) (e : CompileError) : Prop :=
  ∃ before a after, t.aliases = before ++ a :: after ∧ before.Nodup ∧ a ∈ before ∧
    e = .duplicateAlias a

namespace TableNode

theorem checkAliases_fails (t : TableNode) : FailsWith t.checkAliases t.AliasFault := by
  unfold checkAliases
  cases found : firstRepeated? [] t.aliases with
  | some a =>
      obtain ⟨before, after, split, distinct, _, known⟩ :=
        (firstRepeated?_eq_some_iff t.aliases []).mp found
      refine (FailsWith.error (CompileError.duplicateAlias a)).congr fun e => ?_
      constructor
      · rintro rfl
        exact ⟨before, a, after, split, distinct, known.resolve_right (by simp), rfl⟩
      · rintro ⟨before', a', after', split', distinct', known', rfl⟩
        have again := (firstRepeated?_eq_some_iff t.aliases []).mpr
          ⟨before', after', split', distinct', by simp, Or.inl known'⟩
        rw [found] at again
        cases again
        rfl
  | none =>
      refine (FailsWith.ok ()).congr fun e => ⟨False.elim, ?_⟩
      rintro ⟨before, a, after, split, distinct, known, rfl⟩
      have again := (firstRepeated?_eq_some_iff t.aliases []).mpr
        ⟨before, after, split, distinct, by simp, Or.inl known⟩
      rw [found] at again
      cases again

theorem none_aliasFault_iff (t : TableNode) : (∀ e, ¬ t.AliasFault e) ↔ t.aliases.Nodup := by
  rw [← t.checkAliases_fails.ok_iff]
  have distinct := firstRepeated?_eq_none_iff t.aliases []
  unfold checkAliases
  cases found : firstRepeated? [] t.aliases with
  | some a =>
      rw [found] at distinct
      simpa using distinct
  | none =>
      rw [found] at distinct
      simpa using distinct

end TableNode

/-! ## Columns and the root table -/

theorem ColumnRef.checkTable_fails (aliases : List String) (c : ColumnRef) :
    FailsWith (c.checkTable aliases) fun e =>
      c.label ∉ aliases ∧ e = .unknownTable c.label c.name := by
  unfold ColumnRef.checkTable
  by_cases known : c.label ∈ aliases
  · rw [if_pos known]
    exact (FailsWith.ok ()).congr fun e => by simp [known]
  · rw [if_neg known]
    exact (FailsWith.error _).congr fun e => by simp [known]

theorem ColumnRef.assigned_fails (c : ColumnRef) :
    FailsWith c.assigned fun e =>
      (∃ items, c.value = some (.list items)) ∧ e = .invalidValue c.name := by
  unfold ColumnRef.assigned
  split
  · next items given =>
    exact (FailsWith.error _).congr fun e => by simp [given]
  · next v scalar given =>
    refine (FailsWith.ok _).congr fun e => ⟨False.elim, ?_⟩
    rintro ⟨⟨items, same⟩, _⟩
    rw [given] at same
    cases same
    exact scalar items rfl
  · next absent =>
    exact (FailsWith.ok _).congr fun e => by simp [absent]

namespace Query

variable (schema : SchemaLookup) (q : Query)

/-- The schema is asked unless the query shows the key of the root table, and then any error of
the schema is that of the query. -/
theorem rootKey?_fails :
    FailsWith (q.rootKey? schema) fun e =>
      (∀ c ∈ q.columns, c.func = none → c.label = q.table.label → c.column.primaryKey = false) ∧
        ∃ e', schema q.table.key.name = .error e' ∧ e = .schema e' := by
  unfold rootKey?
  cases shown : q.columns.find? fun c =>
      c.func.isNone && c.column.primaryKey && c.label == q.table.label with
  | some c =>
      have member := List.mem_of_find?_eq_some shown
      have holds := List.find?_some shown
      simp only [Bool.and_eq_true, Option.isNone_iff_eq_none, beq_iff_eq] at holds
      obtain ⟨⟨plain, marked⟩, root⟩ := holds
      refine (FailsWith.ok _).congr fun e => ⟨False.elim, ?_⟩
      rintro ⟨hidden, _⟩
      rw [hidden c member plain root] at marked
      cases marked
  | none =>
      have hidden : ∀ c ∈ q.columns, c.func = none → c.label = q.table.label →
          c.column.primaryKey = false := by
        intro c member plain root
        have absent := List.find?_eq_none.mp shown c member
        simpa [plain, root] using absent
      cases looked : schema q.table.key.name with
      | ok t => exact (FailsWith.ok _).congr fun e => by simp
      | error e' =>
          refine (FailsWith.error (CompileError.schema e')).congr fun e => ?_
          constructor
          · rintro rfl
            exact ⟨hidden, e', rfl, rfl⟩
          · rintro ⟨_, e'', same, rfl⟩
            cases same
            rfl

/-- The root table is asked for only where no rows are grouped. -/
theorem rootItems_fails :
    FailsWith (q.rootItems schema) fun e => (∀ c ∈ q.columns, c.func = none) ∧
      (∀ c ∈ q.columns, c.label = q.table.label → c.column.primaryKey = false) ∧
        ∃ e', schema q.table.key.name = .error e' ∧ e = .schema e' := by
  have grouped : q.hasAggregate = true ↔ ¬ ∀ c ∈ q.columns, c.func = none := by
    simp [hasAggregate, Option.isSome_iff_ne_none]
  unfold rootItems
  by_cases aggregate : q.hasAggregate = true
  · rw [if_pos aggregate]
    refine (FailsWith.ok _).congr fun e => ⟨False.elim, ?_⟩
    rintro ⟨plain, _⟩
    exact grouped.mp aggregate plain
  · have plain : ∀ c ∈ q.columns, c.func = none := by
      by_contra some
      exact aggregate (grouped.mpr some)
    rw [if_neg aggregate]
    refine ((q.rootKey?_fails schema).map _).congr fun e => ?_
    constructor
    · rintro ⟨hidden, failed⟩
      exact ⟨plain, fun c member => hidden c member (plain c member), failed⟩
    · rintro ⟨_, hidden, failed⟩
      exact ⟨fun c member _ => hidden c member, failed⟩

/-! ## Whole queries -/

theorem compileSelect_fails : FailsWith (q.compileSelect schema) (q.SelectFault schema) := by
  have columns := FailsWith.forM (ColumnRef.checkTable_fails q.table.aliases) q.checkedColumns
  -- The checks in the order in which they are made, each only after those before it.
  have whole : FailsWith (q.compileSelect schema) _ :=
    q.table.checkAliases_fails.bind fun _ _ => q.table.joins_fails.bind fun joins _ =>
      columns.bind fun _ _ => (q.rootItems_fails schema).map (q.selectBlock joins)
  refine whole.congr fun e => ?_
  rw [TableNode.none_aliasFault_iff, none_first_iff, none_first_iff]
  constructor
  · rintro (⟨before, a, after, split, distinct, known, rfl⟩ | ⟨distinct, later⟩)
    · exact SelectFault.duplicate split distinct known
    rcases later with ⟨before, t, after, split, clean, fault⟩ | ⟨joined, later⟩
    · exact SelectFault.join distinct split clean fault
    rcases later with ⟨before, c, after, split, known, unknown, rfl⟩ | ⟨known, later⟩
    · refine SelectFault.column distinct joined split ?_ unknown
      intro b member
      by_contra other
      exact known b member _ ⟨other, rfl⟩
    · obtain ⟨plain, hidden, e', failed, rfl⟩ := later
      refine SelectFault.schema distinct joined ?_ plain hidden failed
      intro c member
      by_contra other
      exact known c member _ ⟨other, rfl⟩
  · intro fault
    cases fault with
    | duplicate split distinct known => exact Or.inl ⟨_, _, _, split, distinct, known, rfl⟩
    | join distinct split clean fault =>
        exact Or.inr ⟨distinct, Or.inl ⟨_, _, _, split, clean, fault⟩⟩
    | column distinct joined split known unknown =>
        refine Or.inr ⟨distinct, Or.inr ⟨joined, Or.inl ⟨_, _, _, split, ?_, unknown, rfl⟩⟩⟩
        rintro b member e' ⟨other, _⟩
        exact other (known b member)
    | schema distinct joined known plain hidden failed =>
        refine Or.inr ⟨distinct, Or.inr ⟨joined, Or.inr ⟨?_, plain, hidden, _, failed, rfl⟩⟩⟩
        rintro c member e' ⟨other, _⟩
        exact other (known c member)

/-- An insert or update fails without columns, and else with the first column that has a list. -/
theorem writtenValues_fails (what : String) :
    FailsWith (q.writtenValues what) fun e => q.columns = [] ∧ e = .noColumns what ∨
      First (fun c e => (∃ items, c.value = some (.list items)) ∧ e = .invalidValue c.name)
        q.columns e := by
  unfold writtenValues
  cases given : q.columns with
  | nil => exact (FailsWith.error _).congr fun e => by simp [First.nil_iff]
  | cons c rest =>
      have values := FailsWith.mapM ColumnRef.assigned_fails (c :: rest)
      exact values.congr fun e => by simp

theorem fault_iff_of_writes (writes : q.writesColumns) (e : CompileError) :
    q.Fault schema e ↔ q.columns = [] ∧ e = .noColumns q.operation.name ∨
      First (fun c e => (∃ items, c.value = some (.list items)) ∧ e = .invalidValue c.name)
        q.columns e := by
  constructor
  · intro fault
    cases fault with
    | select selects _ =>
        rw [writesColumns, selects] at writes
        simp at writes
    | noColumns _ empty => exact Or.inl ⟨empty, rfl⟩
    | value _ split clean given =>
        refine Or.inr ⟨_, _, _, split, ?_, ⟨_, given⟩, rfl⟩
        rintro b member e' ⟨⟨items, list⟩, _⟩
        exact clean b member items list
  · rintro (⟨empty, rfl⟩ | ⟨before, c, after, split, clean, ⟨items, given⟩, rfl⟩)
    · exact Fault.noColumns writes empty
    · refine Fault.value writes split ?_ given
      intro b member items' list
      exact clean b member _ ⟨⟨items', list⟩, rfl⟩

theorem statement_fails : FailsWith (q.statement schema) (q.Fault schema) := by
  unfold statement
  cases kind : q.operation with
  | select =>
      refine ((q.compileSelect_fails schema).map _).congr fun e => ?_
      constructor
      · exact Fault.select kind
      · intro fault
        cases fault with
        | select _ fault => exact fault
        | noColumns writes _ | value writes _ _ _ =>
            rw [writesColumns, kind] at writes
            simp at writes
  | insert =>
      refine (((q.writtenValues_fails "insert").map _).map _).congr fun e => ?_
      rw [q.fault_iff_of_writes schema (Or.inl kind), kind]
      rfl
  | update =>
      refine (((q.writtenValues_fails "update").map _).map _).congr fun e => ?_
      rw [q.fault_iff_of_writes schema (Or.inr kind), kind]
      rfl
  | delete =>
      refine (FailsWith.ok _).congr fun e => ⟨False.elim, ?_⟩
      intro fault
      cases fault with
      | select selects _ =>
          rw [kind] at selects
          cases selects
      | noColumns writes _ | value writes _ _ _ =>
          rw [writesColumns, kind] at writes
          simp at writes

/-- A select compiles when each of its stages does, and its rules are those of the query. -/
theorem exists_compiled (dialect : Sql.Dialect) (schema : SchemaLookup) (q : Query)
    (selects : q.operation = .select) (single : q.table.checkAliases = .ok ())
    (joinable : q.table.joins.toOption.isSome = true)
    (known : q.checkedColumns.forM (·.checkTable q.table.aliases) = .ok ())
    {items : List Sql.SelectItem} (rooted : q.rootItems schema = .ok items) :
    ∃ c, q.compile dialect schema = .ok c ∧ c.rules = q.rules := by
  cases joined : q.table.joins with
  | error e =>
      rw [joined] at joinable
      cases joinable
  | ok joins =>
      have built : q.compileSelect schema = .ok (q.selectBlock joins items) := by
        simp only [compileSelect, single, joined, known, rooted, ok_bind]
        rfl
      refine ⟨⟨.select, dialect, .select (q.selectBlock joins items), q.rules⟩, ?_, rfl⟩
      rw [compile, statement, selects]
      simp only [built, map_ok, ok_bind]
      rfl

/-- Compiling ends with an error exactly when that error is the fault of the query, which has one
fault at most, and gives a compiled query exactly when it has none. -/
theorem compile_outcome (dialect : Sql.Dialect) (schema : SchemaLookup) (q : Query) :
    (∀ e, q.compile dialect schema = .error e ↔ q.Fault schema e) ∧
      ((∃ c, q.compile dialect schema = .ok c) ↔ ∀ e, ¬ q.Fault schema e) ∧
      ∀ e e', q.Fault schema e → q.Fault schema e' → e = e' := by
  have fails : FailsWith (q.compile dialect schema) (q.Fault schema) :=
    (q.statement_fails schema).map _
  exact ⟨fails, fails.ok_iff, fun _ _ => fails.unique⟩

/-- A table without a join rule, next to a column of a table that is not in the tree. -/
def strayColumn : Query where
  operation := .select
  table := { key := ⟨"a", 0⟩, next := [{ key := ⟨"b", 0⟩ }] }
  columns := [.of ⟨"c", 0⟩ "x"]

theorem compile_outcome_strayColumn :
    strayColumn.compile .sqlite (Catalog.table []) = .error (.missingJoinRule "b") ∧
      ∀ e, strayColumn.Fault (Catalog.table []) e → e = .missingJoinRule "b" := by
  have distinct : strayColumn.table.aliases.Nodup := by
    simp [strayColumn, TableNode.aliases, TableNode.aliasesList, TableKey.label]
  have below : strayColumn.table.descendants = [] ++ { key := ⟨"b", 0⟩ } :: [] := by
    simp [strayColumn, TableNode.descendants, TableNode.descendantsList]
  have fault : strayColumn.Fault (Catalog.table []) (.missingJoinRule "b") :=
    Fault.select rfl (SelectFault.join distinct below (by simp) (TableNode.JoinFault.noRule rfl))
  have outcome := compile_outcome .sqlite (Catalog.table []) strayColumn
  exact ⟨(outcome.1 _).mpr fault, fun e other => outcome.2.2 e _ other fault⟩

end Query

end QueryBoard
