import QueryBoard.Proofs.Compile.Values
import QueryBoard.Proofs.Wire.Query

/-!
# What a query does after it was written and read

A column that carries null explicitly is written with a null and read without a value.  Nothing that
compiling looks at changes with that but the conditions: a column without a value puts no condition,
while one with an explicit null compares with null.  So a query that is written and read does what
it did before exactly if it compiles to no comparison with an explicit null.
-/

set_option autoImplicit false

namespace QueryBoard

attribute [local simp] ok_bind pure_eq_ok map_ok

open Sql (Expr)

/-! ## Queries that the builders make -/

/-- A column made with the builders, its values having finite numbers. -/
inductive ColumnRef.Built : ColumnRef → Prop where
  | named (name : String) : Built (.named name)
  | of (key : TableKey) (name : String) : Built (.of key name)
  | withFunc {c : ColumnRef} (built : Built c) (f : Aggregate) : Built (c.withFunc f)
  | withMetaKey {c : ColumnRef} (built : Built c) (key : String) : Built (c.withMetaKey key)
  | withOrder {c : ColumnRef} (built : Built c) (order : String) : Built (c.withOrder order)
  | withValue {c : ColumnRef} (built : Built c) {v : Value} (finite : v.Finite) :
    Built (c.withValue v)
  | asPrimaryKey {c : ColumnRef} (built : Built c) : Built c.asPrimaryKey

inductive TableNode.Built : TableNode → Prop where
  | new (key : TableKey) : Built { key }
  | join {t child : TableNode} (built : Built t) (below : Built child) :
    Built { t with next := t.next ++ [child] }
  | withRule {t : TableNode} (built : Built t) {rule : JoinRule}
    (conditions : ∀ c ∈ rule.conditions, ∃ left op right, c = .of left op right) :
    Built { t with rule := some rule }

structure Query.Built (q : Query) : Prop where
  table : q.table.Built
  columns : ∀ c ∈ q.columns, c.Built
  filters : ∀ c ∈ q.filters, c.Built
  orderBy : ∀ c ∈ q.orderBy, c.Built

theorem ColumnRef.Built.payload_plain {c : ColumnRef} (built : c.Built) : c.payload.Plain := by
  have none : c.payload.extra = [] := by
    induction built with
    | named name => rfl
    | of key name => rfl
    | withFunc _ _ ih | withMetaKey _ _ ih | withOrder _ _ ih | withValue _ _ ih
    | asPrimaryKey _ ih => exact ih
  constructor <;> simp [none]

theorem ColumnRef.Built.finite {c : ColumnRef} (built : c.Built) : ∀ v ∈ c.value, v.Finite := by
  induction built with
  | named name => intro v given; cases given
  | of key name => intro v given; cases given
  | withValue _ finite _ =>
      intro v given
      cases given
      exact finite
  | withFunc _ _ ih | withMetaKey _ _ ih | withOrder _ _ ih | asPrimaryKey _ ih => exact ih

theorem TableNode.Built.plain {t : TableNode} (built : t.Built) : t.Plain := by
  induction built with
  | new key => exact ⟨trivial, by simp⟩
  | @join t child _ _ ih below =>
      obtain ⟨key, next, rule⟩ := t
      rw [Plain, plainList_iff] at ih ⊢
      refine ⟨?_, ih.2⟩
      intro u member
      rcases List.mem_append.mp member with member | member
      · exact ih.1 u member
      · rw [List.mem_singleton.mp member]
        exact below
  | @withRule t _ rule conditions ih =>
      obtain ⟨key, next, _⟩ := t
      rw [Plain] at ih ⊢
      refine ⟨ih.1, ?_⟩
      intro r given c member
      cases given
      obtain ⟨left, op, right, rfl⟩ := conditions c member
      have named (name : String) : (ColumnRef.named name).Plain :=
        ⟨(ColumnRef.Built.named name).payload_plain, fun v given => by cases given⟩
      exact ⟨named left, named right⟩

/-! ## What is left of them -/

/-- The column without an explicit null. -/
def ColumnRef.written (c : ColumnRef) : ColumnRef :=
  { c with value := c.value.filter (· ≠ .null) }

def Query.written (q : Query) : Query :=
  { q with
    columns := q.columns.map ColumnRef.written
    filters := q.filters.map ColumnRef.written
    orderBy := q.orderBy.map ColumnRef.written }

namespace ColumnRef

theorem written_eq_self {c : ColumnRef} (some_ : c.value ≠ some .null) : c.written = c := by
  obtain ⟨column, tableKey, func, payload, value⟩ := c
  cases value with
  | none => rfl
  | some v =>
      have other : v ≠ .null := fun same => some_ (congrArg some same)
      simp [written, other]

theorem written_of_null {c : ColumnRef} (null : c.value = some .null) :
    c.written = { c with value := none } := by
  simp [written, null]

theorem ofDocument_written {c : ColumnRef} (built : c.Built) :
    ofDocument c.toJson.document = .ok c.written := by
  by_cases null : c.value = some .null
  · have payload := Payload.ofDocument_toJson built.payload_plain
    have value : Document.toOption Value.ofDocument (Value.toJson .null).document = .ok none := rfl
    rw [written_of_null null]
    cases func : c.func <;> simp [toJson, Column.toFields, ofDocument, Slots.read,
      Column.ofEntries, Column.Slots.read, Column.Slots.finish, payload, null, value, func]
  · rw [written_eq_self null]
    refine ofDocument_toJson ⟨built.payload_plain, fun v given => ⟨built.finite v given, ?_⟩⟩
    rintro rfl
    exact null given

end ColumnRef

theorem Query.ofDocument_written {q : Query} (built : q.Built) :
    ofDocument q.toJson.document = .ok q.written := by
  have table := TableNode.ofDocument_toJson q.table built.table.plain
  have list {cs : List ColumnRef} (each : ∀ c ∈ cs, c.Built) :
      Document.toList ColumnRef.ofDocument (Json.arr (cs.map ColumnRef.toJson)).document =
        .ok (cs.map ColumnRef.written) :=
    Json.toList_arr_map fun c member => ColumnRef.ofDocument_written (each c member)
  simp [toJson, ofDocument, Slots.read, Slots.finish, table, list built.columns,
    list built.filters, list built.orderBy, written]

/-! ## What compiling makes of them -/

namespace ColumnRef

/-- An explicit null is assigned as no value is. -/
theorem assigned_written (c : ColumnRef) : c.written.assigned = c.assigned := by
  by_cases null : c.value = some .null
  · rw [written_of_null null, assigned, assigned, null]
  · rw [written_eq_self null]

theorem condition?_isSome (c : ColumnRef) (target : Expr) : (c.condition? target).isSome = c.value.isSome := by
  obtain ⟨column, tableKey, func, payload, value⟩ := c
  cases value with
  | none => rfl
  | some v => cases v <;> rfl

end ColumnRef

/-- All conditions of a statement that has conditions are in its text. -/
theorem Sql.Statement.length_eq_of_normal_eq {s : Statement} {filters others : List Expr}
    (kind : s.operation ≠ .insert)
    (same : (s.withFilters filters).normal = (s.withFilters others).normal) :
    filters.length = others.length := by
  have mapped : filters.map Expr.normal = others.map Expr.normal := by
    cases s with
    | insert i => exact absurd rfl kind
    | select s =>
        injection same with same
        exact congrArg Select.filters same
    | update u =>
        injection same with same
        exact congrArg Update.filters same
    | delete d =>
        injection same with same
        exact congrArg Delete.filters same
  simpa using congrArg List.length mapped

namespace Query

/-- What a query that was written compiles to differs in its conditions only, and it fails as the
query did. -/
theorem statement_written (schema : SchemaLookup) (q : Query) :
    q.written.statement schema =
      (·.withFilters q.written.conditions) <$> q.statement schema := by
  have written : q.written = q.revalue (·.filter (· ≠ .null)) := rfl
  have assigned (c : ColumnRef) : (c.revalue (·.filter (· ≠ .null))).assigned = id <$> c.assigned := by
    rw [id_map]
    exact c.assigned_written
  have rest (s : Sql.Statement) : s.mapAssigned id = s := by
    cases s <;> simp [Sql.Statement.mapAssigned]
  simp only [written, q.statement_revalue assigned, rest]

/-! ## What it does then -/

/-- What is seen of compiling a query: why it fails, or text, parameters and rules. -/
def outcome (dialect : Sql.Dialect) (schema : SchemaLookup) (q : Query) :
    Compiling (String × List Value × Rules) :=
  (fun c => (c.text, c.params, c.rules)) <$> q.compile dialect schema

/-- Every explicit null is a condition less. -/
theorem length_conditions_written (q : Query) :
    q.conditions.length =
      q.written.conditions.length + q.filters.countP (·.value = some .null) := by
  have counted (q' : Query) : q'.conditions.length = q'.filters.countP (·.value.isSome) := by
    simp only [conditions, List.length_filterMap_eq_countP, ColumnRef.condition?_isSome]
  rw [counted, counted, written, List.countP_map]
  induction q.filters with
  | nil => rfl
  | cons c rest ih =>
      by_cases null : c.value = some .null
      · simp [ih, null, ColumnRef.written_of_null null]
        omega
      · simp [List.countP_cons, ih, null, ColumnRef.written_eq_self null]
        omega

theorem written_conditions_eq {q : Query} (noNull : ∀ c ∈ q.filters, c.value ≠ some .null) :
    q.written.conditions = q.conditions := by
  have filters : q.written.filters = q.filters := by
    rw [written, List.map_congr_left fun c member => ColumnRef.written_eq_self (noNull c member)]
    exact List.map_id _
  rw [conditions, filters]
  rfl

theorem outcome_of_statement {d : Sql.Dialect} {schema : SchemaLookup} {q : Query}
    (same : q.written.statement schema = q.statement schema) :
    q.written.outcome d schema = q.outcome d schema := by
  have rules : q.written.rules = q.rules := q.rules_revalue _
  rw [outcome, outcome, compile, compile, same, rules]
  rfl

/-- The text and the parameters show all conditions, so none is missing if they are the same. -/
theorem noNull_of_outcome {d : Sql.Dialect} {schema : SchemaLookup} {q : Query}
    {s : Sql.Statement} (built : q.statement schema = .ok s) (kind : q.operation ≠ .insert)
    (same : q.written.outcome d schema = q.outcome d schema) :
    ∀ c ∈ q.filters, c.value ≠ some .null := by
  have built' : q.written.statement schema = .ok (s.withFilters q.written.conditions) := by
    rw [statement_written, built]
    rfl
  have whole : s.withFilters q.conditions = s := by
    have all := statement_withFilters schema q
    rw [built] at all
    exact Except.ok.inj all
  have compiled := compile_of_statement d built
  have compiled' := compile_of_statement d built'
  have normal : (s.withFilters q.written.conditions).normal =
      (s.withFilters q.conditions).normal := by
    rw [outcome, outcome, compiled, compiled'] at same
    obtain ⟨text, params, _⟩ := by simpa only [map_ok, Except.ok.injEq, Prod.mk.injEq] using same
    have read := (recover_compile compiled).1
    have read' := (recover_compile compiled').1
    rw [text, params, read] at read'
    rw [whole]
    exact (Option.some.inj read').symm
  have long : q.written.conditions.length = q.conditions.length := by
    refine Sql.Statement.length_eq_of_normal_eq ?_ normal
    rw [operation_statement built]
    exact kind
  have none : q.filters.countP (·.value = some .null) = 0 := by
    have counted := q.length_conditions_written
    omega
  simpa [List.countP_eq_zero] using none

theorem outcome_written_eq_iff (d : Sql.Dialect) (schema : SchemaLookup) (q : Query) :
    q.written.outcome d schema = q.outcome d schema ↔
      (∀ c ∈ q.filters, c.value ≠ some .null) ∨ q.operation = .insert ∨
        ∃ e, q.compile d schema = .error e := by
  constructor
  · intro same
    by_cases kind : q.operation = .insert
    · exact .inr (.inl kind)
    cases built : q.statement schema with
    | error e => exact .inr (.inr ⟨e, by rw [compile, built]; rfl⟩)
    | ok s => exact .inl (noNull_of_outcome built kind same)
  · rintro (noNull | kind | ⟨e, failed⟩)
    · refine outcome_of_statement ?_
      rw [statement_written, written_conditions_eq noNull, statement_withFilters]
    · refine outcome_of_statement ?_
      rw [statement_written, statement, kind, Functor.map_map]
      rfl
    · refine outcome_of_statement ?_
      cases built : q.statement schema with
      | error e => rw [statement_written, built]; rfl
      | ok s =>
          rw [compile, built] at failed
          cases failed

/-- A query made with the builders can be read after it was written.  It does the same then if and
only if no condition of it compares with an explicit null, or conditions do not matter to it: it
inserts, or it does not compile. -/
theorem readBack_outcome {q : Query} (built : q.Built) :
    ∃ q', q.toJson.decode ofDocument = .ok q' ∧
      ∀ (dialect : Sql.Dialect) (schema : SchemaLookup),
        q'.outcome dialect schema = q.outcome dialect schema ↔
          (∀ c ∈ q.filters, c.value ≠ some .null) ∨ q.operation = .insert ∨
            ∃ e, q.compile dialect schema = .error e :=
  ⟨q.written, ofDocument_written built, fun d schema => outcome_written_eq_iff d schema q⟩

end Query

/-- Sets a column to null where another one has a value. -/
def clearNote (v : Value) : Query where
  operation := .update
  table := { key := ⟨"t", 0⟩ }
  columns := [(ColumnRef.named "note").withValue .null]
  filters := [(ColumnRef.named "x").withValue v]

theorem Query.readBack_outcome_clearNote :
    (clearNote (.int 5)).Built ∧
      ∃ q, (clearNote (.int 5)).toJson.decode Query.ofDocument = .ok q ∧
        q.outcome .sqlite (Catalog.table []) =
          (clearNote (.int 5)).outcome .sqlite (Catalog.table []) := by
  have note : (ColumnRef.named "note").Built := .named "note"
  have built : (clearNote (.int 5)).Built := {
    table := .new _
    columns := by simpa [clearNote] using note.withValue (v := .null) trivial
    filters := by simpa [clearNote] using .withValue (.named "x") trivial
    orderBy := by simp [clearNote] }
  obtain ⟨q, read, alike⟩ := Query.readBack_outcome built
  refine ⟨built, q, read, (alike .sqlite (Catalog.table [])).mpr (.inl ?_)⟩
  simp [clearNote, ColumnRef.withValue]

/-- Deletes the rows where a column has a value. -/
def deleteWhere (v : Value) : Query where
  operation := .delete
  table := { key := ⟨"t", 0⟩ }
  filters := [(ColumnRef.named "x").withValue v]

/-- A deletion that deletes nothing deletes every row after it was written and read. -/
theorem Query.deleteWhere_null_forgets :
    (deleteWhere .null).Built ∧
      (deleteWhere .null).outcome .sqlite (Catalog.table []) =
        .ok ("DELETE FROM \"t\" WHERE \"x\" = ?", [.null], []) ∧
      ∃ q, (deleteWhere .null).toJson.decode Query.ofDocument = .ok q ∧
        q.outcome .sqlite (Catalog.table []) = .ok ("DELETE FROM \"t\"", [], []) := by
  have built : (deleteWhere .null).Built := {
    table := .new _
    columns := by simp [deleteWhere]
    filters := by simpa [deleteWhere] using .withValue (.named "x") trivial
    orderBy := by simp [deleteWhere] }
  refine ⟨built, ?_, _, Query.ofDocument_written built, ?_⟩
  · decide +kernel
  · decide +kernel

end QueryBoard
