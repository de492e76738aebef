import QueryBoard.Proofs.Compile.Projection

/-!
# What compiling asks of a schema

Compiling asks a schema for one thing: the name of the first primary key column of the root table.
Writes, selects that group rows and selects that show a column marked as that key do not ask at all,
and a query with a fault of its own fails before it could.  Every other query compiles alike under
two schemas exactly when both say the same of that one column, whatever else they hold.
-/

set_option autoImplicit false

namespace QueryBoard

/-- Whether two schemas say the same of the primary key of a table: both have the table, with a
column of the same name as the first of its key or with no key at all, or both fail with the same
error. -/
inductive SameKey (schema schema' : SchemaLookup) (table : String) : Prop where
  | found {t t' : Table} : schema table = .ok t → schema' table = .ok t' →
      t.primaryKey?.map (·.name) = t'.primaryKey?.map (·.name) → SameKey schema schema' table
  | failed {e : SchemaError} : schema table = .error e → schema' table = .error e →
      SameKey schema schema' table

namespace Query

/-- Whether a query does without the schema. -/
inductive Settled (q : Query) : Prop where
  | writes : q.operation ≠ .select → Settled q
  | groups {c : ColumnRef} : c ∈ q.columns → c.func ≠ none → Settled q
  | shows {c : ColumnRef} : c ∈ q.columns → c.func = none → q.MarksRootKey c → Settled q

/-- What is looked at before the schema is asked: the joins of the tree, unless a table or a column
is at fault. -/
def checkedJoins (q : Query) : Compiling (List Sql.Join) := do
  q.table.checkAliases
  let joins ← q.table.joins
  q.checkedColumns.forM (·.checkTable q.table.aliases)
  return joins

variable {q : Query} {schema schema' : SchemaLookup}

/-! ## The key of the root table -/

theorem rootKey?_of_marked {c : ColumnRef} (member : c ∈ q.columns) (plain : c.func = none)
    (marks : q.MarksRootKey c) : q.rootKey? schema = q.rootKey? schema' := by
  unfold rootKey?
  cases shown : q.columns.find? fun c =>
      c.func.isNone && c.column.primaryKey && c.label == q.table.label with
  | some c => rfl
  | none => exact absurd ((marksRootKey_iff plain).mpr marks) (List.find?_eq_none.mp shown c member)

/-- A query that neither groups nor shows the key gets it from the schema. -/
theorem rootKey?_of_not_settled (asks : ¬ q.Settled) (schema : SchemaLookup) :
    q.rootKey? schema =
      ((schema q.table.key.name).map fun t => t.primaryKey?.map (·.name)).mapError .schema := by
  have hidden : q.columns.find? (fun c =>
      c.func.isNone && c.column.primaryKey && c.label == q.table.label) = none := by
    refine List.find?_eq_none.mpr fun c member marked => ?_
    by_cases plain : c.func = none
    · exact asks (.shows member plain ((marksRootKey_iff plain).mp marked))
    · exact asks (.groups member plain)
  unfold rootKey?
  simp only [hidden]
  cases schema q.table.key.name <;> rfl

theorem rootKey?_congr (same : SameKey schema schema' q.table.key.name) :
    q.rootKey? schema = q.rootKey? schema' := by
  unfold rootKey?
  cases same with
  | found known known' key => simp only [known, known', key]
  | failed missing missing' => simp only [missing, missing']

theorem sameKey_of_rootKey? (asks : ¬ q.Settled) (same : q.rootKey? schema = q.rootKey? schema') :
    SameKey schema schema' q.table.key.name := by
  rw [rootKey?_of_not_settled asks, rootKey?_of_not_settled asks] at same
  cases known : schema q.table.key.name with
  | ok t =>
      cases known' : schema' q.table.key.name with
      | ok t' =>
          rw [known, known'] at same
          exact .found known known' (Except.ok.inj same)
      | error e' =>
          rw [known, known'] at same
          cases same
  | error e =>
      cases known' : schema' q.table.key.name with
      | ok t' =>
          rw [known, known'] at same
          cases same
      | error e' =>
          rw [known, known'] at same
          cases same
          exact .failed known known'

theorem rootItems_of_settled (selects : q.operation = .select) (settled : q.Settled) :
    q.rootItems schema = q.rootItems schema' := by
  cases settled with
  | writes writes => exact absurd selects writes
  | groups member func =>
      have aggregate := q.hasAggregate_iff.mpr ⟨_, member, func⟩
      rw [rootItems, rootItems, if_pos aggregate, if_pos aggregate]
  | shows member plain marks =>
      rw [rootItems, rootItems, rootKey?_of_marked member plain marks]

/-- The item for a key, or for none, shows which key it is. -/
theorem rootItem_injective (q : Query) :
    Function.Injective fun key : Option String => key.toList.map q.rootItem := by
  have named : Function.Injective q.rootItem := by
    intro name name' same
    simpa [rootItem, Sql.Expr.tableCol] using same
  have listed : Function.LeftInverse List.head? (Option.toList (α := String)) :=
    fun _ => Option.head?_toList
  exact (List.map_injective_iff.mpr named).comp listed.injective

theorem rootKey?_of_rootItems (asks : ¬ q.Settled)
    (same : q.rootItems schema = q.rootItems schema') : q.rootKey? schema = q.rootKey? schema' := by
  have plain : ¬ q.hasAggregate = true := fun aggregate =>
    have ⟨_, member, func⟩ := q.hasAggregate_iff.mp aggregate
    asks (.groups member func)
  rw [rootItems, rootItems, if_neg plain, if_neg plain] at same
  exact eq_of_map_eq q.rootItem_injective same

/-! ## Whole queries -/

theorem compileSelect_eq (schema : SchemaLookup) (q : Query) :
    q.compileSelect schema =
      q.checkedJoins >>= fun joins => q.selectBlock joins <$> q.rootItems schema := by
  rw [compileSelect, checkedJoins]
  cases q.table.checkAliases with
  | error e => rfl
  | ok _ =>
      cases q.table.joins with
      | error e => rfl
      | ok joins =>
          cases q.checkedColumns.forM (·.checkTable q.table.aliases) <;> rfl

theorem compile_congr (dialect : Sql.Dialect)
    (same : q.operation = .select → q.rootItems schema = q.rootItems schema') :
    q.compile dialect schema = q.compile dialect schema' := by
  rw [compile, compile, statement, statement]
  cases kind : q.operation with
  | select => simp only [compileSelect_eq, same kind]
  | insert | update | delete => rfl

/-- A select without a fault of its own shows the items for the key behind all others. -/
theorem rootItems_of_compile {dialect : Sql.Dialect} (selects : q.operation = .select)
    {joins : List Sql.Join} (checked : q.checkedJoins = .ok joins)
    (same : q.compile dialect schema = q.compile dialect schema') :
    q.rootItems schema = q.rootItems schema' := by
  have compiled (schema : SchemaLookup) : q.compile dialect schema =
      (fun items => (⟨q.operation, dialect, .select (q.selectBlock joins items), q.rules⟩ :
        Compiled)) <$> q.rootItems schema := by
    rw [compile, statement, selects]
    simp only [compileSelect_eq, checked, ok_bind]
    cases q.rootItems schema <;> rfl
  rw [compiled, compiled] at same
  refine eq_of_map_eq (fun items items' equal => ?_) same
  have blocks := Sql.Statement.select.inj (congrArg Compiled.statement equal)
  exact List.append_cancel_left (congrArg Sql.Select.items blocks)

/-- A query compiles to the same statement and rules under two schemas, or fails with the same
error, if it does without the schema or both say the same of the primary key of its root table.
Otherwise it does so only where it fails with one and the same error under every schema. -/
theorem compile_eq_iff (dialect : Sql.Dialect) (schema schema' : SchemaLookup) (q : Query) :
    q.compile dialect schema = q.compile dialect schema' ↔
      q.Settled ∨ SameKey schema schema' q.table.key.name ∨
        ∃ e, ∀ known, q.compile dialect known = .error e := by
  constructor
  · intro same
    by_cases asks : q.Settled
    · exact .inl asks
    · have selects : q.operation = .select := by
        by_contra writes
        exact asks (.writes writes)
      cases checked : q.checkedJoins with
      | error e =>
          refine .inr (.inr ⟨e, fun known => ?_⟩)
          rw [compile, statement, selects]
          simp only [compileSelect_eq, checked]
          rfl
      | ok joins =>
          have items := rootItems_of_compile selects checked same
          exact .inr (.inl (sameKey_of_rootKey? asks (rootKey?_of_rootItems asks items)))
  · rintro (settled | same | ⟨e, fails⟩)
    · exact compile_congr dialect fun selects => rootItems_of_settled selects settled
    · refine compile_congr dialect fun _ => ?_
      rw [rootItems, rootItems, rootKey?_congr same]
    · rw [fails, fails]

/-- Orders with the same first key column as in `orderCatalog`, and people, of whom that catalog
knows nothing. -/
def ledgerCatalog : Catalog :=
  [{ name := "people", columns := [{ name := "id", primaryKey := true }] },
    { name := "orders", columns := [{ name := "number", type := .number, primaryKey := true }] }]

/-- A select that shows the key of orders itself. -/
def numberedOrders : Query where
  operation := .select
  table := { key := ⟨"orders", 0⟩ }
  columns := [(ColumnRef.of ⟨"orders", 0⟩ "line").asPrimaryKey]

/-- Two catalogs that share nothing but the key of the root table serve as well as each other, an
empty one does not; a query that shows the key compiles alike even where both look-ups fail. -/
theorem compile_eq_iff_orderList :
    orderList.compile .sqlite orderCatalog.table = orderList.compile .sqlite ledgerCatalog.table ∧
      orderList.compile .sqlite orderCatalog.table ≠
        orderList.compile .sqlite (Catalog.table []) ∧
      numberedOrders.compile .postgres (Catalog.table []) =
        numberedOrders.compile .postgres (fun _ => .error (.unreadable "disk I/O error")) := by
  have known : orderCatalog.table "orders" = .ok (orderCatalog.headD ⟨"", []⟩) := by decide
  have unknown : Catalog.table [] "orders" = .error (.tableNotFound "orders") := rfl
  refine ⟨(compile_eq_iff ..).mpr (.inr (.inl (.found known rfl rfl))), fun same => ?_,
    (compile_eq_iff ..).mpr (.inl (.shows List.mem_cons_self rfl ⟨rfl, rfl⟩))⟩
  rcases (compile_eq_iff ..).mp same with settled | same | ⟨e, fails⟩
  · have plain : ∀ c ∈ orderList.columns, c.func = none := by decide
    have unmarked : ∀ c ∈ orderList.columns, ¬ orderList.MarksRootKey c := by
      unfold MarksRootKey
      decide
    cases settled with
    | writes writes => exact writes rfl
    | groups member func => exact func (plain _ member)
    | shows member _ marks => exact unmarked _ member marks
  · cases same with
    | found _ known' _ =>
        cases unknown.symm.trans known'
    | failed missing _ =>
        cases known.symm.trans missing
  · obtain ⟨c, compiled, _⟩ := orderList_compiles
    rw [fails] at compiled
    cases compiled

end Query

end QueryBoard
