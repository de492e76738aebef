import QueryBoard.Proofs.Compile.Outcome
import QueryBoard.Proofs.Compile.Values
import QueryBoard.Proofs.Execution.Total
import QueryBoard.Query.Wire

/-!
# Which parameters can be bound

A parameter is bound to one cell, so a list has no place among them.  Lists that are given to
columns are refused when a query is compiled.  A list that a condition compares with is taken apart
into its elements, but these are not looked at: a list in it becomes a parameter, and the statement
fails when it is run.
-/

set_option autoImplicit false

namespace QueryBoard

open Db (Cell DbError)

theorem Db.Cell.exists_ofValue?_iff {v : Value} : (∃ c, Cell.ofValue? v = some c) ↔ ¬ v.isList := by
  cases v <;> simp [Cell.ofValue?, Value.isList]

theorem Db.checkParams_fails (params : List Value) : FailsWith (checkParams params) fun e =>
    (∃ v ∈ params, v.isList = true) ∧ e = .unboundList := by
  unfold checkParams
  by_cases some : params.any Value.isList = true
  · rw [if_pos some]
    exact (FailsWith.error _).congr fun e => by simp [List.any_eq_true.mp some]
  · rw [if_neg some]
    refine (FailsWith.ok _).congr fun e => ⟨False.elim, fun ⟨list, _⟩ => ?_⟩
    exact some (List.any_eq_true.mpr list)

/-! ## What is run -/

theorem Sql.Statement.params_withTotal (s : Sql.Statement) : s.withTotal.params = s.params := by
  cases s with
  | select s => exact s.params_withTotal
  | insert i => rfl
  | update u => rfl
  | delete d => rfl

namespace Db.Database

variable {db : Database} {result : Database × Nat}

theorem insert_bound {s : Sql.Insert} (success : db.insert s = .ok result) :
    checkParams (Sql.Tokens.params s.tokens) = .ok () := by
  obtain ⟨_, _text, success⟩ := bind_eq_ok_iff.mp success
  obtain ⟨_, _table, success⟩ := bind_eq_ok_iff.mp success
  obtain ⟨_, _targets, success⟩ := bind_eq_ok_iff.mp success
  obtain ⟨_, _rows, success⟩ := bind_eq_ok_iff.mp success
  obtain ⟨_, bound, _⟩ := bind_eq_ok_iff.mp success
  exact bound

theorem update_bound {s : Sql.Update} (success : db.update s = .ok result) :
    checkParams (Sql.Tokens.params s.tokens) = .ok () := by
  obtain ⟨_, _count, success⟩ := bind_eq_ok_iff.mp success
  obtain ⟨_, _text, success⟩ := bind_eq_ok_iff.mp success
  obtain ⟨_, _table, success⟩ := bind_eq_ok_iff.mp success
  obtain ⟨_, _given, success⟩ := bind_eq_ok_iff.mp success
  obtain ⟨_, _filters, success⟩ := bind_eq_ok_iff.mp success
  obtain ⟨_, bound, _⟩ := bind_eq_ok_iff.mp success
  exact bound

theorem delete_bound {s : Sql.Delete} (success : db.delete s = .ok result) :
    checkParams (Sql.Tokens.params s.tokens) = .ok () := by
  obtain ⟨_, _text, success⟩ := bind_eq_ok_iff.mp success
  obtain ⟨_, _table, success⟩ := bind_eq_ok_iff.mp success
  obtain ⟨_, _filters, success⟩ := bind_eq_ok_iff.mp success
  obtain ⟨_, bound, _⟩ := bind_eq_ok_iff.mp success
  exact bound

end Db.Database

/-- No statement runs to its end without binding its parameters. -/
theorem checkParams_of_run {rules : Rules} {db : Db.Database} {s : Sql.Statement}
    {result : Option SelectData × Db.Database} (success : runStatement rules db s = .ok result) :
    Db.checkParams s.params = .ok () := by
  cases s with
  | select s =>
      obtain ⟨r, selected, _⟩ := bind_eq_ok_iff.mp success
      obtain ⟨_, _, selects, _⟩ := Db.select_eq_ok_iff.mp selected
      exact selects.bound
  | insert i =>
      obtain ⟨_, inserted, _⟩ := bind_eq_ok_iff.mp success
      exact Db.Database.insert_bound inserted
  | update u =>
      obtain ⟨_, updated, _⟩ := bind_eq_ok_iff.mp success
      exact Db.Database.update_bound updated
  | delete d =>
      obtain ⟨_, deleted, _⟩ := bind_eq_ok_iff.mp success
      exact Db.Database.delete_bound deleted

/-! ## What is compiled -/

namespace ColumnRef

/-- The column is compared with a list that has a list in it. -/
def NestsList (c : ColumnRef) : Prop :=
  ∃ items, c.value = some (.list items) ∧ ∃ v ∈ items, v.isList = true

theorem nestsList_iff {c : ColumnRef} : c.NestsList ↔ ∃ v ∈ c.compared, v.isList = true := by
  unfold NestsList compared
  cases given : c.value with
  | none => simp
  | some v => cases v <;> simp [Value.isList]

end ColumnRef

namespace Query

/-- A condition that counts is on a list with a list in it.  Conditions of an insert do not. -/
def NestsList (q : Query) : Prop := q.operation ≠ .insert ∧ ∃ f ∈ q.filters, f.NestsList

/-- No value that a compiled query gives to a column is a list. -/
theorem scalar_of_writes {schema : SchemaLookup} {q : Query} {s : Sql.Statement}
    (built : q.statement schema = .ok s) (writes : q.writesColumns) :
    ∀ c ∈ q.columns, (c.value.getD .null).isList = false := by
  have clean := (q.statement_fails schema).ok_iff.mp ⟨s, built⟩
  have scalar : ∀ e, ¬ First (fun c e => (∃ items, c.value = some (.list items)) ∧
      e = CompileError.invalidValue c.name) q.columns e :=
    fun e fault => clean e ((q.fault_iff_of_writes schema writes e).mpr (Or.inr fault))
  intro c member
  cases given : c.value with
  | none => rfl
  | some v =>
      cases v with
      | list items => exact absurd ⟨⟨items, given⟩, rfl⟩ (none_first_iff.mp scalar c member _)
      | _ => rfl

/-- A list is among the parameters just if a condition has one in its list. -/
theorem list_mem_params_iff {dialect : Sql.Dialect} {schema : SchemaLookup} {q : Query} {c : Compiled}
    (success : q.compile dialect schema = .ok c) :
    (∃ v ∈ c.params, v.isList = true) ↔ q.NestsList := by
  obtain ⟨s, built, same⟩ := bind_eq_ok_iff.mp success
  cases same
  have conditions : (∃ v ∈ q.filters.flatMap ColumnRef.compared, v.isList = true) ↔
      ∃ f ∈ q.filters, f.NestsList := by
    simp only [List.mem_flatMap, ColumnRef.nestsList_iff]
    constructor
    · rintro ⟨v, ⟨f, member, inside⟩, list⟩
      exact ⟨f, member, v, inside, list⟩
    · rintro ⟨f, member, v, inside, list⟩
      exact ⟨v, ⟨f, member, inside⟩, list⟩
  have columns (writes : q.writesColumns) :
      ¬ ∃ v ∈ q.columns.map fun c => c.value.getD .null, v.isList = true := by
    rintro ⟨v, member, list⟩
    obtain ⟨c, inside, rfl⟩ := List.mem_map.mp member
    rw [scalar_of_writes built writes c inside] at list
    cases list
  change (∃ v ∈ s.params, v.isList = true) ↔ _
  rw [params_statement built, bound, NestsList]
  cases kind : q.operation with
  | select => simpa using conditions
  | insert => simpa using columns (Or.inl kind)
  | update =>
      have none := columns (Or.inr kind)
      simp only [List.mem_append, or_and_right, exists_or, none, false_or, conditions]
      simp
  | delete => simpa using conditions

/-- A query is refused for a value when it gives a list to a column, with the first such column. -/
theorem compile_eq_invalidValue_iff {dialect : Sql.Dialect} {schema : SchemaLookup} {q : Query}
    {name : String} : q.compile dialect schema = .error (.invalidValue name) ↔ q.writesColumns ∧
      First (fun c e => (∃ items, c.value = some (.list items)) ∧
        e = CompileError.invalidValue c.name) q.columns (.invalidValue name) := by
  have fails : FailsWith (q.compile dialect schema) (q.Fault schema) :=
    (q.statement_fails schema).map _
  rw [fails]
  constructor
  · intro fault
    have writes : q.writesColumns := by
      cases fault with
      | select _ fault => cases fault with | join _ _ _ fault => cases fault
      | value writes _ _ _ => exact writes
    exact ⟨writes, ((q.fault_iff_of_writes schema writes _).mp fault).resolve_left (by simp)⟩
  · rintro ⟨writes, first⟩
    exact (q.fault_iff_of_writes schema writes _).mpr (Or.inr first)

theorem fails_of_nestsList {q : Query} (nests : q.NestsList) (storage : Storage) :
    (∃ e, (storage.execute q).1.result = .error e) ∧ (storage.execute q).2 = storage := by
  have goes := storage.goes_execute q
  generalize storage.execute q = r at goes ⊢
  cases goes with
  | refused _ | failed _ _ => exact ⟨⟨_, rfl⟩, rfl⟩
  | @ran c _ _ _ compiled _ runs =>
      have bound := checkParams_of_run runs
      rw [Sql.Statement.params_withTotal] at bound
      have list := (list_mem_params_iff compiled).mpr nests
      rw [(Db.checkParams_fails c.statement.params _).mpr ⟨list, rfl⟩] at bound
      cases bound

/-- Every parameter of a compiled query can be bound, unless a condition is on a list with a list in
it, and then the query never runs.  Other lists are refused before, in the values that are given to
columns. -/
theorem params_bindable (dialect : Sql.Dialect) (schema : SchemaLookup) (q : Query) :
    (∀ c, q.compile dialect schema = .ok c →
      ((∀ v ∈ c.params, ∃ cell, Cell.ofValue? v = some cell) ↔ ¬ q.NestsList) ∧
        ∀ e, Db.checkParams c.statement.withTotal.params = .error e ↔
          q.NestsList ∧ e = .unboundList) ∧
    (∀ name, q.compile dialect schema = .error (.invalidValue name) ↔ q.writesColumns ∧
      First (fun c e => (∃ items, c.value = some (.list items)) ∧
        e = CompileError.invalidValue c.name) q.columns (.invalidValue name)) ∧
    (q.NestsList → ∀ storage : Storage,
      (∃ e, (storage.execute q).1.result = .error e) ∧ (storage.execute q).2 = storage) := by
  refine ⟨fun c compiled => ⟨?_, fun e => ?_⟩, fun _ => compile_eq_invalidValue_iff,
    fails_of_nestsList⟩
  · rw [← list_mem_params_iff compiled]
    simp [Cell.exists_ofValue?_iff]
  · rw [Sql.Statement.params_withTotal, Db.checkParams_fails, ← list_mem_params_iff compiled]
    rfl

/-- Takes notes out of the log. -/
def deleteNotes (notes : List Value) : Query where
  operation := .delete
  table := { key := ⟨"log", 0⟩ }
  filters := [(ColumnRef.named "note").withValue (.list notes)]

theorem params_bindable_deleteNotes : ∃ c,
    (deleteNotes [.str "fed"]).compile .sqlite (Catalog.table []) = .ok c ∧
      ∀ v ∈ c.params, ∃ cell, Cell.ofValue? v = some cell := by
  have built : ∃ c, (deleteNotes [.str "fed"]).compile .sqlite (Catalog.table []) = .ok c :=
    ⟨_, rfl⟩
  obtain ⟨c, compiled⟩ := built
  refine ⟨c, compiled, ((params_bindable _ _ _).1 c compiled).1.mpr ?_⟩
  rintro ⟨_, f, member, items, given, v, inside, list⟩
  obtain rfl := List.mem_singleton.mp member
  cases given
  obtain rfl := List.mem_singleton.mp inside
  cases list

/-- The same with a list of notes for one of them. -/
def deleteNotesJson : Json :=
  .obj [("type", .str "delete"), ("table", .obj [("name", .str "log")]), ("columns", .arr []),
    ("where", .arr [.obj [("name", .str "note"), ("value", .arr [.arr [.str "fed"]])]])]

/-- A list in the list of a condition is read and compiled, and only then it cannot be bound. -/
theorem deleteNotes_unbound : ∃ q c,
    deleteNotesJson.decode Query.ofDocument = .ok q ∧
      q.compile .sqlite (Catalog.table []) = .ok c ∧
      c.text = "DELETE FROM \"log\" WHERE \"note\" IN (?)" ∧ c.params = [.list [.str "fed"]] ∧
      ((Storage.database plainLog).execute q).1.result =
        .error (.execute .unboundList "DELETE FROM \"log\" WHERE \"note\" IN (?)") := by
  have read : deleteNotesJson.decode Query.ofDocument = .ok (deleteNotes [.list [.str "fed"]]) := by
    rfl
  have compiled : ((deleteNotes [.list [.str "fed"]]).compile .sqlite
      (Catalog.table [])).toOption.map (fun c => (c.text, c.params)) =
        some ("DELETE FROM \"log\" WHERE \"note\" IN (?)", [.list [.str "fed"]]) := by
    decide +kernel
  obtain ⟨c, compiled, written⟩ := exists_ok_of_toOption_map compiled
  rw [Prod.mk.injEq] at written
  refine ⟨_, c, read, compiled, written.1, written.2, ?_⟩
  cbv

end Query

end QueryBoard
