import QueryBoard.Proofs.Compile.Determined
import QueryBoard.Proofs.Compile.JoinTree
import QueryBoard.Proofs.Sql.Values

/-!
# Values in compiled queries

Compiling looks at the value of a column in two ways only: an assignment or a condition binds it, and
whether it is absent, a list or neither decides what is written and what is refused.  So two queries
with the same forms of values compile to the same text, or fail alike, and the parameters of both are
found in the same places.
-/

set_option autoImplicit false

namespace QueryBoard

attribute [local simp] ok_bind pure_eq_ok map_ok

open Sql (Expr)

/-! ## Queries with other values -/

/-- The column with its value replaced. -/
def ColumnRef.revalue (g : Option Value → Option Value) (c : ColumnRef) : ColumnRef :=
  { c with value := g c.value }

def Query.revalue (g : Option Value → Option Value) (q : Query) : Query :=
  { q with
    columns := q.columns.map (·.revalue g)
    filters := q.filters.map (·.revalue g)
    orderBy := q.orderBy.map (·.revalue g) }

namespace Sql.Statement

def withFilters (filters : List Expr) : Sql.Statement → Sql.Statement
  | .select s => .select { s with filters }
  | .insert i => .insert i
  | .update u => .update { u with filters }
  | .delete d => .delete { d with filters }

/-- The statement with other expressions in its assignments. -/
def mapAssigned (f : Expr → Expr) : Sql.Statement → Sql.Statement
  | .select s => .select s
  | .insert i => .insert { i with rows := i.rows.map fun row => row.map f }
  | .update u => .update { u with assignments := u.assignments.map fun a => (a.1, f a.2) }
  | .delete d => .delete d

end Sql.Statement

namespace Query

/-- What the condition on a column is about; writes have one table only. -/
def target (q : Query) (c : ColumnRef) : Expr :=
  if q.operation = .select then c.qualified else .col c.name

def conditions (q : Query) : List Expr := q.filters.filterMap fun c => c.condition? (q.target c)

/-- The conditions of a statement are those of its query. -/
theorem statement_withFilters (schema : SchemaLookup) (q : Query) :
    (·.withFilters q.conditions) <$> q.statement schema = q.statement schema := by
  unfold statement
  cases kind : q.operation with
  | select =>
      simp only [conditions, target, kind, if_true, compileSelect, map_bind, map_pure]
      rfl
  | insert =>
      rw [Functor.map_map]
      rfl
  | update =>
      simp only [conditions, target, kind, compileUpdate, map_bind, map_pure]
      rfl
  | delete =>
      simp only [conditions, target, kind]
      rfl

section Revalue

variable (g : Option Value → Option Value) (q : Query)

theorem rules_revalue : (q.revalue g).rules = q.rules := by
  rw [rules, rules, revalue, List.foldl_map]
  rfl

theorem hasAggregate_revalue : (q.revalue g).hasAggregate = q.hasAggregate := by
  rw [hasAggregate, hasAggregate, revalue, List.any_map]
  rfl

theorem rootItems_revalue (schema : SchemaLookup) :
    (q.revalue g).rootItems schema = q.rootItems schema := by
  have key : (q.revalue g).rootKey? schema = q.rootKey? schema := by
    have shown : ((q.revalue g).columns.find? fun c =>
        c.func.isNone && c.column.primaryKey && c.label == q.table.label) =
        (q.columns.find? fun c =>
          c.func.isNone && c.column.primaryKey && c.label == q.table.label).map
            (·.revalue g) := List.find?_map ..
    have table : (q.revalue g).table = q.table := rfl
    simp only [rootKey?, table, shown]
    cases q.columns.find? fun c =>
      c.func.isNone && c.column.primaryKey && c.label == q.table.label <;> rfl
  rw [rootItems, rootItems, hasAggregate_revalue, key]
  rfl

theorem selectBlock_revalue (joins : List Sql.Join) (items : List Sql.SelectItem) :
    (q.revalue g).selectBlock joins items =
      { q.selectBlock joins items with
        filters := (q.revalue g).filters.filterMap fun c => c.condition? c.qualified } := by
  -- Nothing in a block but the conditions looks at the value of a column.
  have aggregate := q.hasAggregate_revalue g
  have columns : (q.revalue g).columns.map ColumnRef.selectItem =
      q.columns.map ColumnRef.selectItem := List.map_map
  have grouped : ((q.revalue g).columns.filter (·.func.isNone)).map ColumnRef.projected =
      (q.columns.filter (·.func.isNone)).map ColumnRef.projected := by
    simp only [revalue, List.filter_map, List.map_map]
    rfl
  have order : (q.revalue g).orderBy.map ColumnRef.orderItem = q.orderBy.map ColumnRef.orderItem :=
    List.map_map
  simp only [selectBlock, aggregate, columns, grouped, order]
  rfl

theorem compileSelect_revalue (schema : SchemaLookup) :
    (q.revalue g).compileSelect schema =
      (fun s =>
        { s with
          filters := (q.revalue g).filters.filterMap fun c => c.condition? c.qualified }) <$>
        q.compileSelect schema := by
  have table : (q.revalue g).table = q.table := rfl
  have columns : (q.revalue g).checkedColumns = q.checkedColumns.map (·.revalue g) := by
    simp [checkedColumns, revalue]
  have checked : ((q.revalue g).checkedColumns.forM fun c => c.checkTable q.table.aliases) =
      q.checkedColumns.forM fun c => c.checkTable q.table.aliases := by
    rw [columns, List.forM_eq_forM, List.forM_map]
    rfl
  simp only [compileSelect, table, checked, rootItems_revalue, selectBlock_revalue, map_bind,
    map_pure]

variable {g} {f : Expr → Expr} (each : ∀ c : ColumnRef, (c.revalue g).assigned = f <$> c.assigned)

include each

theorem writtenValues_revalue (what : String) :
    (q.revalue g).writtenValues what = (·.map f) <$> q.writtenValues what := by
  have columns : (q.revalue g).columns = q.columns.map (·.revalue g) := rfl
  rw [writtenValues, writtenValues, columns, List.isEmpty_map, List.mapM_map]
  by_cases none : q.columns.isEmpty
  · rw [if_pos none, if_pos none]
    rfl
  · rw [if_neg none, if_neg none, ← mapM_map]
    exact congrArg (q.columns.mapM ·) (funext each)

theorem compileInsert_revalue :
    (q.revalue g).compileInsert =
      (fun i => { i with rows := i.rows.map fun row => row.map f }) <$> q.compileInsert := by
  have names : (q.revalue g).columns.map (·.name) = q.columns.map (·.name) := List.map_map
  have table : (q.revalue g).table = q.table := rfl
  simp only [compileInsert, q.writtenValues_revalue each, names, table, map_bind, map_pure,
    bind_map_left]
  rfl

theorem compileUpdate_revalue :
    (q.revalue g).compileUpdate =
      (fun u => {
        table := u.table
        assignments := u.assignments.map fun a => (a.1, f a.2)
        filters := (q.revalue g).writeFilters }) <$> q.compileUpdate := by
  have names : (q.revalue g).columns.map (·.name) = q.columns.map (·.name) := List.map_map
  have table : (q.revalue g).table = q.table := rfl
  simp only [compileUpdate, q.writtenValues_revalue each, names, table, map_bind, map_pure,
    bind_map_left, List.zip_map_right]
  rfl

/-- What a query with other values compiles to differs in assignments and conditions only. -/
theorem statement_revalue (schema : SchemaLookup) :
    (q.revalue g).statement schema =
      (fun s => (s.mapAssigned f).withFilters (q.revalue g).conditions) <$>
        q.statement schema := by
  have operation : (q.revalue g).operation = q.operation := rfl
  unfold statement
  rw [operation]
  cases kind : q.operation with
  | select =>
      simp only [conditions, target, operation, kind, if_true, compileSelect_revalue,
        Functor.map_map]
      rfl
  | insert =>
      simp only [q.compileInsert_revalue each, Functor.map_map]
      rfl
  | update =>
      simp only [conditions, target, operation, kind, q.compileUpdate_revalue each,
        Functor.map_map]
      rfl
  | delete =>
      simp only [conditions, target, operation, kind]
      rfl

end Revalue

end Query

/-! ## The forms of values -/

/-- Null in the place of a scalar, and of every element of a list. -/
def Value.blank : Value → Value
  | .list items => .list (items.map fun _ => .null)
  | _ => .null

/-- The query with nothing left of its values but whether they are absent, lists or neither, and how
long the lists are. -/
def Query.blank (q : Query) : Query := q.revalue (Option.map Value.blank)

namespace ColumnRef

theorem assigned_blank (c : ColumnRef) :
    (c.revalue (Option.map Value.blank)).assigned = Expr.blank <$> c.assigned := by
  obtain ⟨column, tableKey, func, payload, value⟩ := c
  cases value with
  | none => rfl
  | some v => cases v <;> rfl

theorem condition?_blank (c : ColumnRef) {target : Expr} (plain : target.blank = target) :
    (c.revalue (Option.map Value.blank)).condition? target =
      (c.condition? target).map Expr.blank := by
  obtain ⟨column, tableKey, func, payload, value⟩ := c
  cases value with
  | none => rfl
  | some v =>
      cases v with
      | list items =>
          simp [revalue, condition?, Value.blank, Expr.blank, Expr.blankList_eq_map, plain,
            Function.comp_def]
      | _ => simp [revalue, condition?, Value.blank, Expr.blank, Expr.eq, plain]

end ColumnRef

namespace Query

theorem blank_target (q : Query) (c : ColumnRef) : (q.target c).blank = q.target c := by
  unfold target
  split <;> rfl

theorem conditions_blank (q : Query) : q.blank.conditions = q.conditions.map Expr.blank := by
  have filters : q.blank.filters = q.filters.map (·.revalue (Option.map Value.blank)) := rfl
  rw [conditions, conditions, filters, List.filterMap_map, List.map_filterMap]
  refine List.filterMap_congr fun c _ => ?_
  exact c.condition?_blank (q.blank_target c)

theorem statement_blank (schema : SchemaLookup) (q : Query) :
    q.blank.statement schema = Sql.Statement.blank <$> q.statement schema := by
  have alike (s : Sql.Statement) : (s.mapAssigned Expr.blank).withFilters q.blank.conditions =
      (s.withFilters q.conditions).blank := by
    rw [conditions_blank]
    cases s <;> rfl
  have whole := statement_withFilters schema q
  have other := q.statement_revalue ColumnRef.assigned_blank schema
  cases built : q.statement schema with
  | error e =>
      rw [built] at other
      exact other
  | ok s =>
      rw [built] at whole other
      have own : s.withFilters q.conditions = s := Except.ok.inj whole
      refine other.trans (congrArg Except.ok ?_)
      exact (alike s).trans (congrArg Sql.Statement.blank own)

end Query

/-! ## Where the parameters come from -/

/-- A place of a query with a value: a column that is written, a condition, or an element of the list
of a condition. -/
inductive Query.Place where
  | column (i : Nat)
  | filter (i : Nat)
  | element (i j : Nat)
deriving DecidableEq, Repr

namespace ColumnRef

/-- The values that the condition on a column binds. -/
def compared (c : ColumnRef) : List Value :=
  match c.value with
  | none => []
  | some (.list items) => items
  | some v => [v]

/-- The places of the values that the condition on the column at a position binds. -/
def places (i : Nat) (c : ColumnRef) : List Query.Place :=
  match c.value with
  | none => []
  | some (.list items) => (List.range items.length).map (.element i)
  | some _ => [.filter i]

theorem places_blank (i : Nat) (c : ColumnRef) :
    (c.revalue (Option.map Value.blank)).places i = c.places i := by
  obtain ⟨column, tableKey, func, payload, value⟩ := c
  cases value with
  | none => rfl
  | some v => cases v <;> simp [revalue, places, Value.blank]

theorem params_condition? {target : Expr} (plain : target.params = []) (c : ColumnRef) :
    (c.condition? target).toList.flatMap Expr.params = c.compared := by
  obtain ⟨column, tableKey, func, payload, value⟩ := c
  cases value with
  | none => rfl
  | some v =>
      cases v with
      | list items =>
          simp [condition?, compared, Expr.params_member plain, List.flatMap_map]
      | _ => simp [condition?, compared, Expr.eq, plain]

theorem params_projected (c : ColumnRef) : c.projected.params = [] := by
  unfold projected
  cases c.func <;> simp [qualified, Expr.tableCol]

/-- What is assigned is the value, or null where there is none. -/
theorem eq_param_of_assigned {c : ColumnRef} {e : Expr} (success : c.assigned = .ok e) :
    e = .param (c.value.getD .null) := by
  unfold assigned at success
  split at success
  · cases success
  · next given =>
      cases success
      rw [given]
      rfl
  · next absent =>
      cases success
      rw [absent]
      rfl

theorem params_assigned {c : ColumnRef} {e : Expr} (success : c.assigned = .ok e) :
    e.params = [c.value.getD .null] := by
  rw [eq_param_of_assigned success, Expr.params_param]

end ColumnRef

theorem Sql.Expr.params_conjuncts (e : Expr) : e.conjuncts.flatMap Expr.params = e.params := by
  fun_induction conjuncts e with
  | case1 left right first second =>
      rw [List.flatMap_append, first, second, params_binary]
  | case2 e => simp

theorem TableNode.params_joins {t : TableNode} {joins : List Sql.Join}
    (success : t.joins = .ok joins) : ∀ j ∈ joins, j.condition.params = [] := by
  intro j member
  obtain ⟨edge, _, of⟩ := exists_of_mem_forall₂ (joins_edges success) j member
  obtain ⟨rule, _, _, conditions⟩ := of.rule
  rw [← Expr.params_conjuncts, List.flatMap_eq_nil_iff]
  intro e inside
  obtain ⟨c, _, op, _, rfl⟩ := exists_of_mem_forall₂ conditions e inside
  simp

namespace Query

theorem params_filterMap (cs : List ColumnRef) (target : ColumnRef → Expr)
    (plain : ∀ c, (target c).params = []) :
    (cs.filterMap fun c => c.condition? (target c)).flatMap Expr.params =
      cs.flatMap ColumnRef.compared := by
  induction cs with
  | nil => rfl
  | cons c cs ih =>
      rw [List.flatMap_cons, ← ih, ← ColumnRef.params_condition? (plain c)]
      cases given : c.condition? (target c) <;> simp [given]

theorem params_rootItems {schema : SchemaLookup} {q : Query} {items : List Sql.SelectItem}
    (success : q.rootItems schema = .ok items) : ∀ i ∈ items, i.expr.params = [] := by
  unfold rootItems at success
  split at success
  · cases success
    simp
  · obtain ⟨key, _, same⟩ := bind_eq_ok_iff.mp success
    cases same
    intro i member
    obtain ⟨name, _, rfl⟩ := List.mem_map.mp member
    exact Expr.params_column _ _

/-- A select binds what its conditions compare with, and nothing else. -/
theorem params_compileSelect {schema : SchemaLookup} {q : Query} {s : Sql.Select}
    (success : q.compileSelect schema = .ok s) :
    s.tokens.params = q.filters.flatMap ColumnRef.compared := by
  obtain ⟨_, _, success⟩ := bind_eq_ok_iff.mp success
  obtain ⟨joins, joined, success⟩ := bind_eq_ok_iff.mp success
  obtain ⟨_, _, success⟩ := bind_eq_ok_iff.mp success
  obtain ⟨items, found, same⟩ := bind_eq_ok_iff.mp success
  cases same
  have listed : ((q.selectBlock joins items).items.flatMap fun i => i.expr.params) = [] := by
    rw [List.flatMap_eq_nil_iff]
    intro i member
    rcases List.mem_append.mp member with member | member
    · obtain ⟨c, _, rfl⟩ := List.mem_map.mp member
      exact c.params_projected
    · exact params_rootItems found i member
  have joining : ((q.selectBlock joins items).joins.flatMap fun j => j.condition.params) = [] := by
    rw [List.flatMap_eq_nil_iff]
    exact TableNode.params_joins joined
  have grouping : (q.selectBlock joins items).groupBy.flatMap Expr.params = [] := by
    rw [List.flatMap_eq_nil_iff]
    intro e member
    simp only [selectBlock] at member
    split at member
    · obtain ⟨c, _, rfl⟩ := List.mem_map.mp member
      exact c.params_projected
    · cases member
  have ordering : ((q.selectBlock joins items).orderBy.flatMap fun o => o.expr.params) = [] := by
    rw [List.flatMap_eq_nil_iff]
    intro o member
    obtain ⟨c, _, rfl⟩ := List.mem_map.mp member
    exact c.params_projected
  have conditions : (q.selectBlock joins items).filters.flatMap Expr.params =
      q.filters.flatMap ColumnRef.compared :=
    params_filterMap q.filters ColumnRef.qualified fun c => Expr.params_column _ _
  rw [Sql.Select.params_tokens, listed, joining, grouping, ordering, conditions]
  simp

theorem params_writeFilters (q : Query) :
    q.writeFilters.flatMap Expr.params = q.filters.flatMap ColumnRef.compared :=
  params_filterMap q.filters (fun c => .col c.name) fun _ => Expr.params_column _ _

theorem params_writtenValues {what : String} {q : Query} {values : List Expr}
    (success : q.writtenValues what = .ok values) :
    values.flatMap Expr.params = q.columns.map fun c => c.value.getD .null := by
  unfold writtenValues at success
  split at success
  · cases success
  · have each := map_eq_of_mapM (fun _ _ => ColumnRef.params_assigned) success
    rw [List.flatMap_def, each, ← List.flatMap_def, ← List.map_eq_flatMap]

/-- The values that a query binds, in the order of its parameters. -/
def bound (q : Query) : List Value :=
  match q.operation with
  | .select | .delete => q.filters.flatMap ColumnRef.compared
  | .insert => q.columns.map fun c => c.value.getD .null
  | .update =>
    (q.columns.map fun c => c.value.getD .null) ++ q.filters.flatMap ColumnRef.compared

theorem params_statement {schema : SchemaLookup} {q : Query} {s : Sql.Statement}
    (success : q.statement schema = .ok s) : s.params = q.bound := by
  have regular := regular_statement success
  unfold statement at success
  unfold bound
  cases kind : q.operation with
  | select =>
      rw [kind] at success
      obtain ⟨block, compiled, same⟩ := bind_eq_ok_iff.mp success
      cases same
      exact params_compileSelect compiled
  | insert =>
      rw [kind] at success
      obtain ⟨i, compiled, same⟩ := bind_eq_ok_iff.mp success
      cases same
      obtain ⟨values, written, same⟩ := bind_eq_ok_iff.mp compiled
      cases same
      refine (Sql.Insert.params_tokens regular).trans ?_
      rw [List.flatMap_singleton, params_writtenValues written]
  | update =>
      rw [kind] at success
      obtain ⟨u, compiled, same⟩ := bind_eq_ok_iff.mp success
      cases same
      obtain ⟨values, written, same⟩ := bind_eq_ok_iff.mp compiled
      cases same
      have long := (operand_writtenValues written).2.1
      have second : ((q.columns.map (·.name)).zip values).map Prod.snd = values :=
        List.map_snd_zip (by simp [long])
      have assigned : (((q.columns.map (·.name)).zip values).flatMap fun a => a.2.params) =
          q.columns.map fun c => c.value.getD .null := by
        rw [← params_writtenValues written]
        conv_rhs => rw [← second, List.flatMap_map]
      refine (Sql.Update.params_tokens _).trans ?_
      rw [assigned, params_writeFilters]
  | delete =>
      rw [kind] at success
      cases success
      exact (Sql.Delete.params_tokens _).trans q.params_writeFilters

/-! ## Their places -/

/-- The value at a place; null where there is none. -/
def valueAt (q : Query) : Place → Value
  | .column i => (q.columns[i]?.bind (·.value)).getD .null
  | .filter i => (q.filters[i]?.bind (·.value)).getD .null
  | .element i j =>
    match q.filters[i]?.bind (·.value) with
    | some (.list items) => items.getD j .null
    | _ => .null

def columnPlaces (q : Query) : List Place := (List.range q.columns.length).map .column

def filterPlaces (q : Query) : List Place := q.filters.zipIdx.flatMap fun p => p.1.places p.2

/-- The places of the values that a query binds, in the order of its parameters. -/
def places (q : Query) : List Place :=
  match q.operation with
  | .select | .delete => q.filterPlaces
  | .insert => q.columnPlaces
  | .update => q.columnPlaces ++ q.filterPlaces

theorem map_valueAt_columnPlaces (q : Query) :
    q.columnPlaces.map q.valueAt = q.columns.map fun c => c.value.getD .null := by
  refine List.ext_getElem (by simp [columnPlaces]) fun i short short' => ?_
  have inside : i < q.columns.length := by simpa using short'
  simp [columnPlaces, valueAt, inside]

theorem map_valueAt_places {q : Query} {i : Nat} {c : ColumnRef} (at_ : q.filters[i]? = some c) :
    (c.places i).map q.valueAt = c.compared := by
  obtain ⟨column, tableKey, func, payload, value⟩ := c
  cases value with
  | none => rfl
  | some v =>
      cases v with
      | list items =>
          refine List.ext_getElem (by simp [ColumnRef.places, ColumnRef.compared])
            fun j short short' => ?_
          have inside : j < items.length := by simpa [ColumnRef.compared] using short'
          simp [ColumnRef.places, ColumnRef.compared, valueAt, at_, inside]
      | _ => simp [ColumnRef.places, ColumnRef.compared, valueAt, at_]

theorem map_valueAt_filterPlaces (q : Query) :
    q.filterPlaces.map q.valueAt = q.filters.flatMap ColumnRef.compared := by
  have each : q.filters.zipIdx.flatMap (fun p => (p.1.places p.2).map q.valueAt) =
      q.filters.zipIdx.flatMap fun p => p.1.compared := by
    refine List.flatMap_congr fun p member => ?_
    exact map_valueAt_places (List.mem_zipIdx_iff_getElem?.mp member)
  have values : q.filters.zipIdx.map Prod.fst = q.filters := List.zipIdx_map_fst ..
  rw [filterPlaces, List.map_flatMap, each]
  conv_rhs => rw [← values, List.flatMap_map]

theorem map_valueAt (q : Query) : q.places.map q.valueAt = q.bound := by
  unfold places bound
  cases q.operation with
  | select | delete => exact q.map_valueAt_filterPlaces
  | insert => exact q.map_valueAt_columnPlaces
  | update =>
      rw [List.map_append, map_valueAt_columnPlaces, map_valueAt_filterPlaces]

theorem places_blank (q : Query) : q.blank.places = q.places := by
  have operation : q.blank.operation = q.operation := rfl
  have columns : q.blank.columnPlaces = q.columnPlaces := by
    have long : q.blank.columns.length = q.columns.length := List.length_map _
    rw [columnPlaces, columnPlaces, long]
  have filters : q.blank.filterPlaces = q.filterPlaces := by
    have each : q.blank.filters = q.filters.map (·.revalue (Option.map Value.blank)) := rfl
    rw [filterPlaces, filterPlaces, each, List.zipIdx_map, List.flatMap_map]
    exact List.flatMap_congr fun p _ => p.1.places_blank p.2
  rw [places, places, operation, columns, filters]

theorem mem_places {i : Nat} {c : ColumnRef} {p : Place} (member : p ∈ c.places i) :
    p = .filter i ∨ ∃ j, p = .element i j := by
  unfold ColumnRef.places at member
  split at member
  · cases member
  · obtain ⟨j, _, rfl⟩ := List.mem_map.mp member
    exact .inr ⟨j, rfl⟩
  · exact .inl (List.mem_singleton.mp member)

theorem nodup_filterPlaces (q : Query) : q.filterPlaces.Nodup := by
  rw [filterPlaces, List.nodup_flatMap]
  constructor
  · intro p _
    unfold ColumnRef.places
    split
    · exact List.nodup_nil
    · refine List.nodup_range.map fun j j' same => ?_
      cases same
      rfl
    · exact List.nodup_singleton _
  · -- Conditions at different positions have different places.
    have positions : (q.filters.zipIdx.map Prod.snd).Nodup := by
      rw [List.zipIdx_map_snd]
      exact List.nodup_range'
    refine (List.pairwise_map.mp positions).imp fun {p p'} apart => ?_
    intro place first second
    rcases mem_places first with rfl | ⟨j, rfl⟩
    · rcases mem_places second with same | ⟨j', same⟩
      · exact apart (Place.filter.inj same)
      · cases same
    · rcases mem_places second with same | ⟨j', same⟩
      · cases same
      · exact apart (Place.element.inj same).1

/-- No value is bound twice. -/
theorem nodup_places (q : Query) : q.places.Nodup := by
  have columns : q.columnPlaces.Nodup := by
    refine List.nodup_range.map fun i i' same => ?_
    cases same
    rfl
  unfold places
  cases q.operation with
  | select | delete => exact q.nodup_filterPlaces
  | insert => exact columns
  | update =>
      refine columns.append q.nodup_filterPlaces ?_
      intro place first second
      obtain ⟨i, _, rfl⟩ := List.mem_map.mp first
      obtain ⟨p, _, inside⟩ := List.mem_flatMap.mp second
      rcases mem_places inside with same | ⟨j, same⟩ <;> cases same

/-! ## Queries that differ in their values -/

theorem compile_of_statement {schema : SchemaLookup} {q : Query} {s : Sql.Statement}
    (d : Sql.Dialect) (built : q.statement schema = .ok s) :
    q.compile d schema = .ok {
      operation := q.operation
      dialect := d
      statement := s
      rules := if q.operation = .select then q.rules else [] } := by
  rw [compile, built]
  rfl

theorem params_compile {d : Sql.Dialect} {schema : SchemaLookup} {q : Query} {c : Compiled}
    (success : q.compile d schema = .ok c) : c.params = q.places.map q.valueAt := by
  obtain ⟨s, built, same⟩ := bind_eq_ok_iff.mp success
  cases same
  rw [map_valueAt]
  exact params_statement built

section Alike

variable {q q' : Query} (alike : q.blank = q'.blank)
include alike

theorem operation_eq_of_alike : q.operation = q'.operation := by
  change q.blank.operation = q'.blank.operation
  rw [alike]

theorem rules_eq_of_alike : q.rules = q'.rules := by
  rw [← q.rules_revalue (Option.map Value.blank), ← blank, alike, blank, rules_revalue]

theorem places_eq_of_alike : q.places = q'.places := by
  rw [← q.places_blank, alike, q'.places_blank]

theorem statement_of_alike (schema : SchemaLookup) :
    (∃ e, q.statement schema = .error e ∧ q'.statement schema = .error e) ∨
      ∃ s s', q.statement schema = .ok s ∧ q'.statement schema = .ok s' ∧ s.blank = s'.blank := by
  have same : Sql.Statement.blank <$> q.statement schema =
      Sql.Statement.blank <$> q'.statement schema := by
    rw [← statement_blank, alike, statement_blank]
  cases built : q.statement schema with
  | error e =>
      rw [built] at same
      cases built' : q'.statement schema with
      | error e' =>
          rw [built'] at same
          cases same
          exact Or.inl ⟨e, rfl, rfl⟩
      | ok s' =>
          rw [built'] at same
          cases same
  | ok s =>
      rw [built] at same
      cases built' : q'.statement schema with
      | error e' =>
          rw [built'] at same
          cases same
      | ok s' =>
          rw [built'] at same
          exact Or.inr ⟨s, s', rfl, rfl, Except.ok.inj same⟩

end Alike

/-- Where the values at the same places differ, the queries do. -/
theorem exists_place_of_ne {q q' : Query} {places : List Place} {k : Nat}
    (differ : (places.map q'.valueAt)[k]? ≠ (places.map q.valueAt)[k]?) :
    ∃ p, places[k]? = some p ∧ q'.valueAt p ≠ q.valueAt p := by
  rw [List.getElem?_map, List.getElem?_map] at differ
  cases place : places[k]? with
  | none => simp [place] at differ
  | some p => exact ⟨p, rfl, by simpa [place] using differ⟩

/-- Two queries that differ in nothing but the contents of their values fail alike, or compile to the
same text and rules.  The parameters of both are what stands in the same places, each place once, so
that they differ in number nowhere and in value only where the queries do. -/
theorem values_stayOut (dialect : Sql.Dialect) (schema : SchemaLookup) {q q' : Query}
    (alike : q.blank = q'.blank) :
    (∀ e, q.compile dialect schema = .error e ↔ q'.compile dialect schema = .error e) ∧
      ∀ c, q.compile dialect schema = .ok c → ∃ c', q'.compile dialect schema = .ok c' ∧
        c'.text = c.text ∧ c'.rules = c.rules ∧
        c'.operation = c.operation ∧ c'.dialect = c.dialect ∧
        c.params = q.places.map q.valueAt ∧ c'.params = q.places.map q'.valueAt ∧
        q.places.Nodup ∧ c'.params.length = c.params.length ∧
        ∀ k : Nat, c'.params[k]? ≠ c.params[k]? →
          ∃ p, q.places[k]? = some p ∧ q'.valueAt p ≠ q.valueAt p := by
  rcases statement_of_alike alike schema with ⟨e, built, built'⟩ | ⟨s, s', built, built', blank⟩
  · have failed : q.compile dialect schema = .error e := by rw [compile, built]; rfl
    have failed' : q'.compile dialect schema = .error e := by rw [compile, built']; rfl
    rw [failed, failed']
    exact ⟨fun _ => Iff.rfl, fun c success => by cases success⟩
  · have text := Sql.Statement.text_eq_of_blank_eq blank dialect
    have operation := operation_eq_of_alike alike
    have rules := rules_eq_of_alike alike
    have compiled := compile_of_statement dialect built
    have compiled' := compile_of_statement dialect built'
    have params := params_compile compiled
    have params' := params_compile compiled'
    rw [← places_eq_of_alike alike] at params'
    rw [compiled, compiled']
    refine ⟨fun e => by simp, fun c success => ?_⟩
    cases success
    refine ⟨_, rfl, text.symm, by simp only [operation, rules], operation.symm, rfl, params,
      params', q.nodup_places, by rw [params, params']; simp, fun k differ => ?_⟩
    rw [params, params'] at differ
    exact exists_place_of_ne differ

/-- A renaming of the rows whose column is in a list. -/
def renameIn (name : String) (ids : List Value) : Query where
  operation := .update
  table := { key := ⟨"users", 0⟩ }
  columns := [(ColumnRef.named "name").withValue (.str name)]
  filters := [(ColumnRef.named "id").withValue (.list ids)]

theorem values_stayOut_renameIn :
    (renameIn "Ann" [.int 1, .int 2]).blank =
        (renameIn "'; DROP TABLE users --" [.int 1, .str "2 OR 1 = 1"]).blank ∧
      ∃ c c', (renameIn "Ann" [.int 1, .int 2]).compile .postgres (Catalog.table []) = .ok c ∧
        (renameIn "'; DROP TABLE users --" [.int 1, .str "2 OR 1 = 1"]).compile .postgres
          (Catalog.table []) = .ok c' ∧
        c'.text = c.text ∧
        c.text = "UPDATE \"users\" SET \"name\" = $1 WHERE \"id\" IN ($2, $3)" ∧
        c.params = [.str "Ann", .int 1, .int 2] ∧
        c'.params = [.str "'; DROP TABLE users --", .int 1, .str "2 OR 1 = 1"] := by
  have alike : (renameIn "Ann" [.int 1, .int 2]).blank =
      (renameIn "'; DROP TABLE users --" [.int 1, .str "2 OR 1 = 1"]).blank := rfl
  obtain ⟨c', compiled', text, _, _, _, params, params', _⟩ :=
    (values_stayOut .postgres (Catalog.table []) alike).2 _ rfl
  exact ⟨alike, _, c', rfl, compiled', text, by decide +kernel, params, params'⟩

end Query

end QueryBoard
