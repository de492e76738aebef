import QueryBoard.Proofs.Compile.Projection

/-!
# How a select groups its rows

A select groups if a column that it shows has an aggregate, and then by exactly the columns that it
shows without one.  What the rows are ordered by is not asked.  So all that is shown goes together,
while a column of the order is a key only if it is shown as well, and an aggregate in the order
alone makes no groups.
-/

set_option autoImplicit false

namespace QueryBoard

open Sql (Expr)

/-! ## Aggregates and columns of an expression -/

def Aggregate.isName (name : String) : Bool := all.any (·.name == name)

theorem Aggregate.isName_name (f : Aggregate) : isName f.name = true :=
  List.any_eq_true.mpr ⟨f, by cases f <;> decide, beq_self_eq_true _⟩

namespace Sql.Expr

mutual

/-- Whether an aggregate is called anywhere in an expression.  A window calls none. -/
def callsAggregate : Expr → Bool
  | .call name args => Aggregate.isName name || anyCallsAggregate args
  | .binary _ left right => left.callsAggregate || right.callsAggregate
  | .member _ e items => e.callsAggregate || anyCallsAggregate items
  | .column _ _ | .literal _ | .param _ | .star | .over _ => false

def anyCallsAggregate : List Expr → Bool
  | [] => false
  | e :: rest => e.callsAggregate || anyCallsAggregate rest

end

mutual

/-- The columns that stand in an expression outside of its aggregates. -/
def plainColumns : Expr → List Expr
  | .column table name => [.column table name]
  | .call name args => if Aggregate.isName name then [] else plainColumnsList args
  | .binary _ left right => left.plainColumns ++ right.plainColumns
  | .member _ e items => e.plainColumns ++ plainColumnsList items
  | .over e => e.plainColumns
  | .literal _ | .param _ | .star => []

def plainColumnsList : List Expr → List Expr
  | [] => []
  | e :: rest => e.plainColumns ++ plainColumnsList rest

end

end Sql.Expr

namespace Sql.Select

def ShowsAggregate (s : Select) : Prop := ∃ i ∈ s.items, i.expr.callsAggregate = true

/-- The expressions that a block shows or orders its rows by. -/
def results (s : Select) : List Expr := s.items.map (·.expr) ++ s.orderBy.map (·.expr)

/-- Whether no column stands on its own beside an aggregate, unless the rows are grouped by it.  An
empty select list shows every column on its own. -/
def GroupsTogether (s : Select) : Prop :=
  (∃ e ∈ s.results, e.callsAggregate = true) →
    s.items ≠ [] ∧ ∀ e ∈ s.results, ∀ c ∈ e.plainColumns, c ∈ s.groupBy

end Sql.Select

namespace ColumnRef

theorem callsAggregate_projected (c : ColumnRef) :
    c.projected.callsAggregate = true ↔ c.func ≠ none := by
  unfold projected
  cases c.func with
  | none => simp [qualified, Expr.tableCol, Expr.callsAggregate]
  | some f => simp [Expr.callsAggregate, f.isName_name]

theorem mem_plainColumns_projected {c : ColumnRef} {e : Expr} :
    e ∈ c.projected.plainColumns ↔ c.func = none ∧ e = c.qualified := by
  unfold projected
  cases c.func with
  | none => simp [qualified, Expr.tableCol, Expr.plainColumns]
  | some f => simp [Expr.plainColumns, f.isName_name]

theorem qualified_eq_iff {c b : ColumnRef} :
    c.qualified = b.qualified ↔ c.label = b.label ∧ c.name = b.name := by
  simp [qualified, Expr.tableCol]

end ColumnRef

namespace Query

/-- Whether a select shows a column without an aggregate. -/
def ShowsPlain (q : Query) (o : ColumnRef) : Prop :=
  ∃ c ∈ q.columns, c.func = none ∧ c.label = o.label ∧ c.name = o.name

/-- How a select groups the rows of a query. -/
structure Groups (q : Query) (s : Sql.Select) : Prop where
  aggregated : s.ShowsAggregate ↔ ∃ c ∈ q.columns, c.func ≠ none
  ordersBy : (∃ o ∈ s.orderBy, o.expr.callsAggregate = true) ↔ ∃ o ∈ q.orderBy, o.func ≠ none
  keys : s.ShowsAggregate →
    s.groupBy = (q.columns.filter (·.func = none)).map ColumnRef.qualified
  ungrouped : ¬ s.ShowsAggregate → s.groupBy = []
  shown : s.ShowsAggregate → ∀ i ∈ s.items, ∀ e ∈ i.expr.plainColumns, e ∈ s.groupBy
  ordered : s.ShowsAggregate →
    ∀ o ∈ q.orderBy, o.func = none → (o.qualified ∈ s.groupBy ↔ q.ShowsPlain o)
  together : s.GroupsTogether ↔
    ((∃ o ∈ q.orderBy, o.func ≠ none) → ∃ c ∈ q.columns, c.func ≠ none) ∧
      ((∃ c ∈ q.columns, c.func ≠ none) → ∀ o ∈ q.orderBy, o.func = none → q.ShowsPlain o)

section Block

variable {schema : SchemaLookup} {q : Query} {joins : List Sql.Join} {root : List Sql.SelectItem}

theorem rootItems_of_aggregate (found : q.rootItems schema = .ok root)
    (aggregate : ∃ c ∈ q.columns, c.func ≠ none) : root = [] := by
  rw [rootItems, if_pos (q.hasAggregate_iff.mpr aggregate)] at found
  cases found
  rfl

theorem exists_rootItem (found : q.rootItems schema = .ok root) :
    ∀ i ∈ root, ∃ name, i.expr = .tableCol q.table.label name := by
  intro i member
  unfold rootItems at found
  split at found
  · cases found
    cases member
  · obtain ⟨key, _, same⟩ := bind_eq_ok_iff.mp found
    cases same
    obtain ⟨name, _, rfl⟩ := List.mem_map.mp member
    exact ⟨name, rfl⟩

theorem groupBy_of_aggregate (found : q.rootItems schema = .ok root)
    (aggregate : ∃ c ∈ q.columns, c.func ≠ none) : (q.selectBlock joins root).groupBy =
      (q.columns.filter (·.func = none)).map ColumnRef.qualified := by
  obtain ⟨c, listed, func⟩ := aggregate
  exact (projects_selectBlock found).grouped c listed func

/-- Keys of groups are the columns that are shown without an aggregate, if one is shown with one. -/
theorem mem_groupBy_selectBlock (found : q.rootItems schema = .ok root) {e : Expr} :
    e ∈ (q.selectBlock joins root).groupBy ↔ (∃ c ∈ q.columns, c.func ≠ none) ∧
      ∃ c ∈ q.columns, c.func = none ∧ c.qualified = e := by
  by_cases aggregate : ∃ c ∈ q.columns, c.func ≠ none
  · rw [groupBy_of_aggregate found aggregate]
    simp [aggregate, and_assoc]
  · have plain : ∀ c ∈ q.columns, c.func = none := by simpa using aggregate
    rw [(projects_selectBlock found).ungrouped plain]
    simp [aggregate]

theorem mem_results_selectBlock {e : Expr} : e ∈ (q.selectBlock joins root).results ↔
    (∃ c ∈ q.columns, c.projected = e) ∨ (∃ i ∈ root, i.expr = e) ∨
      ∃ o ∈ q.orderBy, o.projected = e := by
  simp [Sql.Select.results, selectBlock, ColumnRef.selectItem, ColumnRef.orderItem]

/-- A column of the root table calls no aggregate, and is a column on its own. -/
theorem plainColumns_rootItem (found : q.rootItems schema = .ok root) {i : Sql.SelectItem}
    (member : i ∈ root) : i.expr.callsAggregate = false ∧
      ∃ name, i.expr.plainColumns = [.tableCol q.table.label name] := by
  obtain ⟨name, same⟩ := exists_rootItem found i member
  rw [same]
  exact ⟨rfl, name, rfl⟩

theorem showsAggregate_iff (found : q.rootItems schema = .ok root) :
    (q.selectBlock joins root).ShowsAggregate ↔ ∃ c ∈ q.columns, c.func ≠ none := by
  constructor
  · rintro ⟨i, member, called⟩
    rcases List.mem_append.mp member with member | member
    · obtain ⟨c, inside, rfl⟩ := List.mem_map.mp member
      exact ⟨c, inside, c.callsAggregate_projected.mp called⟩
    · rw [(plainColumns_rootItem found member).1] at called
      cases called
  · rintro ⟨c, inside, func⟩
    exact ⟨c.selectItem, List.mem_append_left _ (List.mem_map_of_mem inside),
      c.callsAggregate_projected.mpr func⟩

theorem callsAggregate_orderBy :
    (∃ o ∈ (q.selectBlock joins root).orderBy, o.expr.callsAggregate = true) ↔
      ∃ o ∈ q.orderBy, o.func ≠ none := by
  constructor
  · rintro ⟨_, member, called⟩
    obtain ⟨o, listed, rfl⟩ := List.mem_map.mp member
    exact ⟨o, listed, o.callsAggregate_projected.mp called⟩
  · rintro ⟨o, listed, func⟩
    exact ⟨o.orderItem, List.mem_map_of_mem listed, o.callsAggregate_projected.mpr func⟩

/-- What is shown without an aggregate is a key, if the rows are grouped. -/
theorem mem_groupBy_of_shown (found : q.rootItems schema = .ok root)
    (aggregate : ∃ c ∈ q.columns, c.func ≠ none) {i : Sql.SelectItem}
    (member : i ∈ (q.selectBlock joins root).items) {e : Expr}
    (inside : e ∈ i.expr.plainColumns) : e ∈ (q.selectBlock joins root).groupBy := by
  rcases List.mem_append.mp member with member | member
  · obtain ⟨c, listed, rfl⟩ := List.mem_map.mp member
    obtain ⟨plain, rfl⟩ := ColumnRef.mem_plainColumns_projected.mp inside
    exact (mem_groupBy_selectBlock found).mpr ⟨aggregate, c, listed, plain, rfl⟩
  · rw [rootItems_of_aggregate found aggregate] at member
    cases member

theorem qualified_mem_groupBy (found : q.rootItems schema = .ok root)
    (aggregate : ∃ c ∈ q.columns, c.func ≠ none) (o : ColumnRef) :
    o.qualified ∈ (q.selectBlock joins root).groupBy ↔ q.ShowsPlain o := by
  simp only [mem_groupBy_selectBlock found, aggregate, true_and, ColumnRef.qualified_eq_iff,
    ShowsPlain]

/-- Without an aggregate among them, every item has a column that stands on its own. -/
theorem exists_plainColumn (found : q.rootItems schema = .ok root)
    (plain : ∀ c ∈ q.columns, c.func = none) {i : Sql.SelectItem}
    (member : i ∈ (q.selectBlock joins root).items) : ∃ e, e ∈ i.expr.plainColumns := by
  rcases List.mem_append.mp member with member | member
  · obtain ⟨c, listed, rfl⟩ := List.mem_map.mp member
    exact ⟨c.qualified, ColumnRef.mem_plainColumns_projected.mpr ⟨plain c listed, rfl⟩⟩
  · obtain ⟨name, columns⟩ := (plainColumns_rootItem found member).2
    exact ⟨_, by rw [columns]; exact List.mem_singleton_self _⟩

/-- An aggregate in the order goes together with what is shown only if one is shown as well. -/
theorem shows_aggregate_of_groupsTogether (found : q.rootItems schema = .ok root)
    (together : (q.selectBlock joins root).GroupsTogether) {o : ColumnRef} (member : o ∈ q.orderBy)
    (func : o.func ≠ none) : ∃ c ∈ q.columns, c.func ≠ none := by
  by_contra none
  have plain : ∀ c ∈ q.columns, c.func = .none := by simpa using none
  obtain ⟨some, keyed⟩ := together ⟨o.projected,
    mem_results_selectBlock.mpr (Or.inr (Or.inr ⟨o, member, rfl⟩)),
    o.callsAggregate_projected.mpr func⟩
  obtain ⟨i, first⟩ := List.exists_mem_of_ne_nil _ some
  obtain ⟨e, inside⟩ := exists_plainColumn found plain first
  have key := keyed i.expr (List.mem_append_left _ (List.mem_map_of_mem first)) e inside
  exact none ((mem_groupBy_selectBlock found).mp key).1

theorem showsPlain_of_groupsTogether (found : q.rootItems schema = .ok root)
    (together : (q.selectBlock joins root).GroupsTogether)
    (aggregate : ∃ c ∈ q.columns, c.func ≠ none) {o : ColumnRef} (member : o ∈ q.orderBy)
    (plain : o.func = none) : q.ShowsPlain o := by
  obtain ⟨c, listed, func⟩ := aggregate
  obtain ⟨_, keyed⟩ := together ⟨c.projected, mem_results_selectBlock.mpr (Or.inl ⟨c, listed, rfl⟩),
    c.callsAggregate_projected.mpr func⟩
  refine (qualified_mem_groupBy found ⟨c, listed, func⟩ o).mp
    (keyed o.projected (mem_results_selectBlock.mpr (Or.inr (Or.inr ⟨o, member, rfl⟩))) _ ?_)
  exact ColumnRef.mem_plainColumns_projected.mpr ⟨plain, rfl⟩

theorem groupsTogether_selectBlock (found : q.rootItems schema = .ok root)
    (shown : (∃ o ∈ q.orderBy, o.func ≠ none) → ∃ c ∈ q.columns, c.func ≠ none)
    (ordered : (∃ c ∈ q.columns, c.func ≠ none) →
      ∀ o ∈ q.orderBy, o.func = none → q.ShowsPlain o) :
    (q.selectBlock joins root).GroupsTogether := by
  rintro ⟨e, member, called⟩
  have aggregate : ∃ c ∈ q.columns, c.func ≠ none := by
    rcases mem_results_selectBlock.mp member with
      ⟨c, listed, rfl⟩ | ⟨i, inside, rfl⟩ | ⟨o, inside, rfl⟩
    · exact ⟨c, listed, c.callsAggregate_projected.mp called⟩
    · rw [(plainColumns_rootItem found inside).1] at called
      cases called
    · exact shown ⟨o, inside, o.callsAggregate_projected.mp called⟩
  have shows : (q.selectBlock joins root).ShowsAggregate := (showsAggregate_iff found).mpr aggregate
  obtain ⟨i, first, _⟩ := shows
  refine ⟨List.ne_nil_of_mem first, fun e member c inside => ?_⟩
  rcases List.mem_append.mp member with member | member
  · obtain ⟨i, listed, rfl⟩ := List.mem_map.mp member
    exact mem_groupBy_of_shown found aggregate listed inside
  · obtain ⟨_, item, rfl⟩ := List.mem_map.mp member
    obtain ⟨o, listed, rfl⟩ := List.mem_map.mp item
    obtain ⟨plain, rfl⟩ := ColumnRef.mem_plainColumns_projected.mp inside
    exact (qualified_mem_groupBy found aggregate o).mpr (ordered aggregate o listed plain)

theorem groups_selectBlock (found : q.rootItems schema = .ok root) :
    q.Groups (q.selectBlock joins root) where
  aggregated := showsAggregate_iff found
  ordersBy := callsAggregate_orderBy
  keys called := groupBy_of_aggregate found ((showsAggregate_iff found).mp called)
  ungrouped plain := by
    rw [List.eq_nil_iff_forall_not_mem]
    intro e member
    exact plain ((showsAggregate_iff found).mpr ((mem_groupBy_selectBlock found).mp member).1)
  shown called i member e inside :=
    mem_groupBy_of_shown found ((showsAggregate_iff found).mp called) member inside
  ordered called o _ _ := qualified_mem_groupBy found ((showsAggregate_iff found).mp called) o
  together :=
    ⟨fun together => ⟨fun ⟨_, member, func⟩ =>
        shows_aggregate_of_groupsTogether found together member func,
      fun aggregate _ member plain =>
        showsPlain_of_groupsTogether found together aggregate member plain⟩,
    fun ⟨shown, ordered⟩ => groupsTogether_selectBlock found shown ordered⟩

end Block

/-- A compiled select makes groups if it shows an aggregate, by exactly the columns that it shows
without one.  It goes together but for its order: that may have an aggregate where none is shown, or
a column of its own that is no key. -/
theorem select_groups (dialect : Sql.Dialect) (schema : SchemaLookup) (q : Query) (c : Compiled)
    (selects : q.operation = .select) (success : q.compile dialect schema = .ok c) :
    ∃ s, c.statement = .select s ∧ q.Groups s := by
  obtain ⟨joins, root, _, found, built, _⟩ := exists_selectBlock selects success
  exact ⟨_, built, groups_selectBlock found⟩

/-- What was ordered by status, greatest first. -/
def statusTotals : Query where
  operation := .select
  table := { key := ⟨"orders", 0⟩ }
  columns := [.of ⟨"orders", 0⟩ "status", (ColumnRef.of ⟨"orders", 0⟩ "total").withFunc .sum]
  orderBy := [((ColumnRef.of ⟨"orders", 0⟩ "total").withFunc .sum).withOrder "DESC",
    .of ⟨"orders", 0⟩ "status"]

theorem select_groups_statusTotals : ∃ c s,
    statusTotals.compile .sqlite (Catalog.table []) = .ok c ∧ c.statement = .select s ∧
      s.groupBy = [.tableCol "orders" "status"] ∧ s.GroupsTogether := by
  obtain ⟨c, compiled, _⟩ := exists_compiled .sqlite (Catalog.table []) statusTotals rfl
    (by decide) (by cbv) (by decide) rfl
  obtain ⟨s, built, groups⟩ :=
    select_groups .sqlite (Catalog.table []) statusTotals c rfl compiled
  have aggregate : ∃ c ∈ statusTotals.columns, c.func ≠ none := by decide
  have ordered : ∀ o ∈ statusTotals.orderBy, o.func = none → statusTotals.ShowsPlain o := by
    unfold ShowsPlain
    decide
  exact ⟨c, s, compiled, built, groups.keys (groups.aggregated.mpr aggregate),
    groups.together.mpr ⟨fun _ => aggregate, fun _ => ordered⟩⟩

/-- The same, but in the order of a column that is not shown. -/
def statusTotalsByDate : Query := { statusTotals with orderBy := [.of ⟨"orders", 0⟩ "date"] }

/-- An aggregate is shown, and the rows are in the order of a column that is no key of a group. -/
theorem statusTotalsByDate_ungrouped : ∃ c s,
    statusTotalsByDate.compile .sqlite (Catalog.table []) = .ok c ∧ c.statement = .select s ∧
      (∃ e ∈ s.results, e.callsAggregate = true) ∧
        ∃ e ∈ s.results, ∃ k ∈ e.plainColumns, k ∉ s.groupBy := by
  obtain ⟨c, compiled, _⟩ := exists_compiled .sqlite (Catalog.table []) statusTotalsByDate rfl
    (by decide) (by cbv) (by decide) rfl
  obtain ⟨joins, root, _, found, built, _⟩ := exists_selectBlock rfl compiled
  have aggregate : ∃ c ∈ statusTotalsByDate.columns, c.func ≠ none := by decide
  have unshown : ¬ statusTotalsByDate.ShowsPlain (.of ⟨"orders", 0⟩ "date") := by
    unfold ShowsPlain
    decide
  have date : ColumnRef.of ⟨"orders", 0⟩ "date" ∈ statusTotalsByDate.orderBy := by
    simp [statusTotalsByDate]
  refine ⟨c, _, compiled, built, ?_, _,
    mem_results_selectBlock.mpr (Or.inr (Or.inr ⟨_, date, rfl⟩)), _,
    ColumnRef.mem_plainColumns_projected.mpr ⟨rfl, rfl⟩, ?_⟩
  · obtain ⟨a, shown, func⟩ := aggregate
    exact ⟨a.projected, mem_results_selectBlock.mpr (Or.inl ⟨a, shown, rfl⟩),
      a.callsAggregate_projected.mpr func⟩
  · exact fun key => unshown ((qualified_mem_groupBy found aggregate _).mp key)

end Query

end QueryBoard
