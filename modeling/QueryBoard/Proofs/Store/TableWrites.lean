import QueryBoard.Proofs.Db.Row
import QueryBoard.Proofs.Store.Limits
import QueryBoard.Proofs.Store.Tables

/-!
# The changes of the store as statements

Where a database stands for a store, the statements of the store do to its tables what the changes
of the store do to the rows.  Foreign keys are no part of a table: which parents and widgets have to
be there before an insertion, and which rows go with those that a deletion picks out, is said by the
changes of the store alone.
-/

set_option autoImplicit false

namespace QueryBoard

open Db (Cell Row Target)

namespace Store

/-! ## Rows of the tables -/

/-- The first columns of a table, to be given cells. -/
def targets (n : Nat) : List Target := (List.range n).map .column

theorem lookup_rowid (n : Nat) (cells : List Cell) :
    ((targets n).zip cells).reverse.lookup .rowid = none := by
  rw [List.lookup_eq_none_iff]
  intro given member
  have target := (List.of_mem_zip (List.mem_reverse.mp member)).1
  obtain ⟨i, -, same⟩ := List.mem_map.mp target
  rw [← same]
  rfl

section

variable {α : Type}

/-- A table of records whose first column has their ids, which are all different. -/
structure Keyed (definition : Db.Table) (cells : α → List Cell) (id : α → String) : Prop where
  plain : definition.rowidColumn? = none
  counted : definition.autoincrement = false
  uniques : definition.uniques = [[0]]
  first : ∀ a, ∃ rest, cells a = .ofString (id a) :: rest
  full : ∀ a looked, definition.checkNotNull looked (cells a) = .ok ()

theorem Keyed.agree {definition : Db.Table} {cells : α → List Cell} {id : α → String}
    (keyed : Keyed definition cells id) (a b : α) :
    Db.Table.agree [0] (cells a) (cells b) = (id a == id b) := by
  obtain ⟨rest, first⟩ := keyed.first a
  obtain ⟨rest', first'⟩ := keyed.first b
  rw [Bool.eq_iff_iff, beq_iff_eq, ← Cell.compare_ofString, first, first']
  simp [Db.Table.agree, Cell.ofString, Cell.isNull]

end

theorem affinity_textColumn (name : String) : (TableStore.textColumn name).affinity = .text :=
  (by decide : Db.Affinity.ofType "TEXT" = .text)

theorem affinity_requiredColumn (name : String) :
    (TableStore.requiredColumn name).affinity = .text :=
  affinity_textColumn name

theorem column_beq (i j : Nat) : (Target.column i == Target.column j) = (i == j) := by
  rw [Bool.eq_iff_iff, beq_iff_eq, beq_iff_eq, Target.column.injEq]

theorem keyed_widgets : Keyed widgetRowsTable StoredWidget.cells fun r => r.id where
  plain := by decide
  counted := rfl
  uniques := rfl
  first := fun _ => ⟨_, rfl⟩
  full := fun r looked => by
    simp [Db.Table.checkNotNull, widgetRowsTable, TableStore.widgets, StoredWidget.cells,
      TableStore.textColumn, TableStore.requiredColumn, Cell.ofString, Cell.isNull]

theorem keyed_dashboards : Keyed TableStore.dashboards StoredDashboard.cells fun r => r.id where
  plain := by decide
  counted := rfl
  uniques := rfl
  first := fun _ => ⟨_, rfl⟩
  full := fun r looked => by
    simp [Db.Table.checkNotNull, TableStore.dashboards, StoredDashboard.cells,
      TableStore.textColumn, TableStore.requiredColumn, Cell.ofString, Cell.isNull]

theorem full_placement (p : Placement) (looked : Nat → Bool) :
    placementRowsTable.checkNotNull looked p.cells = .ok () := by
  simp [Db.Table.checkNotNull, placementRowsTable, TableStore.placements, Placement.cells,
    TableStore.textColumn, TableStore.requiredColumn, layoutColumns, Cell.ofString, Cell.isNull]

/-! ## Insertions -/

section

variable {α : Type} {definition t : Db.Table} {cells : α → List Cell} {n : Nat} {as : List α}
  {db : Db.Database}

/-- An insertion of values goes to the table that holds the records. -/
theorem Holds.insert_eq (holds : Holds definition cells n as t) (free : db.refusal = none)
    (found : db.table? definition.name = some t) (columns : List String) (rows : List (List Value))
    (names : ∀ c ∈ definition.name :: columns, '\x00' ∉ c.toList)
    (single : ∀ v ∈ rows.flatten, v.isList = false)
    (few : rows.flatten.length ≤ Db.Limit.parameters.most)
    (known : columns.map definition.target? = (targets columns.length).map some) :
    db.insert { table := definition.name, columns, rows := rows.map fun row => row.map .param } =
      (fun t => (db.replace t, rows.length)) <$> rows.foldlM
        (fun t row => t.insert ((targets columns.length).zip (row.map Cell.ofParam))) t := by
  obtain ⟨written, bound⟩ := Db.accepted_insert names single few
  have constants :
      (rows.map fun row => row.map Sql.Expr.param).mapM (fun row => row.mapM Db.Database.constant) =
        .ok (rows.map fun row => row.map Cell.ofParam) := by
    rw [List.mapM_map]
    refine mapM_eq_ok_map fun row _ => ?_
    rw [Function.comp_apply, List.mapM_map]
    exact mapM_eq_ok_map fun v _ => rfl
  have targets : List.Forall₂ (fun c target => t.target? c = some target) columns
      (targets columns.length) :=
    (forall₂_eq_iff.mpr known).imp fun c target same => (holds.target?_eq c).trans same
  have inserted := Db.Database.insert_eq (s := ⟨definition.name, columns, _⟩) free found written
    bound targets constants
  rw [inserted, List.foldlM_map, List.length_map]

/-- A record under a new id comes behind all others, and one under a known id is refused. -/
theorem Keyed.insert {id : α → String} (keyed : Keyed definition cells id)
    (holds : Holds definition cells (n + 1) as t) (free : db.refusal = none)
    (found : db.table? definition.name = some t) (columns : List String) (values : List Value)
    (names : ∀ c ∈ definition.name :: columns, '\x00' ∉ c.toList)
    (single : ∀ v ∈ values, v.isList = false) (few : values.length ≤ Db.Limit.parameters.most)
    (known : columns.map definition.target? = (targets columns.length).map some) {a : α}
    (made : definition.newCells ((targets columns.length).zip (values.map Cell.ofParam)) =
      cells a) :
    let s : Sql.Insert := ⟨definition.name, columns, [values.map .param]⟩
    (id a ∉ as.map id → ∃ t', db.insert s = .ok (db.replace t', 1) ∧
      Holds definition cells n (as ++ [a]) t') ∧
    (id a ∈ as.map id →
      db.insert s = .error (.unique definition.name [definition.columnName 0])) := by
  intro s
  have run : db.insert s = (fun t => (db.replace t, 1)) <$>
      t.insert ((targets columns.length).zip (values.map Cell.ofParam)) := by
    refine (holds.insert_eq free found columns [values] names (by simpa using single)
      (by simpa using few) known).trans ?_
    rw [List.foldlM_cons]
    cases t.insert ((targets columns.length).zip (values.map Cell.ofParam)) <;> rfl
  constructor
  · intro new
    obtain ⟨t', inserted, holds'⟩ := holds.insert keyed.plain keyed.counted (lookup_rowid ..) made
      (keyed.full a _) (by
        intro set listed b member
        rw [keyed.uniques] at listed
        rw [List.mem_singleton.mp listed, keyed.agree, beq_eq_false_iff_ne]
        intro same
        exact new (same ▸ List.mem_map_of_mem member))
    exact ⟨t', by rw [run, inserted]; rfl, holds'⟩
  · intro taken
    obtain ⟨b, member, same⟩ := List.mem_map.mp taken
    obtain ⟨r, inside, is⟩ := exists_of_mem_forall₂ holds.rows b member
    have new : t.newCells ((targets columns.length).zip (values.map Cell.ofParam)) = cells a := by
      rw [holds.newCells_eq, made]
    have refused := Db.Table.insert_eq_error (holds.rowidColumn?_eq.trans keyed.plain)
      (holds.counted_eq.trans keyed.counted) holds.ordered holds.room (lookup_rowid ..)
      (by rw [new, holds.checkNotNull_eq, keyed.full]) (holds.uniques_eq.trans keyed.uniques) inside
      (by rw [is, new, keyed.agree, same, beq_self_eq_true])
    rw [run, refused, holds.name_eq, List.map_singleton, holds.columnName_eq]
    rfl

/-- Records that nothing keeps apart come behind all others, one after the other. -/
theorem Holds.insertAll {bs : List α} (holds : Holds definition cells (n + bs.length) as t)
    (plain : definition.rowidColumn? = none) (counted : definition.autoincrement = false)
    (loose : definition.uniques = []) (given : α → List (Target × Cell))
    (free : ∀ b, (given b).reverse.lookup .rowid = none)
    (made : ∀ b, definition.newCells (given b) = cells b)
    (full : ∀ b, definition.checkNotNull (fun _ => true) (cells b) = .ok ()) :
    ∃ t', bs.foldlM (fun t b => t.insert (given b)) t = .ok t' ∧
      Holds definition cells n (as ++ bs) t' := by
  induction bs generalizing as t with
  | nil => exact ⟨t, rfl, by rwa [List.append_nil]⟩
  | cons b bs ih =>
      obtain ⟨t', first, holds'⟩ := Holds.insert holds plain counted (free b) (made b) (full b)
        (by simp [loose])
      obtain ⟨t'', rest, holds''⟩ := ih holds'
      refine ⟨t'', ?_, by rwa [List.append_cons]⟩
      rw [List.foldlM_cons, first, ok_bind, rest]

end

section

variable {db : Db.Database} {s s' : Store} {n : Nat}

def textValue (text : Option String) : Value := (text.map Value.str).getD .null

def widgetValues (r : StoredWidget) : List Value :=
  [.str r.id, .str r.name, .str r.kind, textValue r.props, textValue r.query, textValue r.parent]

theorem isList_widgetValues (r : StoredWidget) : ∀ v ∈ widgetValues r, v.isList = false := by
  obtain ⟨id, name, kind, props, query, parent⟩ := r
  cases props <;> cases query <;> cases parent <;> simp [widgetValues, textValue, Value.isList]

theorem ofParam_textValue (text : Option String) :
    Cell.ofParam (textValue text) = .ofText text := by
  cases text <;> rfl

theorem newCells_widget (r : StoredWidget) : widgetRowsTable.newCells
    ((targets widgetColumns.length).zip ((widgetValues r).map Cell.ofParam)) = r.cells := by
  obtain ⟨id, name, kind, props, query, parent⟩ := r
  cases props <;> cases query <;> cases parent <;> rfl

/-- What is added to the widgets is inserted, and what is refused for its id is refused alike. -/
theorem addWidget_runs (represents : Represents db (n + 1) s) (r : StoredWidget) :
    (∀ s', s.addWidget r = .ok s' →
      ∃ db', db.insert (widgetInsert r) = .ok (db', 1) ∧ Represents db' n s') ∧
    ∀ e, s.addWidget r = .error e → e = .foreignKey ∨ db.insert (widgetInsert r) = .error e := by
  obtain ⟨t, found, holds⟩ := represents.widgets
  obtain ⟨new, known⟩ := keyed_widgets.insert holds represents.free found widgetColumns
    (widgetValues r) (by decide) (isList_widgetValues r)
    (by decide : 6 ≤ Db.Limit.parameters.most) (by decide) (newCells_widget r)
  constructor
  · intro s' added
    obtain ⟨fresh, -, rfl⟩ := addWidget_ok added
    obtain ⟨t', inserted, holds'⟩ := new fresh
    exact ⟨_, inserted, represents.replaceWidgets (Nat.le_succ n) holds'⟩
  · intro e refused
    unfold addWidget at refused
    split at refused
    · next taken =>
      cases refused
      exact Or.inr (known (hasWidget_iff.mp taken))
    · split at refused
      · cases refused
      · cases refused
        exact Or.inl rfl

theorem addDashboard_runs (represents : Represents db (n + 1) s) (r : StoredDashboard) :
    (∀ s', s.addDashboard r = .ok s' →
      ∃ db', db.insert (dashboardInsert r) = .ok (db', 1) ∧ Represents db' n s') ∧
    ∀ e, s.addDashboard r = .error e → db.insert (dashboardInsert r) = .error e := by
  obtain ⟨t, found, holds⟩ := represents.dashboards
  have made : TableStore.dashboards.newCells
      ((targets 2).zip ([.str r.id, .str r.name].map Cell.ofParam)) = r.cells := rfl
  obtain ⟨new, known⟩ := keyed_dashboards.insert holds represents.free found ["id", "name"]
    [.str r.id, .str r.name] (by decide)
    (by simp [Value.isList]) (by decide : 2 ≤ Db.Limit.parameters.most) (by decide) made
  constructor
  · intro s' added
    obtain ⟨fresh, rfl⟩ := addDashboard_ok added
    obtain ⟨t', inserted, holds'⟩ := new fresh
    exact ⟨_, inserted, represents.replaceDashboards (Nat.le_succ n) holds'⟩
  · intro e refused
    unfold addDashboard at refused
    split at refused
    · next taken =>
      cases refused
      exact known (hasDashboard_iff.mp taken)
    · cases refused

/-- Placements are put on dashboards by one statement, unless there are too many for its
parameters. -/
theorem addPlacements_runs {ps : List Placement} (represents : Represents db (n + ps.length) s)
    (few : 6 * ps.length ≤ Db.Limit.parameters.most) (added : s.addPlacements ps = .ok s') :
    ∃ db', db.insert (placementInsert ps) = .ok (db', ps.length) ∧ Represents db' n s' := by
  obtain ⟨-, rfl⟩ := addPlacements_ok added
  obtain ⟨t, found, holds⟩ := represents.placements
  let values (p : Placement) : List Value :=
    [.str p.dashboard, .str p.widget, .int p.x, .int p.y, .int p.w, .int p.h]
  have single : ∀ v ∈ (ps.map values).flatten, v.isList = false := by
    rw [← List.flatMap_def, List.forall_mem_flatMap]
    intro p _
    simp [values, Value.isList]
  have count : (ps.map values).flatten.length = 6 * ps.length := by
    simp [values, List.length_flatten, Function.comp_def, Nat.mul_comm]
  have statement : placementInsert ps =
      ⟨placementTable, ["dashboard_id", "widget_id"] ++ layoutColumns,
        (ps.map values).map fun row => row.map .param⟩ := by
    rw [List.map_map]
    rfl
  have run := holds.insert_eq represents.free found
    (["dashboard_id", "widget_id"] ++ layoutColumns) (ps.map values) (by decide) single
    (count ▸ few) (by decide)
  obtain ⟨t', inserted, holds'⟩ := holds.insertAll (by decide) rfl rfl
    (fun p => (targets 6).zip p.cells) (fun p => lookup_rowid ..) (fun p => rfl)
    (fun p => full_placement p _)
  refine ⟨_, ?_, represents.replacePlacements (Nat.le_add_right ..) holds'⟩
  rw [List.foldlM_map] at run
  rw [statement, ← List.length_map values]
  refine run.trans ?_
  exact congrArg (_ <$> ·) inserted

end

/-! ## Conditions -/

/-- The condition that a column holds an id, its name looked up. -/
def idTerm (i : Nat) (id : String) : Db.Term :=
  .comparison .eq .text (.slot ⟨0, some i, .text⟩) (.cell (.ofString id))

section

variable {definition : Db.Table} {column : String} {i : Nat} {r : Row} {text : Option String}

theorem resolve_col (slot : definition.relation.slot? 0 column = some ⟨0, some i, .text⟩) :
    Db.resolve definition.names (.col column) = .ok (.slot ⟨0, some i, .text⟩) := by
  rw [Sql.Expr.col, Db.resolve, Db.Table.names, slot]

theorem resolve_isId (slot : definition.relation.slot? 0 column = some ⟨0, some i, .text⟩)
    (id : String) : Db.resolve definition.names (isId column id) = .ok (idTerm i id) := by
  rw [isId, Sql.Expr.eq, Db.resolve, resolve_col slot]
  · rfl
  · decide

theorem onRow_idTerm (cell : r.cells.getD i .null = .ofText text) (id : String) :
    (idTerm i id).onRow 0 [some r] = .ok (.ofTruth (text.map (· == id))) := by
  rw [← Db.compareCells_text (a := .text) rfl, ← cell]
  rfl

theorem holds_of_onRow {t : Db.Term} {truth : Option Bool}
    (value : t.onRow 0 [some r] = .ok (.ofTruth truth)) :
    Db.holds t [some r] = (truth == some true) := by
  rw [Db.holds, value]
  dsimp only
  rw [Cell.truth_ofTruth]

theorem map_beq_some (text : Option String) (key : String) :
    (text.map (· == key) == some true) = (text == some key) := by
  cases text <;> simp

/-- One condition picks out the records with an id. -/
theorem picks_id {α : Type} {cells : α → List Cell} {id : α → Option String}
    (cell : ∀ a, (cells a).getD i .null = .ofText (id a)) (key : String) :
    Picks cells [idTerm i key] fun a => id a == some key := by
  intro r a same
  rw [List.all_cons, List.all_nil, Bool.and_true,
    holds_of_onRow (onRow_idTerm (same ▸ cell a) key), map_beq_some]

end

/-- The condition on widgets that are stale, its names looked up. -/
def staleTerm (parent : String) (kept : List String) : Db.Term :=
  .both (idTerm 5 parent) (if kept.isEmpty then .cell (.ofTruth (some true))
    else .member true .text (.slot ⟨0, some 0, .text⟩) (kept.map fun k => .cell (.ofString k)))

theorem resolve_stale (parent : String) (kept : List String) :
    Db.resolveList widgetRowsTable.names (staleDelete parent kept).filters =
      .ok [staleTerm parent kept] := by
  have items : ∀ ids : List String, Db.resolveList widgetRowsTable.names (ids.map idParam) =
      .ok (ids.map fun k => .cell (.ofString k)) := by
    intro ids
    induction ids with
    | nil => rfl
    | cons i ids ih =>
        rw [List.map_cons, Db.resolveList, ih]
        rfl
  have left : Db.resolve widgetRowsTable.names (isId "parent_id" parent) = .ok (idTerm 5 parent) :=
    resolve_isId (by decide) parent
  have column : Db.resolve widgetRowsTable.names (.col "id") = .ok (.slot ⟨0, some 0, .text⟩) :=
    resolve_col (by decide)
  cases kept with
  | nil =>
      simp only [staleDelete, Sql.Expr.and, Db.resolveList, Db.resolve, left, List.map_nil]
      rfl
  | cons i rest =>
      simp only [staleDelete, Sql.Expr.and, Db.resolveList, Db.resolve, left, List.map_cons, column,
        items rest]
      rfl

theorem picks_stale (parent : String) (kept : List String) :
    Picks StoredWidget.cells [staleTerm parent kept] fun r =>
      r.parent == some parent && !kept.contains r.id := by
  intro row r same
  have cell : row.cells.getD 5 .null = .ofText r.parent := same ▸ rfl
  have under := onRow_idTerm cell parent
  have apart : Db.Term.onRow (if kept.isEmpty then .cell (.ofTruth (some true))
      else .member true .text (.slot ⟨0, some 0, .text⟩) (kept.map fun k => .cell (.ofString k)))
      0 [some row] = .ok (.ofTruth (some !kept.contains r.id)) := by
    have own : row.cells.getD 0 .null = .ofString r.id := same ▸ rfl
    have items (ctx : Db.Context) : ∀ ids : List String,
        Db.Term.evalList ctx (ids.map fun k => .cell (.ofString k)) =
          .ok (ids.map Cell.ofString) := by
      intro ids
      induction ids with
      | nil => rfl
      | cons i ids ih =>
          rw [List.map_cons, Db.Term.evalList, ih]
          rfl
    cases kept with
    | nil => rfl
    | cons i rest =>
        have member := Db.isMember_text r.id (i :: rest)
        rw [← own] at member
        rw [List.isEmpty_cons, if_neg Bool.false_ne_true, Db.Term.onRow, Db.Term.eval, items]
        exact congrArg (fun found : Option Bool => Except.ok (Cell.ofTruth (found.map (!·)))) member
  have both : (staleTerm parent kept).onRow 0 [some row] = .ok (.ofTruth (Db.bothTrue
      (r.parent.map (· == parent)) (some !kept.contains r.id))) := by
    refine (bind_of_eq_ok under).trans ((bind_of_eq_ok apart).trans ?_)
    rw [Cell.truth_ofTruth, Cell.truth_ofTruth]
    rfl
  have conjunction (x : Option Bool) (b : Bool) :
      (Db.bothTrue x (some b) == some true) = (x == some true && b) := by
    rcases x with _ | _ | _ <;> cases b <;> rfl
  rw [List.all_cons, List.all_nil, Bool.and_true, holds_of_onRow both, conjunction, map_beq_some]

/-! ## Updates -/

section

variable {α : Type} {definition t : Db.Table} {cells : α → List Cell} {n : Nat} {as : List α}
  {db : Db.Database} {id : α → String}

/-- An update of the record with an id changes it in its place. -/
theorem Keyed.update (keyed : Keyed definition cells id) (holds : Holds definition cells n as t)
    (distinct : (as.map id).Nodup) (free : db.refusal = none)
    (found : db.table? definition.name = some t) (given : List (String × Value))
    (names : ∀ c ∈ definition.name :: "id" :: given.map Prod.fst, '\x00' ∉ c.toList)
    (single : ∀ v ∈ given.map Prod.snd, v.isList = false)
    (few : given.length ≤ Db.Limit.assignments.most) (assigned : List (Nat × Cell))
    (known : given.map (fun g => (definition.target? g.1, Cell.ofParam g.2)) =
      assigned.map fun g => (some (.column g.1), g.2))
    (slot : definition.relation.slot? 0 "id" = some ⟨0, some 0, .text⟩) (key : String)
    (change : α → α) (same : ∀ a, id (change a) = id a)
    (made : ∀ a, definition.assigned (assigned.map fun g => (.column g.1, g.2)) (cells a) =
      cells (change a)) :
    let s : Sql.Update := ⟨definition.name, given.map fun g => (g.1, .param g.2), [isId "id" key]⟩
    ∃ t', db.update s = .ok (db.replace t', (as.filter fun a => id a == key).length) ∧
      Holds definition cells n (as.map fun a => if id a = key then change a else a) t' := by
  intro s
  have values : ∀ v ∈ Value.str key :: given.map Prod.snd, v.isList = false :=
    List.forall_mem_cons.mpr ⟨rfl, single⟩
  obtain ⟨written, bound⟩ := Db.accepted_update names values (Nat.lt_of_le_of_lt few (by decide))
  have cell (a : α) : (cells a).getD 0 .null = .ofText (some (id a)) := by
    obtain ⟨rest, first⟩ := keyed.first a
    rw [first]
    rfl
  have picks : Picks cells [idTerm 0 key] fun a => id a == key := picks_id cell key
  have unnamed : (assigned.map fun g => (Target.column g.1, g.2)).reverse.lookup .rowid = none := by
    rw [List.lookup_eq_none_iff]
    intro g member
    obtain ⟨h, -, rfl⟩ := List.mem_map.mp (List.mem_reverse.mp member)
    rfl
  have targets : List.Forall₂ (fun a g => Db.Database.constant a.2 = .ok g.2 ∧
      t.target? a.1 = some g.1) (given.map fun g => (g.1, Sql.Expr.param g.2))
        (assigned.map fun g => (Target.column g.1, g.2)) := by
    rw [List.forall₂_map_left_iff, List.forall₂_map_right_iff]
    refine (forall₂_eq_iff.mpr known).imp fun g h same => ?_
    obtain ⟨target, value⟩ := Prod.mk.inj same
    exact ⟨congrArg Except.ok value, (holds.target?_eq g.1).trans target⟩
  obtain ⟨t', updated, holds', count⟩ := holds.update keyed.plain unnamed distinct
    (fun a _ => made a) (fun a _ => keyed.full (change a) _) (by
      intro set listed a _ b _ apart
      rw [keyed.uniques] at listed
      rw [List.mem_singleton.mp listed, keyed.agree, same]
      simpa using apart) picks
  have named : Db.resolveList t.names [isId "id" key] = .ok [idTerm 0 key] := by
    rw [holds.names_eq, Db.resolveList, resolve_isId slot]
    rfl
  refine ⟨t', ?_, holds'⟩
  have run := Db.Database.update_eq (s := s) free found ((List.length_map _).trans_le few) written
    bound targets named
  rw [run, updated, count]
  rfl

end

section

variable {db : Db.Database} {s : Store} {n : Nat}

theorem length_filter_key_eq_zero_iff {α : Type} {as : List α} {id : α → String} {key : String} :
    (as.filter fun a => id a == key).length = 0 ↔ as.any (fun a => id a == key) = false := by
  rw [List.length_eq_zero_iff, List.filter_eq_nil_iff, List.any_eq_false]

/-- A widget is changed by a statement whose count tells whether it is stored. -/
theorem changeWidget_runs (represents : Represents db n s) (wellFormed : WellFormed s)
    (r : StoredWidget) : ∃ db' count, db.update (widgetUpdate r) = .ok (db', count) ∧
      (count = 0 ↔ s.hasWidget r.id = false) ∧
      Represents db' n (s.changeWidget r.id fun old =>
        { old with name := r.name, kind := r.kind, props := r.props, query := r.query }) := by
  obtain ⟨t, found, holds⟩ := represents.widgets
  have names : ∀ c ∈ [widgetTable, "id", "name", "type", "props", "query"], '\x00' ∉ c.toList := by
    decide
  have single : ∀ v ∈ [.str r.name, .str r.kind, textValue r.props, textValue r.query],
      v.isList = false := by
    cases r.props <;> cases r.query <;> simp [textValue, Value.isList]
  have first : widgetRowsTable.target? "name" = some (.column 1) := by decide
  have second : widgetRowsTable.target? "type" = some (.column 2) := by decide
  have third : widgetRowsTable.target? "props" = some (.column 3) := by decide
  have fourth : widgetRowsTable.target? "query" = some (.column 4) := by decide
  have known : [("name", .str r.name), ("type", .str r.kind), ("props", textValue r.props),
      ("query", textValue r.query)].map (fun g => (widgetRowsTable.target? g.1, Cell.ofParam g.2)) =
      [(1, .ofString r.name), (2, .ofString r.kind), (3, .ofText r.props),
        (4, .ofText r.query)].map fun g => (some (.column g.1), g.2) := by
    simp only [List.map_cons, List.map_nil, first, second, third, fourth, ofParam_textValue]
    rfl
  have assigned (old : StoredWidget) : widgetRowsTable.assigned
      ([(1, .ofString r.name), (2, .ofString r.kind), (3, .ofText r.props),
        (4, .ofText r.query)].map fun g => (Target.column g.1, g.2)) old.cells =
      StoredWidget.cells
        { old with name := r.name, kind := r.kind, props := r.props, query := r.query } := by
    have text (s : String) : Db.Affinity.store .text (.ofString s) = .ofString s := rfl
    simp [Db.Table.assigned, widgetRowsTable, TableStore.widgets, StoredWidget.cells,
      List.lookup_cons, column_beq, affinity_textColumn, affinity_requiredColumn,
      Db.Affinity.store_text, text]
  obtain ⟨t', updated, holds'⟩ := keyed_widgets.update holds wellFormed.widgets represents.free
    found [("name", .str r.name), ("type", .str r.kind), ("props", textValue r.props),
      ("query", textValue r.query)] names single (by decide : 4 ≤ Db.Limit.assignments.most)
    [(1, .ofString r.name), (2, .ofString r.kind), (3, .ofText r.props), (4, .ofText r.query)]
    known (by decide) r.id
    (fun old => { old with name := r.name, kind := r.kind, props := r.props, query := r.query })
    (fun _ => rfl) assigned
  exact ⟨_, _, updated, length_filter_key_eq_zero_iff, represents.replaceWidgets (Nat.le_refl n) holds'⟩

theorem renameDashboard_runs (represents : Represents db n s) (wellFormed : WellFormed s)
    (r : StoredDashboard) : ∃ db' count, db.update (dashboardUpdate r) = .ok (db', count) ∧
      (count = 0 ↔ s.hasDashboard r.id = false) ∧
      Represents db' n (s.renameDashboard r.id r.name) := by
  obtain ⟨t, found, holds⟩ := represents.dashboards
  have names : ∀ c ∈ [dashboardTable, "id", "name"], '\x00' ∉ c.toList := by decide
  have known : [("name", Value.str r.name)].map
      (fun g => (TableStore.dashboards.target? g.1, Cell.ofParam g.2)) =
      [(1, .ofString r.name)].map fun g => (some (.column g.1), g.2) := by
    have name : TableStore.dashboards.target? "name" = some (.column 1) := by decide
    simp only [List.map_cons, List.map_nil, name]
    rfl
  have assigned (old : StoredDashboard) : TableStore.dashboards.assigned
      ([(1, .ofString r.name)].map fun g => (Target.column g.1, g.2)) old.cells =
      StoredDashboard.cells { old with name := r.name } := by
    have text : Db.Affinity.store .text (.ofString r.name) = .ofString r.name := rfl
    simp [Db.Table.assigned, TableStore.dashboards, StoredDashboard.cells, List.lookup_cons,
      column_beq, affinity_requiredColumn, text]
  obtain ⟨t', updated, holds'⟩ := keyed_dashboards.update holds wellFormed.dashboards
    represents.free found [("name", .str r.name)] names (by simp [Value.isList])
    (by decide : 1 ≤ Db.Limit.assignments.most) [(1, .ofString r.name)] known (by decide) r.id
    (fun old => { old with name := r.name }) (fun _ => rfl) assigned
  exact ⟨_, _, updated, length_filter_key_eq_zero_iff, represents.replaceDashboards (Nat.le_refl n) holds'⟩

/-! ## Deletions -/

end

/-- A deletion leaves the records that are not picked out. -/
theorem Holds.delete {α : Type} {definition t : Db.Table} {cells : α → List Cell} {n : Nat}
    {as : List α} (holds : Holds definition cells n as t) {db : Db.Database}
    (free : db.refusal = none) {d : Sql.Delete} (found : db.table? d.table = some t)
    (written : Db.checkText d.tokens 1 d.filters = .ok ())
    (bound : Db.checkParams d.tokens.params = .ok ()) {filters : List Db.Term}
    (named : Db.resolveList definition.names d.filters = .ok filters) {picked : α → Bool}
    (picks : Picks cells filters picked) :
    ∃ t', db.delete d = .ok (db.replace t', (as.filter picked).length) ∧
      Holds definition cells n (as.filter (!picked ·)) t' := by
  have count : (t.matching filters).length = (as.filter picked).length :=
    (holds.filter_rows picks).length_eq
  have deleted := Db.Database.delete_eq free found written bound (holds.names_eq ▸ named)
  rw [count] at deleted
  exact ⟨_, deleted, holds.filter fun r a same => by rw [picks r a same]⟩

section

variable {db : Db.Database} {s : Store} {n : Nat}

theorem shallow_staleDelete (parent : String) (kept : List String) :
    ((Sql.Expr.conjunction (staleDelete parent kept).filters).map Db.levels).getD 0 ≤
      Db.Limit.depth.most := by
  have items (ids : List String) : Db.mostLevels (ids.map idParam) ≤ 1 := by
    induction ids with
    | nil => exact Nat.zero_le 1
    | cons i ids ih =>
        rw [List.map_cons, Db.mostLevels]
        exact Nat.max_le.mpr ⟨Nat.le_refl 1, ih⟩
  have member : Db.levels (.member true (.col "id") (kept.map idParam)) ≤ 4 := by
    cases kept with
    | nil => decide
    | cons i rest =>
        cases rest with
        | nil => exact Nat.le_refl 4
        | cons j rest =>
            have most := items (j :: rest)
            simp only [List.map_cons, Db.levels, Sql.Expr.col, idParam, if_true] at most ⊢
            omega
  have levels : ((Sql.Expr.conjunction (staleDelete parent kept).filters).map Db.levels).getD 0 =
      max 2 (Db.levels (.member true (.col "id") (kept.map idParam))) + 1 := rfl
  rw [levels, Db.Limit.most]
  omega

theorem plain_staleDelete (parent : String) (kept : List String) :
    ∀ p ∈ (staleDelete parent kept).tokens.parts, Db.IsPlainPart p := by
  have items (ids : List String) :
      ∀ p ∈ Sql.Expr.partsList (ids.map idParam), Db.IsPlainPart p := by
    induction ids with
    | nil => simp [Sql.Expr.partsList]
    | cons i ids ih =>
        rw [List.map_cons, Sql.Expr.partsList, List.forall_mem_append]
        exact ⟨List.forall_mem_singleton.mpr rfl, ih⟩
  have member :
      ∀ p ∈ (Sql.Expr.member true (.col "id") (kept.map idParam)).parts, Db.IsPlainPart p := by
    cases kept with
    | nil => simp [Sql.Expr.parts]
    | cons i rest =>
        have name : '\x00' ∉ "id".toList := by decide
        exact List.forall_mem_cons.mpr ⟨name, items (i :: rest)⟩
  have names : '\x00' ∉ widgetTable.toList ∧ '\x00' ∉ "parent_id".toList := by decide
  have parts : (staleDelete parent kept).tokens.parts = .name widgetTable :: .name "parent_id" ::
      .value (.str parent) :: ((Sql.Expr.member true (.col "id") (kept.map idParam)).parts ++ []) :=
    (staleDelete parent kept).parts_tokens
  rw [parts, List.append_nil]
  exact List.forall_mem_cons.mpr ⟨names.1, List.forall_mem_cons.mpr
    ⟨names.2, List.forall_mem_cons.mpr ⟨rfl, member⟩⟩⟩

/-- The stale children of a widget are removed by one statement, unless its parameters are too many;
what lies below them is left to the foreign keys. -/
theorem staleDelete_runs (represents : Represents db n s) (parent : String) (kept : List String) :
    (∀ e, Db.checkParamCount (staleDelete parent kept).tokens = .error e →
      db.delete (staleDelete parent kept) = .error e) ∧
    (kept.length < Db.Limit.parameters.most → ∃ db',
      db.delete (staleDelete parent kept) = .ok (db',
        (s.widgets.filter fun r => r.parent == some parent && !kept.contains r.id).length) ∧
      Represents db' n { s with widgets := s.widgets.filter fun r =>
        !(r.parent == some parent && !kept.contains r.id) }) := by
  constructor
  · intro e crowded
    rw [Db.Database.delete, Db.checkText_of_crowded (Sql.Delete.legible _)
      (plain_staleDelete parent kept) crowded]
    rfl
  · intro few
    obtain ⟨t, found, holds⟩ := represents.widgets
    have count : (staleDelete parent kept).tokens.params.length ≤ Db.Limit.parameters.most :=
      Db.checkParamCount_eq_ok_iff.mp (checkParamCount_staleDelete.mpr few)
    obtain ⟨written, bound⟩ := Db.accepted_of_parts (Sql.Delete.legible _)
      (plain_staleDelete parent kept) count (shallow_staleDelete parent kept)
    obtain ⟨t', deleted, holds'⟩ := holds.delete (d := staleDelete parent kept) represents.free
      found written bound (resolve_stale parent kept) (picks_stale parent kept)
    exact ⟨_, deleted, represents.replaceWidgets (Nat.le_refl n) holds'⟩

end

section

variable {α : Type} {definition t : Db.Table} {cells : α → List Cell} {n : Nat} {as : List α}
  {db : Db.Database} {id : α → String}

/-- A deletion by an id leaves the records that do not have it in a column. -/
theorem Holds.delete_id (holds : Holds definition cells n as t) (free : db.refusal = none)
    (found : db.table? definition.name = some t) (column : String) (i : Nat) (id : α → String)
    (names : ∀ c ∈ [definition.name, column], '\x00' ∉ c.toList)
    (slot : definition.relation.slot? 0 column = some ⟨0, some i, .text⟩)
    (cell : ∀ a, (cells a).getD i .null = .ofString (id a)) (key : String) :
    ∃ t', db.delete { table := definition.name, filters := [isId column key] } =
        .ok (db.replace t', (as.filter fun a => id a == key).length) ∧
      Holds definition cells n (as.filter fun a => id a != key) t' := by
  have single : (Value.str key).isList = false := rfl
  obtain ⟨written, bound⟩ := Db.accepted_delete names single
  have texts (a : α) : (cells a).getD i .null = .ofText (some (id a)) := cell a
  have picks : Picks cells [idTerm i key] fun a => id a == key := picks_id texts key
  have named : Db.resolveList definition.names [isId column key] = .ok [idTerm i key] := by
    rw [Db.resolveList, resolve_isId slot]
    rfl
  exact holds.delete (d := ⟨definition.name, [isId column key]⟩) free found written bound named
    picks

end

section

variable {db : Db.Database} {s : Store} {n : Nat}

/-- A widget is removed by a statement whose count tells whether it is stored. -/
theorem widgetDelete_runs (represents : Represents db n s) (id : String) : ∃ db' count,
    db.delete (widgetDelete id) = .ok (db', count) ∧ (count = 0 ↔ s.hasWidget id = false) ∧
      Represents db' n { s with widgets := s.widgets.filter (·.id != id) } := by
  obtain ⟨t, found, holds⟩ := represents.widgets
  obtain ⟨t', deleted, holds'⟩ := holds.delete_id represents.free found "id" 0 (fun r => r.id)
    (by decide) (by decide) (fun _ => rfl) id
  exact ⟨_, _, deleted, length_filter_key_eq_zero_iff, represents.replaceWidgets (Nat.le_refl n) holds'⟩

theorem dashboardDelete_runs (represents : Represents db n s) (id : String) : ∃ db' count,
    db.delete (dashboardDelete id) = .ok (db', count) ∧ (count = 0 ↔ s.hasDashboard id = false) ∧
      Represents db' n { s with dashboards := s.dashboards.filter (·.id != id) } := by
  obtain ⟨t, found, holds⟩ := represents.dashboards
  obtain ⟨t', deleted, holds'⟩ := holds.delete_id represents.free found "id" 0 (fun r => r.id)
    (by decide) (by decide) (fun _ => rfl) id
  exact ⟨_, _, deleted, length_filter_key_eq_zero_iff, represents.replaceDashboards (Nat.le_refl n) holds'⟩

theorem clearDashboard_runs (represents : Represents db n s) (id : String) : ∃ db' count,
    db.delete (placementDelete id) = .ok (db', count) ∧ Represents db' n (s.clearDashboard id) := by
  obtain ⟨t, found, holds⟩ := represents.placements
  obtain ⟨t', deleted, holds'⟩ := holds.delete_id represents.free found "dashboard_id" 0
    (fun p => p.dashboard) (by decide) (by decide) (fun _ => rfl) id
  exact ⟨_, _, deleted, represents.replacePlacements (Nat.le_refl n) holds'⟩

end

end Store

end QueryBoard
