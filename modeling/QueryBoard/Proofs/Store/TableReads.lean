import QueryBoard.Proofs.Db.Read
import QueryBoard.Proofs.Store.Closure
import QueryBoard.Proofs.Store.TableWrites

/-!
# The queries of the store

Where a database stands for a store, the queries of the store give the rows that the store reads its
widgets from.  All widgets come in the order of their rows.  A widget comes with all that is below
it: the recursion goes through its rows in the order of a queue, each followed by its children.
-/

set_option autoImplicit false

namespace QueryBoard

open Db (Cell Row)

namespace Store

/-! ## Recursions over records -/

section

variable {α : Type} [DecidableEq α] {cells : α → List Cell} {P : α → Prop}
  (apart : ∀ a b, P a → P b → Db.sameCells (cells a) (cells b) = (a == b))
include apart

theorem eraseDupsBy_loop_map (as bs : List α) (made : ∀ a ∈ as, P a) (met : ∀ b ∈ bs, P b) :
    List.eraseDupsBy.loop Db.sameCells (as.map cells) (bs.map cells) =
      (List.eraseDupsBy.loop (· == ·) as bs).map cells := by
  induction as generalizing bs with
  | nil => simp [List.eraseDupsBy.loop]
  | cons a as ih =>
      rw [List.forall_mem_cons] at made
      have seen : (bs.map cells).any (Db.sameCells (cells a)) = bs.any (a == ·) := by
        rw [List.any_map, Bool.eq_iff_iff, List.any_eq_true, List.any_eq_true]
        exact exists_congr fun b => and_congr_right fun member =>
          Bool.eq_iff_iff.mp (apart a b made.1 (met b member))
      rw [List.map_cons, List.eraseDupsBy.loop, List.eraseDupsBy.loop, seen]
      cases bs.any (a == ·) with
      | true => exact ih bs made.2 met
      | false => exact ih (a :: bs) made.2 (List.forall_mem_cons.mpr ⟨made.1, met⟩)

theorem freshRows_map {seen rows : List α} (met : ∀ a ∈ seen, P a) (made : ∀ a ∈ rows, P a) :
    Db.freshRows (seen.map cells) (rows.map cells) =
      (rows.eraseDups.filter fun a => decide (a ∉ seen)).map cells := by
  have dups : (rows.map cells).eraseDupsBy Db.sameCells = rows.eraseDups.map cells :=
    eraseDupsBy_loop_map apart rows [] made (by simp)
  rw [Db.freshRows, dups, List.filter_map]
  refine congrArg (List.map cells) (List.filter_congr fun a member => ?_)
  have known : (seen.map cells).any (Db.sameCells (cells a)) = seen.contains a := by
    rw [List.any_map, Bool.eq_iff_iff, List.any_eq_true, List.contains_iff_mem]
    constructor
    · rintro ⟨b, listed, same⟩
      rw [Function.comp_apply, apart a b (made a (List.mem_eraseDups.mp member)) (met b listed),
        beq_iff_eq] at same
      exact same ▸ listed
    · intro listed
      refine ⟨a, listed, ?_⟩
      rw [Function.comp_apply, apart a a (met a listed) (met a listed), beq_self_eq_true]
  rw [Function.comp_apply, known]
  simp

variable {follows : α → α → Bool} {pool : List α}

/-- The rows that are followed are visited in the same order as the records. -/
theorem followRows_eq_visit (distinct : pool.Nodup) (known : ∀ a ∈ pool, P a)
    (next : List Cell → Except Db.DbError (List (List Cell)))
    (step : ∀ a, P a → next (cells a) = .ok ((pool.filter (follows a)).map cells)) (bound : Nat)
    (seen queue : List α) (met : ∀ a ∈ seen, P a) (waiting : ∀ a ∈ queue, P a)
    (enough : queue ≠ [] →
      (pool.filter fun a => decide (a ∉ seen)).length + queue.length ≤ bound) :
    Db.followRows next bound (seen.map cells) (queue.map cells) =
      .ok ((visit follows (pool.filter fun a => decide (a ∉ seen)) queue).map cells) := by
  induction bound generalizing seen queue with
  | zero =>
      cases queue with
      | nil => rw [visit]; rfl
      | cons a queue => simp at enough
  | succ bound ih =>
      cases queue with
      | nil => rw [visit]; rfl
      | cons a queue =>
          rw [List.forall_mem_cons] at waiting
          let new := (pool.filter (follows a)).filter fun b => decide (b ∉ seen)
          have parts : (pool.filter fun a => decide (a ∉ seen)).partition (follows a) =
              (new, pool.filter fun b => decide (b ∉ seen ++ new)) := by
            rw [List.partition_eq_filter_filter, List.filter_filter, List.filter_filter]
            refine Prod.ext ?_ (List.filter_congr fun b member => ?_)
            · exact (List.filter_congr fun b _ => Bool.and_comm _ _).trans List.filter_filter.symm
            simp only [new, List.mem_append, List.mem_filter, member, Function.comp_apply]
            grind
          have after : ∀ b ∈ pool.filter (follows a), P b :=
            fun b member => known b (List.mem_filter.mp member).1
          have added : ∀ b ∈ new, P b := fun b member => after b (List.mem_filter.mp member).1
          have fresh : Db.freshRows (seen.map cells) ((pool.filter (follows a)).map cells) =
              new.map cells := by
            rw [freshRows_map apart met after, eraseDups_of_nodup (distinct.filter _)]
          have count := length_partition (follows a) (pool.filter fun a => decide (a ∉ seen))
          rw [List.map_cons, Db.followRows, step a waiting.1, ok_bind, fresh]
          dsimp only
          rw [← List.map_append, ← List.map_append, visit, parts]
          rw [parts] at count
          dsimp only at count
          have left := enough (by simp)
          rw [ih _ _ (List.forall_mem_append.mpr ⟨met, added⟩)
            (List.forall_mem_append.mpr ⟨waiting.2, added⟩) fun _ => by
              simp only [List.length_append, List.length_cons] at left ⊢
              omega]
          rfl

theorem freshRows_nil {rows : List α} (made : ∀ a ∈ rows, P a) :
    Db.freshRows [] (rows.map cells) = rows.eraseDups.map cells := by
  have none : ∀ a ∈ ([] : List α), P a := by simp
  refine (freshRows_map apart none made).trans (congrArg _ (List.filter_eq_self.mpr fun a _ => ?_))
  simp

/-- What a recursion makes of its first rows are the records that follow from theirs. -/
theorem followRows_eq_closure (distinct : pool.Nodup) (known : ∀ a ∈ pool, P a)
    {next : List Cell → Except Db.DbError (List (List Cell))}
    (step : ∀ a, P a → next (cells a) = .ok ((pool.filter (follows a)).map cells))
    {first : List α} (made : ∀ a ∈ first, P a) {bound : Nat}
    (enough : first ≠ [] → pool.length + first.eraseDups.length ≤ bound) :
    Db.followRows next bound (Db.freshRows [] (first.map cells))
      (Db.freshRows [] (first.map cells)) = .ok ((closure follows pool first).map cells) := by
  have waiting : ∀ a ∈ first.eraseDups, P a := fun a member => made a (List.mem_eraseDups.mp member)
  have rows : visit follows (pool.filter fun a => decide (a ∉ first.eraseDups)) first.eraseDups =
      closure follows pool first := by
    rw [closure, eraseDups_of_nodup (distinct.filter _)]
    simp only [List.mem_eraseDups]
  have left := List.length_filter_le (fun a => decide (a ∉ first.eraseDups)) pool
  rw [freshRows_nil apart made, ← rows]
  refine followRows_eq_visit apart distinct known next step bound _ _ waiting waiting fun some => ?_
  have first := enough fun none => some (by rw [none]; rfl)
  omega

end

/-! ## Widgets as rows -/

theorem sameCells_widget (a b : StoredWidget) : Db.sameCells a.cells b.cells = (a == b) := by
  have exact (r : StoredWidget) : ∀ c ∈ r.cells, c.isExact = true := by
    simp [StoredWidget.cells]
  rw [Bool.eq_iff_iff, beq_iff_eq, Db.sameCells_iff (exact a) (exact b), StoredWidget.mk.injEq]
  simp [StoredWidget.cells, Cell.ofString_inj, Cell.ofText_inj]

/-- The columns of a table of texts. -/
def textSlots (n : Nat) : List Db.Slot := (List.range n).map fun i => ⟨0, some i, .text⟩

theorem cells_textSlots {r : Row} {a : StoredWidget} (same : r.cells = a.cells)
    (rest : List (Option Row)) :
    (textSlots 6).map (Db.JoinedRow.cell (some r :: rest)) = a.cells := by
  obtain ⟨id, cells⟩ := r
  subst same
  rfl

variable {db : Db.Database} {n : Nat} {s : Store}

theorem toText_ofString (column : Nat) (name text : String) :
    (Cell.ofString text).toText column name = .ok text := by
  rw [Cell.ofString, Cell.toText, Text.Utf8.strict?_toUTF8]

theorem toText?_ofText (column : Nat) (name : String) (text : Option String) :
    (Cell.ofText text).toText? column name = .ok text := by
  cases text with
  | none => rfl
  | some text =>
      have read := toText_ofString column name text
      rw [Cell.ofText_some, Cell.toText?, read]
      · rfl
      · simp [Cell.ofString]

/-- A row with the cells of a widget is read as the widget. -/
theorem ofRow_widget (columns : List String) (a : StoredWidget) :
    StoredWidget.ofRow { columns, cells := a.cells } = .ok a := by
  simp [StoredWidget.ofRow, Db.ResultRow.text, Db.ResultRow.text?, StoredWidget.cells,
    toText_ofString, toText?_ofText, ok_bind]

/-- A query that gives the rows of widgets loads the widgets. -/
theorem load_widgets {q : Sql.Query} {columns : List String} {rows : List StoredWidget}
    (found : db.query q = .ok { columns, rows := rows.map StoredWidget.cells }) :
    TableStore.load ⟨db⟩ q StoredWidget.ofRow = .ok rows := by
  have each : (rows.map StoredWidget.cells).mapM
      (fun cells => StoredWidget.ofRow { columns, cells }) = .ok rows := by
    rw [List.mapM_map]
    exact (mapM_eq_ok_map fun a _ => ofRow_widget columns a).trans (congrArg _ (List.map_id rows))
  rw [TableStore.load, found]
  simp only [ok_bind, each]
  rfl

/-! ## Blocks over the widgets -/

theorem resolve_widgetColumns {t : Db.Table}
    (holds : Holds widgetRowsTable StoredWidget.cells n s.widgets t) {bindings : List Db.Binding}
    (only : bindings.zipIdx.filter (fun b => Db.sameName widgetTable b.1.label) =
      [(⟨widgetTable, t.relation⟩, 0)]) :
    Db.resolveList (Db.selectNames bindings) (widgetBlock.items.map (·.expr)) =
      .ok ((textSlots 6).map .slot) := by
  have slots : widgetColumns.map (t.relation.slot? 0) = (textSlots 6).map some := by
    rw [List.map_congr_left fun c _ => holds.slot?_eq 0 c]
    decide
  have items : widgetBlock.items.map (·.expr) =
      widgetColumns.map (Sql.Expr.tableCol widgetTable) := by
    rw [widgetBlock, List.map_map]
    rfl
  rw [items]
  exact Db.resolveList_eq_ok (Db.resolve_tableCols only slots)

/-! ## All widgets -/

/-- The plan of a block of all columns of the widgets alone. -/
def widgetPlan (t : Db.Table) (columns : List String) (filters : List Db.Term) : Db.Plan :=
  { bindings := [⟨widgetTable, t.relation⟩], columns, items := (textSlots 6).map .slot, filters,
    joins := [], groupBy := [], orderBy := [] }

theorem planBlock_widgets {t : Db.Table}
    (holds : Holds widgetRowsTable StoredWidget.cells n s.widgets t) (statement : Sql.Tokens)
    {conditions : List Sql.Expr} {filters : List Db.Term}
    (named : Db.resolveList (Db.selectNames [⟨widgetTable, t.relation⟩]) conditions = .ok filters) :
    ∃ columns, Db.planBlock statement [⟨widgetTable, t.relation⟩]
      { widgetBlock with filters := conditions } = .ok (widgetPlan t columns filters) := by
  have own : Db.sameName widgetTable widgetTable = true := by decide
  have items : Db.resolveList (Db.selectNames [⟨widgetTable, t.relation⟩])
      (widgetBlock.items.map (·.expr)) = .ok ((textSlots 6).map .slot) :=
    resolve_widgetColumns holds (by simp [own])
  exact Db.planBlock_eq_ok (s := { widgetBlock with filters := conditions }) statement
    (by decide : widgetBlock.items ≠ []) (by decide : 6 ≤ Db.Limit.resultColumns.most) rfl rfl
    items named rfl (by decide : 1 ≤ Db.Limit.joined.most)

theorem accepted_widgetBlock : Db.checkText widgetBlock.tokens 1 [] = .ok () ∧
    Db.checkParams widgetBlock.tokens.params = .ok () := by
  let names := widgetColumns.flatMap (fun c => [widgetTable, c]) ++ [widgetTable]
  have whole : ∀ c ∈ names, '\x00' ∉ c.toList := by decide
  have parts : widgetBlock.tokens.parts = names.map .name := widgetBlock.parts_tokens
  have params : widgetBlock.tokens.params = [] := by
    rw [Sql.Tokens.params_eq_filterMap, parts]
    rfl
  refine Db.accepted_of_parts (Sql.Select.legible widgetBlock) ?_ ?_ (by decide)
  · rw [parts]
    exact List.forall_mem_map.mpr whole
  · rw [params]
    exact Nat.zero_le _

/-- The rows of a block of all columns of the widgets, for some rows of their table. -/
theorem rows_textSlots {rows : List Row} {as : List StoredWidget}
    (same : List.Forall₂ (fun r a => r.cells = StoredWidget.cells a) rows as) :
    (rows.map fun r => [some r]).map (fun r => (textSlots 6).map (Db.JoinedRow.cell r)) =
      as.map StoredWidget.cells := by
  rw [List.map_map]
  exact forall₂_eq_iff.mp (same.imp fun r a same => cells_textSlots same [])

theorem query_widgets (represents : Represents db n s) : ∃ columns,
    db.query widgetsQuery = .ok { columns, rows := s.widgets.map StoredWidget.cells } := by
  obtain ⟨t, found, holds⟩ := represents.widgets
  obtain ⟨written, bound⟩ := accepted_widgetBlock
  have unfiltered : Db.resolveList (Db.selectNames [⟨widgetTable, t.relation⟩]) [] = .ok [] := rfl
  obtain ⟨columns, planned⟩ := planBlock_widgets holds widgetBlock.tokens unfiltered
  have order : ((widgetPlan t columns []).firstWay t).order = [] :=
    (congrArg (fun t => ((widgetPlan t columns []).firstWay t).order) holds.made).trans rfl
  have source : (widgetPlan t columns []).source = t.rows.map fun r => [some r] := by
    rw [Db.Plan.source_plain rfl rfl rfl, Db.Plan.firstRows_of_plain rfl rfl order]
    rfl
  have result : (widgetPlan t columns []).result = .ok (s.widgets.map StoredWidget.cells) := by
    rw [Db.Plan.result_of_slots rfl rfl rfl, source, rows_textSlots holds.rows]
  have tables : widgetBlock.tables.mapM (Db.bind db) = .ok [⟨widgetTable, t.relation⟩] :=
    mapM_eq_ok_iff.mpr (.cons (Db.bind_eq_ok found none) .nil)
  have plans := Db.planBlock_eq_ok_iff.mp planned
  exact ⟨columns, Db.select_eq_ok_iff.mpr
    ⟨_, _, ⟨written, ⟨_, tables, plans⟩, bound, result⟩, rfl⟩⟩

/-! ## A widget and all below it -/

/-- What the recursion makes of rows: the columns of the widgets. -/
def madeWidgets (rows : List (List Cell)) : Db.Relation :=
  Db.madeRelation (widgetColumns.map fun name => (name, .text)) rows

theorem rows_madeWidgets (as : List StoredWidget) : List.Forall₂
    (fun (r : Row) a => r.cells = StoredWidget.cells a)
      (madeWidgets (as.map StoredWidget.cells)).rows as := by
  rw [madeWidgets, Db.madeRelation, List.forall₂_map_left_iff, List.forall₂_map_left_iff,
    List.forall₂_same]
  intro a _
  obtain ⟨id, name, kind, props, query, parent⟩ := a
  cases props <;> cases query <;> cases parent <;> rfl

theorem slot?_madeWidgets (i : Nat) (rows : List (List Cell)) :
    (madeWidgets rows).slot? i = (madeWidgets []).slot? i := rfl

def subtreeName : String := "subtree"

def topBlock (id : String) : Sql.Select :=
  { widgetBlock with filters := [(Sql.Expr.tableCol widgetTable "id").eq (idParam id)] }

def nextBlock : Sql.Select :=
  { widgetBlock with
    joins := [⟨.inner, ⟨subtreeName, none⟩,
      (Sql.Expr.tableCol widgetTable "parent_id").eq (.tableCol subtreeName "id")⟩] }

/-- The condition that a widget is a child of a widget that the recursion has, its names looked
up. -/
def childTerm (a : Db.Affinity) : Db.Term := Db.equalSlots ⟨0, some 5, .text⟩ ⟨1, some 0, a⟩

/-- What the next block gives for a row that the recursion has. -/
def childRowsOf (t : Db.Table) (statement : Sql.Tokens) (row : List Cell) :
    Except Db.DbError (List (List Cell)) := do
  (← Db.planBlock statement [⟨widgetTable, t.relation⟩, ⟨subtreeName, madeWidgets [row]⟩]
    nextBlock).result

theorem bind?_next {t : Db.Table} (found : db.table? widgetTable = some t) (id : String) :
    nextBlock.tables.mapM (Db.Recursion.bind? ⟨subtreeName, topBlock id, nextBlock⟩ db) =
      .ok [some ⟨widgetTable, t.relation⟩, none] := by
  have own : Db.sameName subtreeName subtreeName = true := by decide
  have other : Db.sameName subtreeName widgetTable = false := by decide
  refine mapM_eq_ok_iff.mpr (.cons ?_ (.cons ?_ .nil))
  · rw [Db.Recursion.bind?, other, Db.bind_eq_ok found none]
    rfl
  · rw [Db.Recursion.bind?, own]
    rfl

theorem eq_of_perm_of_length_le {α : Type} {l m : List α} (perm : l.Perm m) (few : m.length ≤ 1) :
    l = m := by
  match m, few with
  | [], _ => exact perm.eq_nil
  | [a], _ => exact List.perm_singleton.mp perm

/-- The rows that are joined to a single one. -/
theorem join_single (condition : Db.Term) (x : Row) (rows : List Row) :
    (rows.flatMap fun r => ([x].map fun x => [some r, some x]).filter (Db.holds condition)) =
      (rows.filter fun r => Db.holds condition [some r, some x]).map fun r => [some r, some x] := by
  induction rows with
  | nil => rfl
  | cons r rows ih =>
      rw [List.flatMap_cons, ih, List.filter_cons]
      split
      · next found => simp [found]
      · next other => simp [other]

section

variable {t : Db.Table} (holds : Holds widgetRowsTable StoredWidget.cells n s.widgets t)
include holds

/-- The next block is planned whatever cells the recursion makes. -/
theorem planBlock_next (statement : Sql.Tokens) {made : Db.Relation} {a : Db.Affinity}
    (slot : made.slot? 1 "id" = some ⟨1, some 0, a⟩) : ∃ columns,
    Db.planBlock statement [⟨widgetTable, t.relation⟩, ⟨subtreeName, made⟩] nextBlock =
      .ok { bindings := [⟨widgetTable, t.relation⟩, ⟨subtreeName, made⟩], columns
            items := (textSlots 6).map .slot, filters := [], joins := [(.inner, childTerm a)]
            groupBy := [], orderBy := [] } := by
  have own : Db.sameName widgetTable widgetTable = true := by decide
  have other : Db.sameName widgetTable subtreeName = false := by decide
  have other' : Db.sameName subtreeName widgetTable = false := by decide
  have own' : Db.sameName subtreeName subtreeName = true := by decide
  let bindings : List Db.Binding := [⟨widgetTable, t.relation⟩, ⟨subtreeName, made⟩]
  have onlyW : bindings.zipIdx.filter (fun b => Db.sameName widgetTable b.1.label) =
      [(⟨widgetTable, t.relation⟩, 0)] := by simp [bindings, own, other]
  have onlyS : bindings.zipIdx.filter (fun b => Db.sameName subtreeName b.1.label) =
      [(⟨subtreeName, made⟩, 1)] := by simp [bindings, own', other']
  have items : Db.resolveList (Db.selectNames bindings) (widgetBlock.items.map (·.expr)) =
      .ok ((textSlots 6).map .slot) := resolve_widgetColumns holds onlyW
  have parent : Db.resolve (Db.selectNames bindings) (.tableCol widgetTable "parent_id") =
      .ok (.slot ⟨0, some 5, .text⟩) :=
    Db.resolve_tableCol onlyW (by rw [holds.slot?_eq]; decide)
  have condition : Db.resolveList (Db.selectNames bindings)
      (nextBlock.joins.map (·.condition)) = .ok [childTerm a] :=
    Db.resolveList_eq_ok (.cons
      (Db.resolve_equalSlots parent (Db.resolve_tableCol onlyS slot)) .nil)
  exact Db.planBlock_eq_ok (s := nextBlock) statement (by decide : widgetBlock.items ≠ [])
    (by decide : 6 ≤ Db.Limit.resultColumns.most) rfl rfl items rfl condition
    (by decide : 2 ≤ Db.Limit.joined.most)

/-- The next block gives the children of the widget that it is run for. -/
theorem result_next {columns : List String} (a : StoredWidget) :
    Db.Plan.result { bindings := [⟨widgetTable, t.relation⟩, ⟨subtreeName, madeWidgets [a.cells]⟩]
                     columns, items := (textSlots 6).map .slot, filters := []
                     joins := [(.inner, childTerm .text)], groupBy := [], orderBy := [] } =
      .ok ((s.widgets.filter fun b => b.parent == some a.id).map StoredWidget.cells) := by
  obtain ⟨x, made, cells⟩ : ∃ x, (madeWidgets [a.cells]).rows = [x] ∧ x.cells = a.cells :=
    (exists_eq_singleton (rows_madeWidgets [a]) :)
  have child {r : Row} {b : StoredWidget} (same : r.cells = b.cells) :
      Db.holds (childTerm .text) [some r, some x] = (b.parent == some a.id) := by
    have parent : Db.JoinedRow.cell [some r, some x] ⟨0, some 5, .text⟩ = .ofText b.parent := by
      obtain ⟨_, _⟩ := r
      subst same
      rfl
    have id : Db.JoinedRow.cell [some r, some x] ⟨1, some 0, .text⟩ = .ofText (some a.id) := by
      obtain ⟨_, _⟩ := x
      subst cells
      rfl
    rw [childTerm, Db.holds_equalSlots rfl rfl parent id]
    cases b.parent with
    | none => rfl
    | some p =>
        rw [Option.any_some, Bool.eq_iff_iff, beq_iff_eq, beq_iff_eq]
        exact eq_comm
  have all (rows : List Db.JoinedRow) : (rows.filter fun r =>
      ([] : List Db.Term).all (Db.holds · r)) = rows := List.filter_eq_self.mpr fun _ _ => rfl
  rw [Db.Plan.result_of_slots rfl rfl rfl, Db.Plan.source_inner rfl rfl rfl, all, made]
  refine congrArg Except.ok ?_
  refine (congrArg (List.map _) (join_single _ x t.rows)).trans ?_
  rw [List.map_map]
  exact forall₂_eq_iff.mp ((holds.filter_rows fun r b same => child same).imp
    fun r b same => cells_textSlots same [some x])

theorem childRowsOf_cells (statement : Sql.Tokens) (a : StoredWidget) :
    childRowsOf t statement a.cells =
      .ok ((s.widgets.filter fun b => b.parent == some a.id).map StoredWidget.cells) := by
  have slot : (madeWidgets [a.cells]).slot? 1 "id" = some ⟨1, some 0, .text⟩ := by
    rw [slot?_madeWidgets]
    decide
  obtain ⟨columns, planned⟩ := planBlock_next holds statement slot
  exact (bind_of_eq_ok planned).trans (result_next holds a)

theorem result_top {columns : List String} {id : String} (distinct : s.widgetIds.Nodup) :
    (widgetPlan t columns [idTerm 0 id]).result =
      .ok ((s.widgets.filter fun a => a.id == id).map StoredWidget.cells) := by
  have picks : Picks StoredWidget.cells [idTerm 0 id] fun a => some a.id == some id :=
    picks_id (fun _ => rfl) id
  have found : List.Forall₂ (fun r a => r.cells = StoredWidget.cells a)
      (t.rows.filter fun r => [idTerm 0 id].all (Db.holds · [some r]))
        (s.widgets.filter fun a => a.id == id) := holds.filter_rows picks
  have few : (s.widgets.filter fun a => a.id == id).length ≤ 1 :=
    length_filter_key_le_one distinct id
  have perm : ((widgetPlan t columns [idTerm 0 id]).firstRows t.relation).Perm t.rows :=
    Db.Plan.perm_firstRows rfl rfl
  have same : ((widgetPlan t columns [idTerm 0 id]).firstRows t.relation).filter
      (fun r => [idTerm 0 id].all (Db.holds · [some r])) =
        t.rows.filter fun r => [idTerm 0 id].all (Db.holds · [some r]) := by
    rw [← found.length_eq] at few
    exact eq_of_perm_of_length_le (perm.filter _) few
  rw [Db.Plan.result_of_slots rfl rfl rfl, Db.Plan.source_single rfl rfl, List.filter_map]
  refine congrArg Except.ok ?_
  refine (congrArg (fun rows => (List.map _ rows).map _) same).trans ?_
  exact rows_textSlots found

theorem resolve_top (id : String) :
    Db.resolveList (Db.selectNames [⟨widgetTable, t.relation⟩]) (topBlock id).filters =
      .ok [idTerm 0 id] := by
  have own : Db.sameName widgetTable widgetTable = true := by decide
  have column : Db.resolve (Db.selectNames [⟨widgetTable, t.relation⟩])
      (.tableCol widgetTable "id") = .ok (.slot ⟨0, some 0, .text⟩) :=
    Db.resolve_tableCol (b := ⟨widgetTable, t.relation⟩) (i := 0) (by simp [own])
      (by rw [holds.slot?_eq]; decide)
  simp only [topBlock, Db.resolveList, Sql.Expr.eq, Db.resolve, column]
  rfl

/-- The recursion makes the rows of a widget and of all that is below it. -/
theorem relation_subtree (distinct : s.widgetIds.Nodup) (found : db.table? widgetTable = some t)
    (statement : Sql.Tokens) (id : String) :
    Db.Recursion.relation ⟨subtreeName, topBlock id, nextBlock⟩ db statement =
      .ok (madeWidgets ((s.widgetRows id).map StoredWidget.cells)) := by
  have tables : (topBlock id).tables.mapM (Db.bind db) = .ok [⟨widgetTable, t.relation⟩] :=
    mapM_eq_ok_iff.mpr (.cons (Db.bind_eq_ok found none) .nil)
  obtain ⟨columns, planned⟩ := planBlock_widgets holds statement (resolve_top holds id)
  have unknown : (Db.madeRelation (widgetColumns.map fun c => (c, .none)) []).slot? 1 "id" =
      some ⟨1, some 0, .none⟩ := by
    decide
  obtain ⟨_, nextPlanned⟩ := planBlock_next holds statement unknown
  let top := s.widgets.filter fun a => a.id == id
  have once : s.widgets.Nodup := List.Nodup.of_map _ distinct
  have apart (a b : StoredWidget) (_ : True) (_ : True) :
      Db.sameCells a.cells b.cells = (a == b) := sameCells_widget a b
  have bound : Db.Recursion.bound (Db.freshRows [] (top.map StoredWidget.cells))
      (nextBlock.tables.zip [some ⟨widgetTable, t.relation⟩, none]) =
        top.eraseDups.length * (1 * t.rows.length + 1) + 1 := by
    rw [freshRows_nil apart fun _ _ => trivial, Db.Recursion.bound, List.length_map]
    rfl
  have enough : top ≠ [] → s.widgets.length + top.eraseDups.length ≤
      top.eraseDups.length * (1 * t.rows.length + 1) + 1 := by
    intro some
    obtain ⟨a, member⟩ := List.exists_mem_of_ne_nil _ some
    have one := List.length_pos_of_mem (List.mem_eraseDups.mpr member)
    have many := Nat.le_mul_of_pos_left s.widgets.length one
    rw [holds.rows.length_eq, Nat.one_mul, Nat.mul_succ]
    omega
  exact Db.Recursion.relation_eq_ok tables (bind?_next found id) rfl nextPlanned planned rfl
    (result_top holds distinct) (followRows_eq_closure apart once (fun _ _ => trivial)
      (fun a _ => childRowsOf_cells holds statement a) (fun _ _ => trivial) (bound ▸ enough))

end

/-- The rows of a widget and of all that is below it are found in the tables. -/
theorem query_subtree (represents : Represents db n s) (distinct : s.widgetIds.Nodup)
    (id : String) : ∃ columns, db.query (subtreeQuery id) =
      .ok { columns, rows := (s.widgetRows id).map StoredWidget.cells } := by
  obtain ⟨t, found, holds⟩ := represents.widgets
  let made := madeWidgets ((s.widgetRows id).map StoredWidget.cells)
  have recursion := relation_subtree holds distinct found (subtreeQuery id).tokens id
  have items : Db.resolveList (Db.selectNames [⟨subtreeName, made⟩])
      (widgetColumns.map Sql.Expr.col) = .ok ((textSlots 6).map .slot) := by
    have slots : widgetColumns.map ((madeWidgets []).slot? 0) = (textSlots 6).map some := by
      decide
    refine Db.resolveList_eq_ok ?_
    rw [List.forall₂_map_left_iff, List.forall₂_map_right_iff]
    refine (forall₂_eq_iff.mpr slots).imp fun c slot same => ?_
    have name : Db.selectNames [⟨subtreeName, made⟩] none c = .ok (.slot slot) :=
      Db.selectNames_eq_ok (b := ⟨subtreeName, made⟩) (i := 0) (by simp) same
    rw [Sql.Expr.col, Db.resolve, name]
  have some : (subtreeQuery id).body.items ≠ [] := by simp [subtreeQuery, widgetColumns]
  obtain ⟨columns, planned⟩ := Db.planBlock_eq_ok (subtreeQuery id).tokens some
    (by decide : 6 ≤ Db.Limit.resultColumns.most) rfl rfl items rfl rfl
    (by decide : 1 ≤ Db.Limit.joined.most)
  have own : Db.sameName subtreeName subtreeName = true := by decide
  have tables : (subtreeQuery id).body.tables.mapM
      (Db.Recursion.bind? ⟨subtreeName, topBlock id, nextBlock⟩ db) = .ok [none] := by
    refine mapM_eq_ok_iff.mpr (.cons ?_ .nil)
    exact if_pos own
  have bound : Db.checkParams (subtreeQuery id).tokens.params = .ok () := by
    rw [Sql.Tokens.params_eq_filterMap, Sql.Query.parts_tokens]
    rfl
  have result : Db.Plan.result { bindings := [⟨subtreeName, made⟩], columns
                                 items := (textSlots 6).map .slot, filters := [], joins := []
                                 groupBy := [], orderBy := [] } =
      .ok ((s.widgetRows id).map StoredWidget.cells) := by
    rw [Db.Plan.result_of_slots rfl rfl rfl, Db.Plan.source_plain rfl rfl rfl,
      Db.Plan.firstRows_of_made rfl]
    exact congrArg Except.ok (rows_textSlots (rows_madeWidgets _))
  exact ⟨columns, Db.Database.query_eq_ok (r := ⟨subtreeName, topBlock id, nextBlock⟩) recursion
    tables planned bound result⟩

end Store

namespace TableStore

open Store

variable {db : Db.Database} {n : Nat} {s : Store} (represents : Represents db n s)
include represents

/-- The widgets that are read from the tables are those of the store. -/
theorem allWidgets_eq : allWidgets ⟨db⟩ = s.allWidgets := by
  obtain ⟨columns, found⟩ := query_widgets represents
  rw [allWidgets, load_widgets found]
  rfl

/-- A widget that is read from the tables is that of the store. -/
theorem widget_eq (distinct : s.widgetIds.Nodup) (id : String) :
    widget ⟨db⟩ id = s.widget id := by
  obtain ⟨columns, found⟩ := query_subtree represents distinct id
  rw [widget, load_widgets found]
  rfl

end TableStore

end QueryBoard
