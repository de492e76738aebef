import QueryBoard.Db.Recursion
import QueryBoard.Proofs.Db.Row
import QueryBoard.Proofs.Db.Write

/-!
# Blocks of columns

A block that selects columns, neither grouped nor in an order of its own, gives the cells of its
columns for each row that its tables join to.
-/

set_option autoImplicit false

namespace QueryBoard.Db

/-! ## Looking columns up -/

/-- A column is found in the only table that may be meant. -/
theorem selectNames_eq_ok {bindings : List Binding} {table : Option String} {column : String}
    {b : Binding} {i : Nat} {s : Slot}
    (only : bindings.zipIdx.filter (fun b => table.all (sameName · b.1.label)) = [(b, i)])
    (slot : b.relation.slot? i column = some s) :
    selectNames bindings table column = .ok (.slot s) := by
  unfold selectNames
  simp only [only, List.filter_cons, List.filter_nil]
  by_cases indexed : (b.relation.index? column).isSome = true <;> simp [indexed, slot]

theorem resolveList_eq_ok {names : Names} {es : List Sql.Expr} {ts : List Term}
    (each : List.Forall₂ (fun e t => resolve names e = .ok t) es ts) :
    resolveList names es = .ok ts := by
  induction each with
  | nil => rfl
  | cons first _ ih =>
      rw [resolveList, first, ok_bind, ih]
      rfl

section

variable {bindings : List Binding} {table : String} {b : Binding} {i : Nat}
  (only : bindings.zipIdx.filter (fun b => sameName table b.1.label) = [(b, i)])
include only

theorem resolve_tableCol {column : String} {slot : Slot}
    (found : b.relation.slot? i column = some slot) :
    resolve (selectNames bindings) (.tableCol table column) = .ok (.slot slot) := by
  have name : selectNames bindings (some table) column = .ok (.slot slot) :=
    selectNames_eq_ok only found
  rw [Sql.Expr.tableCol, resolve, name]

theorem resolve_tableCols {columns : List String} {slots : List Slot}
    (found : columns.map (b.relation.slot? i) = slots.map some) :
    List.Forall₂ (fun e t => resolve (selectNames bindings) e = .ok t)
      (columns.map (Sql.Expr.tableCol table)) (slots.map .slot) := by
  rw [List.forall₂_map_left_iff, List.forall₂_map_right_iff]
  exact (forall₂_eq_iff.mpr found).imp fun c slot same => resolve_tableCol only same

end

theorem bind_eq_ok {db : Database} {table : String} {t : Table}
    (found : db.table? table = some t) (label : Option String) :
    bind db ⟨table, label⟩ = .ok ⟨Sql.TableRef.name ⟨table, label⟩, t.relation⟩ := by
  rw [bind, Database.relation, found]
  rfl

/-! ## Equal columns -/

/-- The condition that two columns are equal, their names looked up. -/
def equalSlots (l r : Slot) : Term :=
  .comparison .eq (.between (some l.affinity) (some r.affinity)) (.slot l) (.slot r)

theorem resolve_equalSlots {names : Names} {e e' : Sql.Expr} {l r : Slot}
    (left : resolve names e = .ok (.slot l)) (right : resolve names e' = .ok (.slot r)) :
    resolve names (e.eq e') = .ok (equalSlots l r) := by
  rw [Sql.Expr.eq, resolve, left, right]
  · rfl
  · decide

/-- Columns with texts are equal where both have the same one. -/
theorem holds_equalSlots {l r : Slot} (text : l.affinity = .text) (text' : r.affinity = .text)
    {row : JoinedRow} {x y : Option String} (left : row.cell l = .ofText x)
    (right : row.cell r = .ofText y) :
    holds (equalSlots l r) row = x.any fun s => y == some s := by
  have value : (equalSlots l r).onRow 0 row = .ok (.ofTruth (y.bind fun s => x.map (· == s))) := by
    have affinity : Affinity.between (some l.affinity) (some r.affinity) = .none := by
      rw [text, text']
      rfl
    rw [← compareCells_texts (a := .none) rfl, ← left, ← right, equalSlots, affinity]
    rfl
  rw [holds, value]
  dsimp only
  rw [Cell.truth_ofTruth]
  cases x with
  | none => cases y <;> rfl
  | some x =>
      cases y with
      | none => rfl
      | some y =>
          rw [Option.bind_some, Option.map_some, Option.any_some, Bool.eq_iff_iff]
          simp only [beq_iff_eq, Option.some.injEq]
          exact eq_comm

/-! ## Blocks -/

/-- A block that is neither grouped nor ordered is planned by its names alone. -/
theorem planBlock_eq_ok (statement : Sql.Tokens) {bindings : List Binding} {s : Sql.Select}
    (some : s.items ≠ []) (narrow : s.items.length ≤ Limit.resultColumns.most)
    (unordered : s.orderBy = []) (ungrouped : s.groupBy = [])
    {items filters conditions : List Term}
    (listed : resolveList (selectNames bindings) (s.items.map (·.expr)) = .ok items)
    (filtered : resolveList (selectNames bindings) s.filters = .ok filters)
    (joined : resolveList (selectNames bindings) (s.joins.map (·.condition)) = .ok conditions)
    (few : bindings.length ≤ Limit.joined.most) :
    ∃ columns, planBlock statement bindings s = .ok {
      bindings, columns, items, filters, joins := (s.joins.map (·.type)).zip conditions
      groupBy := [], orderBy := [] } := by
  have full : s.items.isEmpty = false := by simpa using some
  have width : listWidth bindings s.items ≤ Limit.resultColumns.most := by
    rwa [listWidth, full]
  have keys : resolveList (selectNames bindings) (s.orderBy.map (·.expr)) = .ok [] := by
    rw [unordered]
    rfl
  have groups : resolveList (selectNames bindings) s.groupBy = .ok [] := by
    rw [ungrouped]
    rfl
  have order : checkOrder [] items [] = .ok () := by
    unfold checkOrder
    split <;> rfl
  have planned := Plans.of width listed filtered joined keys (by decide) groups (by decide) few
    order
  have count := length_resolveList _ _ _ listed
  have same : (((s.items.zip items).map fun e => (outputName bindings e.1 e.2, e.2)).map
      (·.2)) = items := by
    rw [List.map_map]
    exact List.map_snd_zip (by rw [count, List.length_map])
  simp only [full, Bool.false_eq_true, if_false, same, unordered, List.map_nil,
    List.zip_nil_right] at planned
  exact ⟨_, planBlock_eq_ok_iff.mpr planned⟩

theorem Relation.perm_sortedBy (r : Relation) {t : Table} (rows : r.rows = t.rows)
    (columns : List Nat) : (r.sortedBy t columns).Perm r.rows := by
  have sorted := ((r.rows.zip t.rows).mergeSort_perm fun a b =>
    Table.compareRows columns a.2 b.2 != .gt).map (·.1)
  rwa [List.map_fst_zip (by rw [rows])] at sorted

namespace Plan

variable {p : Plan}

theorem sortByKey_eq_self {α : Type} {entries : List (List (Cell × Sql.SortDir) × α)}
    (unordered : ∀ e ∈ entries, e.1 = []) : sortByKey entries = entries := by
  refine List.mergeSort_of_pairwise (List.pairwise_of_forall_mem_list fun a first b _ => ?_)
  rw [unordered a first]
  rfl

/-- The result has what the items come to on each row of the source. -/
theorem result_eq_ok {rows : List (List Cell)} (plain : p.isGrouped = false)
    (unordered : p.orderBy = []) (each : ∀ n, List.Forall₂
      (fun r cells => p.items.mapM (fun t => t.onRow n r) = .ok cells) p.source rows) :
    p.result = .ok rows := by
  have evaluators : p.evaluators = p.source.map fun r total t => t.onRow total r := by
    rw [Plan.evaluators, plain]
    rfl
  have entry {n : Nat} {r : JoinedRow} {cells : List Cell}
      (items : p.items.mapM (fun t => t.onRow n r) = .ok cells) :
      p.entry n (fun total t => t.onRow total r) = .ok ([], cells) := by
    rw [Plan.entry, unordered, items]
    rfl
  have entries : p.evaluators.mapM (p.entry p.evaluators.length) =
      .ok (rows.map fun cells => ([], cells)) := by
    rw [mapM_eq_ok_iff, List.forall₂_map_right_iff]
    conv => arg 2; rw [evaluators]
    rw [List.forall₂_map_left_iff]
    exact (each _).imp fun r cells => entry
  rw [result_eq, entries, map_ok, sortByKey_eq_self (by simp), List.map_map]
  exact congrArg Except.ok (List.map_id rows)

/-- The cells of columns, for each row of the source. -/
theorem result_of_slots {slots : List Slot} (items : p.items = slots.map .slot)
    (ungrouped : p.groupBy = []) (unordered : p.orderBy = []) :
    p.result = .ok (p.source.map fun r => slots.map r.cell) := by
  have plain : p.isGrouped = false := by
    rw [isGrouped, outputs, items, ungrouped, unordered, Term.anyAggregate_eq_any]
    simp [Term.hasAggregate]
  refine result_eq_ok plain unordered fun n => ?_
  rw [List.forall₂_map_right_iff, List.forall₂_same]
  intro r _
  rw [items, List.mapM_map]
  exact mapM_eq_ok_map fun s _ => rfl

/-! ## Sources -/

/-- The rows of a block with a single table. -/
theorem source_single {b : Binding} (single : p.bindings = [b]) (alone : p.joins = []) :
    p.source = ((p.firstRows b.relation).map fun r => [some r]).filter
      fun r => p.filters.all (holds · r) := by
  rw [source, single, alone]
  rfl

theorem source_plain {b : Binding} (single : p.bindings = [b]) (alone : p.joins = [])
    (unfiltered : p.filters = []) : p.source = (p.firstRows b.relation).map fun r => [some r] := by
  rw [source_single single alone, unfiltered]
  exact List.filter_true _

theorem firstRows_of_made {r : Relation} (made : r.base = none) : p.firstRows r = r.rows := by
  rw [firstRows, made]

/-- The rows of a table without an index that would help come in the order of their ids. -/
theorem firstRows_of_plain {r : Relation} {t : Table} (base : r.base = some t)
    (rows : r.rows = t.rows) (plain : (p.firstWay t).order = []) : p.firstRows r = r.rows := by
  have sorted : ((r.rows.zip t.rows).mergeSort fun a b =>
      Table.compareRows [] a.2 b.2 != .gt) = r.rows.zip t.rows :=
    List.mergeSort_of_pairwise (List.pairwise_of_forall fun _ _ => rfl)
  rw [firstRows, base]
  dsimp only
  rw [plain]
  split
  · rw [Relation.sortedBy, sorted]
    exact List.map_fst_zip (by rw [rows])
  · rfl

/-- The rows of a table come all, in whatever order. -/
theorem perm_firstRows {r : Relation} {t : Table} (base : r.base = some t)
    (rows : r.rows = t.rows) : (p.firstRows r).Perm r.rows := by
  rw [firstRows, base]
  dsimp only
  split
  · exact r.perm_sortedBy rows _
  · exact List.Perm.refl _

/-- The rows of a table that have what is asked for among rows of a query's own making. -/
theorem source_inner {b c : Binding} {condition : Term} (pair : p.bindings = [b, c])
    (inner : p.joins = [(.inner, condition)]) (made : c.relation.base = none) :
    p.source = (b.relation.rows.flatMap fun r =>
      (c.relation.rows.map fun x => [some r, some x]).filter (holds condition)).filter
        fun r => p.filters.all (holds · r) := by
  have apart : p.isInOrder = false := by
    rw [isInOrder, inner]
    rfl
  have first : p.firstRows b.relation = b.relation.rows := by
    rw [firstRows, apart]
    cases b.relation.base <;> rfl
  have later (single : Bool) : p.laterRows single 1 condition c.relation = c.relation.rows := by
    rw [laterRows, made]
  rw [source, pair, inner]
  simp only [List.drop_succ_cons, List.drop_zero, List.zip_cons_cons, List.zip_nil_right,
    List.foldl_cons, List.foldl_nil, first, later, joinRows, List.flatMap_map]
  rfl

end Plan

/-! ## Equal rows -/

namespace Cell

/-- Whether a cell is equal to no other one when cells are compared. -/
def isExact : Cell → Bool
  | .real _ => false
  | _ => true

theorem compare_eq_iff {x y : Cell} (exact : x.isExact = true) (exact' : y.isExact = true) :
    x.compare y = .eq ↔ x = y := by
  cases x <;> cases y <;>
    simp_all [isExact, compare, rank, compareBytes_eq_iff, Int64.toInt_inj]

@[simp]
theorem isExact_null : isExact .null = true := rfl

@[simp]
theorem isExact_int (n : Int64) : isExact (.int n) = true := rfl

@[simp]
theorem isExact_ofString (text : String) : (ofString text).isExact = true := rfl

@[simp]
theorem isExact_ofText (text : Option String) : (ofText text).isExact = true := by
  cases text <;> rfl

end Cell

theorem sameCells_iff {as bs : List Cell} (exact : ∀ c ∈ as, c.isExact = true)
    (exact' : ∀ c ∈ bs, c.isExact = true) : sameCells as bs = true ↔ as = bs := by
  induction as generalizing bs with
  | nil => cases bs <;> simp [sameCells]
  | cons a as ih =>
      cases bs with
      | nil => simp [sameCells]
      | cons b bs =>
          rw [List.forall_mem_cons] at exact exact'
          have rest := ih exact.2 exact'.2
          simp only [sameCells, Bool.and_eq_true, beq_iff_eq] at rest
          simp only [sameCells, List.length_cons, Bool.and_eq_true, beq_iff_eq,
            Nat.add_right_cancel_iff, List.zip_cons_cons, List.all_cons, List.cons.injEq,
            ← rest, Cell.compare_eq_iff exact.1 exact'.1]
          exact and_left_comm

/-! ## Recursions -/

/-- The rows of a recursion, once its blocks are planned and its queue is gone through. -/
theorem Recursion.relation_eq_ok {r : Recursion} {db : Database} {statement : Sql.Tokens}
    {firstTables : List Binding} {nextTables : List (Option Binding)} {looked p : Plan}
    {first rows : List (List Cell)} {unknown : Relation} {made : List (List Cell) → Relation}
    (firstFound : r.first.tables.mapM (bind db) = .ok firstTables)
    (nextFound : r.next.tables.mapM (r.bind? db) = .ok nextTables)
    (names : unknown = madeRelation ((r.first.items.map writtenName).map fun c => (c, .none)) [])
    (nextPlanned : planBlock statement (bindings (r.next.tables.zip nextTables) unknown) r.next =
      .ok looked)
    (planned : planBlock statement firstTables r.first = .ok p)
    (columns : made = madeRelation ((r.first.items.map writtenName).zip
      (p.items.map columnAffinity))) (begun : p.result = .ok first)
    (followed : followRows
      (fun row => do (← planBlock statement (bindings (r.next.tables.zip nextTables) (made [row]))
        r.next).result)
      (bound (freshRows [] first) (r.next.tables.zip nextTables)) (freshRows [] first)
        (freshRows [] first) = .ok rows) :
    r.relation db statement = .ok (made rows) := by
  subst names columns
  simp only [relation, firstFound, nextFound, nextPlanned, planned, begun, ok_bind, followed]
  rfl

/-- A block that selects from a recursion gives a page of its result. -/
theorem Database.query_eq_ok {db : Database} {r : Recursion} {s : Sql.Select} {made : Relation}
    {tables : List (Option Binding)} {p : Plan} {rows : List (List Cell)} :
    let q : Sql.Query := ⟨[(r.name, true, ⟨[], r.first, [⟨[], r.next, []⟩]⟩)], s, []⟩
    r.relation db q.tokens = .ok made → s.tables.mapM (r.bind? db) = .ok tables →
    planBlock q.tokens (Recursion.bindings (s.tables.zip tables) made) s = .ok p →
    checkParams q.tokens.params = .ok () → p.result = .ok rows →
    db.query q = .ok { columns := p.columns, rows := page s.limit s.offset rows } := by
  intro q recursion found planned bound result
  simp only [q, query, recursion, found, planned, bound, result, ok_bind]
  rfl

end QueryBoard.Db
