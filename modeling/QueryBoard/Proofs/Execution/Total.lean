import QueryBoard.Proofs.Compile.Values
import QueryBoard.Proofs.Db.Plan
import QueryBoard.Proofs.Execution.Records
import Mathlib.Data.List.SplitBy

/-!
# The total of a result

The statement that is run counts the rows of its result in one more column, behind the columns of
the compiled statement.  Every row has the count, whatever page it is on, but a page without rows
does not tell it.  A statement without a select list is the exception: it stands for every column of
its tables, and for none as soon as the count is one of its items.
-/

set_option autoImplicit false

namespace QueryBoard

/-- The block with the count of all rows as one more item. -/
def Sql.Select.withTotal (s : Sql.Select) : Sql.Select := { s with items := s.items ++ [totalItem] }

/-! ## Plans with a total -/

namespace Db

namespace Plan

variable (p : Plan)

/-- The plan with the count of all rows as one more column. -/
def withTotal : Plan :=
  { p with columns := p.columns ++ [totalColumn], items := p.items ++ [.total] }

theorem allSlots_withTotal : Term.allSlots p.withTotal.terms = Term.allSlots p.terms := by
  simp [terms, withTotal, Term.allSlots_eq_flatMap, Term.slots]

/-- The count asks for no column, so every source is gone through in the same way. -/
theorem used_withTotal : p.withTotal.used = p.used := by
  funext source t
  rw [used, used, allSlots_withTotal]
  rfl

theorem firstWay_withTotal : p.withTotal.firstWay = p.firstWay := by
  funext t
  rw [firstWay, firstWay, used_withTotal]
  rfl

theorem firstRows_withTotal : p.withTotal.firstRows = p.firstRows := by
  funext r
  rw [firstRows, firstRows, firstWay_withTotal]
  rfl

theorem laterRows_withTotal : p.withTotal.laterRows = p.laterRows := by
  funext isSingle source condition r
  rw [laterRows, laterRows, used_withTotal]
  rfl

theorem source_withTotal : p.withTotal.source = p.source := by
  unfold source
  rw [firstRows_withTotal, firstWay_withTotal, laterRows_withTotal]
  rfl

theorem isGrouped_withTotal : p.withTotal.isGrouped = p.isGrouped := by
  simp [isGrouped, outputs, withTotal, Term.anyAggregate_eq_any, Term.hasAggregate]

theorem groupOf_withTotal : Group.of p.withTotal.outputs = Group.of p.outputs := by
  have aggregates : p.withTotal.outputs.flatMap Term.aggregates =
      p.outputs.flatMap Term.aggregates := by
    simp [outputs, withTotal, Term.aggregates]
  funext rows
  rw [Group.of, Group.of, aggregates]

theorem evaluators_withTotal : p.withTotal.evaluators = p.evaluators := by
  unfold evaluators groups
  rw [isGrouped_withTotal, source_withTotal, groupOf_withTotal]
  rfl

theorem total_of_mem_evaluators {eval : Nat → Term → Except DbError Cell}
    (member : eval ∈ p.evaluators) (n : Nat) : eval n .total = .ok (.int (Int64.ofNat n)) := by
  unfold evaluators at member
  split at member
  · obtain ⟨g, _, rfl⟩ := List.mem_map.mp member
    rfl
  · obtain ⟨r, _, rfl⟩ := List.mem_map.mp member
    rfl

theorem entry_withTotal {eval : Nat → Term → Except DbError Cell} (member : eval ∈ p.evaluators)
    (n : Nat) : p.withTotal.entry n eval =
      (fun e => (e.1, e.2 ++ [.int (Int64.ofNat n)])) <$> p.entry n eval := by
  have last : eval n .total = .ok (.int (Int64.ofNat n)) := p.total_of_mem_evaluators member n
  have cells : p.withTotal.items.mapM (eval n) =
      (· ++ [.int (Int64.ofNat n)]) <$> p.items.mapM (eval n) := by
    rw [withTotal, List.mapM_append, List.mapM_cons, last]
    cases p.items.mapM (eval n) <;> rfl
  simp only [entry, cells, map_bind, map_pure, bind_map_left]
  rfl

theorem result_withTotal : p.withTotal.result =
    (·.map (· ++ [.int (Int64.ofNat p.evaluators.length)])) <$> p.result := by
  have each := mapM_congr fun eval member => p.entry_withTotal member p.evaluators.length
  rw [result_eq, evaluators_withTotal, each, mapM_map, result_eq, Functor.map_map, Functor.map_map]
  congr 1
  funext keyed
  refine (congrArg (List.map (·.2)) (sortByKey_map (· ++ [_]) keyed)).trans ?_
  rw [List.map_map, List.map_map]
  rfl

/-- With a total, every row has the number of all rows as one more cell. -/
theorem result_of_withTotal {rows : List (List Cell)} (success : p.withTotal.result = .ok rows) :
    ∃ before, p.result = .ok before ∧
      rows = before.map (· ++ [.int (Int64.ofNat before.length)]) := by
  rw [result_withTotal] at success
  obtain ⟨before, evaluated, same⟩ := bind_eq_ok_iff.mp success
  cases same
  exact ⟨before, evaluated, by rw [p.length_result evaluated]⟩

end Plan

theorem checkOrder_concat_total (groupBy items keys : List Term) :
    checkOrder groupBy (items ++ [.total]) keys = checkOrder groupBy items keys := by
  have same : Term.anyAggregate (items ++ [.total]) = Term.anyAggregate items := by
    simp [Term.anyAggregate_eq_any, Term.hasAggregate]
  rw [checkOrder, same, checkOrder]

theorem listWidth_of_ne_nil {bindings : List Binding} {items : List Sql.SelectItem}
    (some : items ≠ []) : listWidth bindings items = items.length := by
  rw [listWidth, if_neg (by simpa using some)]

/-- The plan of a block with the total is one with a total.  It is a plan of the block, unless that
shows nothing else. -/
theorem Plans.exists_withTotal {bindings : List Binding} {s : Sql.Select} {p' : Plan}
    (planned : Plans bindings s.withTotal p') :
    ∃ p, p' = p.withTotal ∧ (s.items = [] → p.columns = []) ∧
      (s.items ≠ [] → Plans bindings s p) := by
  cases planned with
  | @of items filters conditions keys groupBy width listed filtered joined ordered orderTerms
      grouped groupTerms tables aggregates =>
      dsimp only [Sql.Select.withTotal] at *
      rw [List.map_append] at listed
      obtain ⟨before, resolved, rfl⟩ := resolveList_concat_eq_ok (t := .total) rfl listed
      have long : s.items.length = before.length := by
        simpa using (length_resolveList _ _ _ resolved).symm
      have zipped : (s.items ++ [totalItem]).zip (before ++ [.total]) =
          s.items.zip before ++ [(totalItem, .total)] := List.zip_append long
      refine ⟨{
        bindings
        columns := ((s.items.zip before).map fun e => (outputName bindings e.1 e.2, e.2)).map (·.1)
        items := ((s.items.zip before).map fun e => (outputName bindings e.1 e.2, e.2)).map (·.2)
        filters
        joins := (s.joins.map (·.type)).zip conditions
        groupBy
        orderBy := keys.zip (s.orderBy.map (·.dir)) }, ?_, ?_, ?_⟩
      · rw [Plan.withTotal, zipped]
        simp [outputName, totalItem]
      · intro none
        rw [none]
        rfl
      · intro some
        have listed : s.items.isEmpty = false := by simpa using some
        have narrow : listWidth bindings s.items ≤ Limit.resultColumns.most := by
          rw [listWidth_of_ne_nil (by simp), List.length_append] at width
          rw [listWidth_of_ne_nil some]
          exact Nat.le_of_add_right_le width
        rw [checkOrder_concat_total] at aggregates
        have planned := Plans.of narrow resolved filtered joined ordered orderTerms grouped
          groupTerms tables aggregates
        simpa only [listed, Bool.false_eq_true, if_false] using planned

end Db

/-! ## Selects with a total -/

namespace Sql.Select

theorem params_withTotal (s : Sql.Select) : s.withTotal.tokens.params = s.tokens.params := by
  have counted : totalItem.expr.params = [] := by
    rw [totalItem, Expr.params]
    simp [Expr.tokens, Expr.countStar]
    rfl
  rw [params_tokens, params_tokens, withTotal, List.flatMap_append, List.flatMap_singleton, counted,
    List.append_nil]

theorem listTokens_subset_withTotal {s : Sql.Select} (some : s.items ≠ []) :
    s.listTokens ⊆ s.withTotal.listTokens := by
  have written : s.items.map SelectItem.tokens ≠ [] := by simpa using some
  have list : s.listTokens = .keyword "SELECT" :: .newline 1 ::
      Tokens.separated [.comma, .newline 1] (s.items.map SelectItem.tokens) := by
    simp [listTokens, some]
  have longer : s.withTotal.listTokens = .keyword "SELECT" :: .newline 1 ::
      (Tokens.separated [.comma, .newline 1] (s.items.map SelectItem.tokens) ++
        ([.comma, .newline 1] ++ totalItem.tokens)) := by
    rw [← List.append_assoc, ← Tokens.separated_concat _ _ written]
    simp [listTokens, withTotal]
  rw [list, longer]
  exact List.cons_subset_cons _ (List.cons_subset_cons _ (List.subset_append_left _ _))

/-- Behind the select list nothing is written otherwise. -/
theorem tokens_withTotal (s : Sql.Select) : ∃ rest, s.tokens = s.listTokens ++ rest ∧
    s.withTotal.tokens = s.withTotal.listTokens ++ rest := by
  refine ⟨s.tableTokens ++ (whereClause (.newline 0) (s.filters.map Expr.tokens) ++ s.tailTokens),
    ?_, ?_⟩ <;> rw [tokens_eq, List.append_assoc, List.append_assoc]
  rfl

end Sql.Select

namespace Db

theorem checkText_of_withTotal {s : Sql.Select} (some : s.items ≠ [])
    (written : checkText s.withTotal.tokens s.tables.length s.filters = .ok ()) :
    checkText s.tokens s.tables.length s.filters = .ok () := by
  obtain ⟨whole, sources, params, depth⟩ := checkText_eq_ok_iff.mp written
  rw [Sql.Select.params_withTotal] at params
  refine checkText_eq_ok_iff.mpr ⟨fun t member => whole t ?_, sources, params, depth⟩
  obtain ⟨rest, tokens, tokens'⟩ := s.tokens_withTotal
  rw [tokens] at member
  rw [tokens']
  rcases List.mem_append.mp member with member | member
  · exact List.mem_append_left _ (Sql.Select.listTokens_subset_withTotal some member)
  · exact List.mem_append_right _ member

/-- A select that runs with a total has a result of which every row ends with the number of rows.
Without the total it has the same result without that cell, unless nothing else is shown. -/
theorem Selects.of_withTotal {db : Database} {s : Sql.Select} {p' : Plan} {all : List (List Cell)}
    (selects : Selects db s.withTotal p' all) : ∃ p rows, p' = p.withTotal ∧ p.result = .ok rows ∧
      all = rows.map (· ++ [.int (Int64.ofNat rows.length)]) ∧ (s.items = [] → p.columns = []) ∧
        (s.items ≠ [] → Selects db s p rows) := by
  obtain ⟨written, ⟨bindings, found, planned⟩, bound, evaluated⟩ := selects
  obtain ⟨p, rfl, none, some⟩ := planned.exists_withTotal
  obtain ⟨rows, before, rfl⟩ := p.result_of_withTotal evaluated
  rw [Sql.Select.params_withTotal] at bound
  exact ⟨p, rows, rfl, before, rfl, none, fun listed =>
    ⟨checkText_of_withTotal listed written, ⟨bindings, found, some listed⟩, bound, before⟩⟩

end Db

/-! ## Totals of pages -/

namespace Query

/-- No item of a compiled select has the name of the total. -/
theorem Projects.total_not_mem {schema : SchemaLookup} {q : Query} {s : Sql.Select} {rules : Rules}
    (projects : q.Projects schema s rules) : totalColumn ∉ s.items.filterMap (·.label) := by
  obtain ⟨key, each⟩ := projects.mem_items
  intro member
  obtain ⟨i, listed, named⟩ := List.mem_filterMap.mp member
  rcases each i listed with ⟨c, _, shown⟩ | ⟨name, _, rfl⟩
  · rw [shown.eq_selectItem] at named
    have point := c.point_mem_outputName
    rw [Option.some.inj named] at point
    revert point
    decide
  · exact absurd (Option.some.inj named) (by decide)

theorem statement_select {q : Query} (selects : q.operation = .select) (schema : SchemaLookup) :
    q.statement schema = .select <$> q.compileSelect schema := by
  rw [Query.statement, selects]

/-- Another page of a query is another page of its statement, and nothing else. -/
theorem compile_paged {dialect : Sql.Dialect} {schema : SchemaLookup} {q : Query} {c : Compiled}
    {s : Sql.Select} (selects : q.operation = .select) (success : q.compile dialect schema = .ok c)
    (built : c.statement = .select s) (limit offset : UInt64) :
    ∃ c', ({ q with limit, offset } : Query).compile dialect schema = .ok c' ∧
      c'.statement = .select { s with
        limit := if limit = 0 then none else some limit
        offset := if limit = 0 then none else some offset } ∧ c'.rules = c.rules := by
  have compiled : ({ q with limit, offset } : Query).compileSelect schema = (fun s : Sql.Select =>
      { s with
        limit := if limit = 0 then none else some limit
        offset := if limit = 0 then none else some offset }) <$> q.compileSelect schema := by
    simp only [compileSelect, map_bind, map_pure]
    rfl
  obtain ⟨statement, made, same⟩ := bind_eq_ok_iff.mp success
  cases same
  simp only at built
  rw [statement_select selects] at made
  obtain ⟨block, written, same⟩ := bind_eq_ok_iff.mp made
  cases same
  cases built
  rw [written] at compiled
  refine ⟨_, compile_of_statement dialect ((statement_select (q := { q with limit, offset })
    selects schema).trans (congrArg (Sql.Statement.select <$> ·) compiled)), rfl, rfl⟩

end Query

namespace Storage

theorem execute_select {storage : Storage} {q : Query} {db : Db.Database} {c : Compiled}
    {s : Sql.Select} {r : Db.ResultSet} (opened : storage.open? = .ok db)
    (compiled : q.compile backendDialect storage.table = .ok c) (built : c.statement = .select s)
    (selected : db.select s.withTotal = .ok r) :
    (storage.execute q).1.response.data = some (selectData c.rules r) := by
  unfold execute
  rw [compiled]
  simp only [built, Sql.Statement.withTotal, runStatement, opened, ok_bind]
  rw [← Sql.Select.withTotal, selected]
  rfl

end Storage

theorem totalOf?_concat {columns : List String} {row : List Db.Cell} (new : totalColumn ∉ columns)
    (width : row.length = columns.length) (n : Int64) :
    totalOf? (columns ++ [totalColumn]) (row ++ [.int n]) = some (UInt64.ofNat n.toInt.toNat) := by
  have zipped : (columns ++ [totalColumn]).zip (row ++ [.int n]) =
      columns.zip row ++ [(totalColumn, .int n)] := List.zip_append width.symm
  have none : (columns.zip row).lookup totalColumn = none := by
    rw [List.lookup_eq_none_iff]
    intro e member
    have other : totalColumn ≠ e.1 := fun same => new (same ▸ (List.of_mem_zip member).1)
    simpa using other
  rw [totalOf?, zipped, List.lookup_append, none]
  simp

/-- A count that a statement can make is told as it is. -/
theorem toNat_count {n : Nat} (few : n < Nat.pow 2 63) :
    (UInt64.ofNat (Int64.ofNat n).toInt.toNat).toNat = n := by
  rw [Int64.toInt_ofNat_of_lt few, Int.toNat_natCast, UInt64.toNat_ofNat_of_lt']
  exact few.trans (by decide)

/-- The part of a list that limit and offset ask for; a limit of zero asks for all. -/
def pageOf {α : Type} (limit offset : UInt64) (l : List α) : List α :=
  if limit = 0 then l else (l.drop offset.toNat).take limit.toNat

theorem page_eq_pageOf {α : Type} (limit offset : UInt64) (l : List α) :
    Db.page (if limit = 0 then none else some limit) (if limit = 0 then none else some offset) l =
      pageOf limit offset l := by
  unfold pageOf
  split <;> rfl

theorem pageOf_map {α β : Type} (f : α → β) (limit offset : UInt64) (l : List α) :
    pageOf limit offset (l.map f) = (pageOf limit offset l).map f := by
  rw [← page_eq_pageOf, Db.page_map, page_eq_pageOf]

theorem pageOf_eq_nil_iff {α : Type} {limit offset : UInt64} {l : List α} :
    pageOf limit offset l = [] ↔ l = [] ∨ limit ≠ 0 ∧ l.length ≤ offset.toNat := by
  unfold pageOf
  split
  · next zero => simp [zero]
  · next some =>
      have counts : limit.toNat ≠ 0 := fun none => some (UInt64.toNat_inj.mp none)
      rw [List.take_eq_nil_iff, or_iff_right counts, List.drop_eq_nil_iff]
      constructor
      · exact fun beyond => Or.inr ⟨some, beyond⟩
      · rintro (rfl | ⟨_, beyond⟩)
        · simp
        · exact beyond

/-- What a page of a result is, next to the whole: its records, and the number of all records, which
a page without records does not tell. -/
structure SelectData.PageOf (d whole : SelectData) (limit offset : UInt64) : Prop where
  rules : d.rules = whole.rules
  data : d.data = pageOf limit offset whole.data
  total : whole.data.length < Nat.pow 2 63 → d.data ≠ [] → d.total.toNat = whole.data.length
  silent : d.data = [] → d.total = 0
  empty : d.data = [] ↔ whole.data = [] ∨ limit ≠ 0 ∧ whole.data.length ≤ offset.toNat

/-- Rows with a number behind each. -/
def Db.ResultSet.counted (columns : List String) (n : Nat) (rows : List (List Db.Cell)) :
    Db.ResultSet where
  columns := columns ++ [totalColumn]
  rows := rows.map (· ++ [.int (Int64.ofNat n)])

section Counted

variable {columns : List String} {rows : List (List Db.Cell)} (new : totalColumn ∉ columns)
  (width : ∀ row ∈ rows, row.length = columns.length)

include new width

theorem total_counted (rules : Rules) (n : Nat) (some : rows ≠ []) :
    (selectData rules (.counted columns n rows)).total =
      UInt64.ofNat (Int64.ofNat n).toInt.toNat := by
  have last := List.getLast_mem some
  rw [selectData, Db.ResultSet.counted, List.getLast?_map, List.getLast?_eq_some_getLast some]
  simp only [Option.map_some, Option.bind_some, totalOf?_concat new (width _ last),
    Option.getD_some]

theorem pageOf_counted (rules : Rules) (limit offset : UInt64) :
    (selectData rules (.counted columns rows.length (pageOf limit offset rows))).PageOf
      (selectData rules (.counted columns rows.length rows)) limit offset := by
  have data (l : List (List Db.Cell)) : (selectData rules (.counted columns rows.length l)).data =
      l.map fun row => recordOf (columns ++ [totalColumn])
        (row ++ [.int (Int64.ofNat rows.length)]) := List.map_map
  have inside : ∀ row ∈ pageOf limit offset rows, row.length = columns.length := fun row member =>
    width row (Db.mem_of_mem_page (page_eq_pageOf limit offset rows ▸ member))
  refine ⟨rfl, ?_, fun few some => ?_, fun none => ?_, ?_⟩
  · rw [data, data, pageOf_map]
  · rw [data, List.length_map] at few ⊢
    rw [data, ne_eq, List.map_eq_nil_iff] at some
    rw [total_counted new inside rules _ some, toNat_count few]
  · rw [data, List.map_eq_nil_iff] at none
    rw [none]
    rfl
  · rw [data, data, List.map_eq_nil_iff, List.map_eq_nil_iff, List.length_map, pageOf_eq_nil_iff]

end Counted

namespace Storage

/-- A select that succeeds does so for every page, and shows that page of one result, counted. -/
theorem exists_pages {storage : Storage} {q : Query} (selects : q.operation = .select)
    (success : (storage.execute q).1.response.isOk = true) :
    ∃ (rules : Rules) (columns : List String) (rows : List (List Db.Cell)),
      totalColumn ∉ columns ∧ (∀ row ∈ rows, row.length = columns.length) ∧
        ∀ limit offset, (storage.execute { q with limit, offset }).1.response.data =
          some (selectData rules (.counted columns rows.length (pageOf limit offset rows))) := by
  obtain ⟨db, c, s, r, opened, compiled, built, projects, selected, _⟩ :=
    exists_selected selects success
  obtain ⟨p', all, runs, _⟩ := Db.select_eq_ok_iff.mp selected
  obtain ⟨p, rows, rfl, evaluated, rfl, _⟩ := Db.Selects.of_withTotal runs
  obtain ⟨_, _, planned⟩ := runs.planned
  have labelled : s.withTotal.items.map (·.label) =
      (s.items.filterMap (·.label) ++ [totalColumn]).map Option.some := by
    rw [Sql.Select.withTotal, List.map_append, List.map_append, projects.labels]
    rfl
  obtain ⟨named, wide⟩ := planned.labelled (by simp) labelled
  have columns : p.columns = s.items.filterMap (·.label) := List.append_cancel_right named
  have items : p.items.length = p.columns.length := by
    simpa [Db.Plan.withTotal, columns] using wide
  refine ⟨c.rules, p.columns, rows, by rw [columns]; exact projects.total_not_mem,
    fun row member => (Db.length_of_mem_result evaluated row member).trans items, ?_⟩
  intro limit offset
  obtain ⟨c', compiled', built', rules⟩ := Query.compile_paged selects compiled built limit offset
  have page := Db.select_eq_ok_iff.mpr ⟨_, _, runs.paged
    (if limit = 0 then none else some limit) (if limit = 0 then none else some offset), rfl⟩
  rw [execute_select opened compiled' built' page, rules, Db.page_map]
  rw [page_eq_pageOf]
  rfl

/-- The total of every page with records is the number of all records, which is what the query gives
without a limit.  A page without records, at or behind the end, has the total zero. -/
theorem pages_total (storage : Storage) (q : Query) (selects : q.operation = .select)
    (success : (storage.execute q).1.response.isOk = true) :
    ∃ whole, (storage.execute { q with limit := 0 }).1.response.data = some whole ∧
      ∀ limit offset, ∃ d, (storage.execute { q with limit, offset }).1.response.data = some d ∧
        d.PageOf whole limit offset := by
  obtain ⟨rules, columns, rows, new, width, pages⟩ := exists_pages selects success
  exact ⟨_, pages 0 q.offset, fun limit offset =>
    ⟨_, pages limit offset, pageOf_counted new width rules limit offset⟩⟩

/-- The second of two pets. -/
theorem pages_total_petNames : ∃ d,
    (pets.execute { petNames with limit := 1, offset := 1 }).1.response.data = some d ∧
      d.data = [[("pets.name", .str "Tom"), ("$root_id", .str "Tom")]] ∧ d.total.toNat = 2 := by
  obtain ⟨whole, shown, pages⟩ := pages_total pets petNames rfl (isOk_of_data execute_petNames)
  have same := Option.some.inj (shown.symm.trans execute_petNames)
  obtain ⟨d, page, of⟩ := pages 1 1
  have data := of.data
  rw [same] at data
  have total := of.total (by rw [same]; decide) (by rw [data]; decide)
  rw [same] at total
  exact ⟨d, page, data, total⟩

/-- A page behind all pets tells another total than there are pets. -/
theorem petNames_pageBehind : ∃ whole d,
    (pets.execute { petNames with limit := 0 }).1.response.data = some whole ∧
      (pets.execute { petNames with limit := 1, offset := 5 }).1.response.data = some d ∧
        whole.data.length = 2 ∧ d.total = 0 := by
  obtain ⟨rules, columns, rows, new, width, pages⟩ :=
    exists_pages rfl (isOk_of_data execute_petNames)
  have same := Option.some.inj ((pages 0 0).symm.trans execute_petNames)
  have of := pageOf_counted new width rules 1 5
  rw [pageOf, if_pos rfl] at same
  have two : (selectData rules (.counted columns rows.length rows)).data.length = 2 := by
    rw [same]
    rfl
  have behind : 2 ≤ (5 : UInt64).toNat := by decide
  exact ⟨_, _, pages 0 0, pages 1 5, two,
    of.silent (of.empty.mpr (Or.inr ⟨by decide, two ▸ behind⟩))⟩

end Storage

/-! ## What the total adds to a statement -/

namespace Sql.Select

/-- What a block shows, item by item.  An empty select list shows every column of the tables. -/
def shown (columnsOf : String → List String) (s : Select) : List SelectItem :=
  if s.items.isEmpty then
    s.tables.flatMap fun r => (columnsOf r.table).map fun name => ⟨.tableCol r.name name, none⟩
  else s.items

/-- Whether a block is another with a total.  Where the other has a select list, it shows the count
behind it.  Which of several rows a page has that are equal under the order is not said: a database
may find rows in another way for the one statement than for the other. -/
structure AddsTotal (s t : Select) : Prop where
  source : t.source = s.source
  joins : t.joins = s.joins
  filters : t.filters = s.filters
  groupBy : t.groupBy = s.groupBy
  orderBy : t.orderBy = s.orderBy
  page : t.limit = s.limit ∧ t.offset = s.offset
  params : t.tokens.params = s.tokens.params
  tokens : ∃ rest, s.tokens = s.listTokens ++ rest ∧ t.tokens = t.listTokens ++ rest
  listed : s.items ≠ [] → ∀ columnsOf, t.shown columnsOf = s.shown columnsOf ++ [totalItem]
  columns : s.items ≠ [] → ∀ (db : Db.Database) r', db.select t = .ok r' →
    ∃ r, db.select s = .ok r ∧ r'.columns = r.columns ++ [totalColumn]
  unlisted : s.items = [] → ∀ columnsOf, t.shown columnsOf = [totalItem]
  alone : s.items = [] → ∀ (db : Db.Database) r', db.select t = .ok r' → r'.columns = [totalColumn]

theorem addsTotal_withTotal (s : Select) : s.AddsTotal s.withTotal where
  source := rfl
  joins := rfl
  filters := rfl
  groupBy := rfl
  orderBy := rfl
  page := ⟨rfl, rfl⟩
  params := s.params_withTotal
  tokens := s.tokens_withTotal
  listed some columnsOf := by simp [shown, withTotal, some]
  columns some db r' success := by
    obtain ⟨_, _, runs, rfl⟩ := Db.select_eq_ok_iff.mp success
    obtain ⟨p, rows, rfl, _, rfl, _, alone⟩ := Db.Selects.of_withTotal runs
    exact ⟨_, Db.select_eq_ok_iff.mpr ⟨p, rows, alone some, rfl⟩, rfl⟩
  unlisted none columnsOf := by simp [shown, withTotal, none]
  alone none db r' success := by
    obtain ⟨_, _, runs, rfl⟩ := Db.select_eq_ok_iff.mp success
    obtain ⟨p, rows, rfl, _, rfl, empty, _⟩ := Db.Selects.of_withTotal runs
    rw [Db.Plan.withTotal, empty none]
    rfl

end Sql.Select

namespace Query

/-- A select has no select list if nothing is projected and the root table has no key. -/
theorem Projects.items_eq_nil_iff {schema : SchemaLookup} {q : Query} {s : Sql.Select}
    {rules : Rules} (projects : q.Projects schema s rules) :
    s.items = [] ↔ q.columns = [] ∧ q.RootKey schema none := by
  obtain ⟨shown, key, each, root, all⟩ := projects.items
  rw [all, List.append_eq_nil_iff, ColumnRef.eq_of_shown each, List.map_eq_nil_iff,
    Option.toList_eq_nil_iff, Option.map_eq_none_iff]
  constructor
  · rintro ⟨none, rfl⟩
    exact ⟨none, root⟩
  · rintro ⟨none, keyless⟩
    exact ⟨none, root.unique keyless⟩

/-- A log, in a table without a key. -/
def plainLog : Db.Database where
  tables :=
    [{ name := "log"
       columns := [{ name := "note", type := "TEXT" }]
       rows := [⟨1, [.ofString "fed"]⟩] }]

/-- All of the log. -/
def logRows : Query where
  operation := .select
  table := { key := ⟨"log", 0⟩ }

theorem execute_logRows : ((Storage.database plainLog).execute logRows).1.response.data =
    some { rules := [], data := [[]], total := 1 } := by
  cbv

end Query

end QueryBoard
