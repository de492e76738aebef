import QueryBoard.Proofs.Compile.Projection
import QueryBoard.Proofs.Db.Plan
import QueryBoard.Proofs.Execution.Responses
import QueryBoard.Proofs.Firsts
import QueryBoard.Proofs.Json.Distinct
import Mathlib.Data.Option.Basic

/-!
# What the records of a select carry

A result has a cell for every item of the statement that was run, and a record keeps those whose
column is not reserved, each column once.  So a record has every column that the rules announce, the
reserved ones apart: those are the columns, shown as they are, of a table whose alias itself starts
like a reserved column.
-/

set_option autoImplicit false

namespace QueryBoard

/-! ## Results -/

namespace Db

/-- What a plan shows has a column for each item of the block, under its label. -/
theorem Plans.labelled {bindings : List Binding} {s : Sql.Select} {p : Plan}
    (planned : Plans bindings s p) (some : s.items ≠ []) {labels : List String}
    (labelled : s.items.map (·.label) = labels.map Option.some) :
    p.columns = labels ∧ p.items.length = labels.length := by
  cases planned with | @of items _ _ _ _ _ resolved =>
  have listed : s.items.isEmpty = false := by simpa using some
  have width : items.length = s.items.length := by
    simpa using length_resolveList _ _ _ resolved
  have shown : s.items = (s.items.zip items).map Prod.fst :=
    (List.map_fst_zip (Nat.le_of_eq width.symm)).symm
  have columns : (s.items.zip items).map (fun e => outputName bindings e.1 e.2) = labels := by
    refine List.map_injective_iff.mpr (Option.some_injective _) ?_
    rw [← labelled]
    conv_rhs => rw [shown]
    rw [List.map_map, List.map_map]
    refine List.map_congr_left fun e member => ?_
    have own : e.1.label ∈ s.items.map (·.label) :=
      List.mem_map_of_mem (List.of_mem_zip member).1
    rw [labelled] at own
    obtain ⟨label, _, given⟩ := List.mem_map.mp own
    simp only [Function.comp_apply, outputName, ← given, Option.getD_some]
  rw [listed, ← columns]
  exact ⟨List.map_map, by simp only [Bool.false_eq_true, if_false, List.length_map]⟩

theorem select_ok {db : Database} {s : Sql.Select} {r : ResultSet} (success : db.select s = .ok r)
    (some : s.items ≠ []) {labels : List String}
    (labelled : s.items.map (·.label) = labels.map Option.some) :
    r.columns = labels ∧ ∀ row ∈ r.rows, row.length = labels.length := by
  obtain ⟨p, rows, ⟨_, ⟨bindings, _, planned⟩, _, evaluated⟩, rfl⟩ := select_eq_ok_iff.mp success
  obtain ⟨columns, width⟩ := planned.labelled some labelled
  refine ⟨columns, fun row member => ?_⟩
  rw [length_of_mem_result evaluated row (mem_of_mem_page member), width]

end Db

/-! ## Keys of records -/

/-- A key that is put in again keeps its first place. -/
theorem map_fst_foldl_upsert {α β : Type} (g : α → β) (entries : List (String × α)) :
    (entries.foldl (fun r e => Json.upsert r e.1 (g e.2)) []).map Prod.fst =
      (entries.map Prod.fst).eraseDups := by
  induction entries using List.reverseRecOn with
  | nil => rfl
  | append_singleton entries e ih =>
      rw [List.foldl_concat, Json.map_fst_upsert, ih, List.map_append, List.map_singleton,
        eraseDups_concat]
      by_cases known : e.1 ∈ entries.map Prod.fst
      · rw [if_pos (List.mem_eraseDups.mpr known), if_pos known, List.append_nil]
      · rw [if_neg (mt List.mem_eraseDups.mp known), if_neg known]

theorem map_fst_recordOf {columns : List String} {row : List Db.Cell}
    (width : row.length = columns.length) : (recordOf columns row).map Prod.fst =
      (columns.filter fun name => !name.startsWith reservedStart).eraseDups := by
  rw [recordOf, map_fst_foldl_upsert]
  conv_rhs => rw [← List.map_fst_zip (Nat.le_of_eq width.symm)]
  rw [List.filter_map]
  rfl

theorem startsWith_reservedStart_iff (name : String) :
    name.startsWith reservedStart = true ↔ ['$', '$'] <+: name.toList := by
  rw [String.startsWith_string_iff]
  rfl

theorem totalColumn_reserved : totalColumn.startsWith reservedStart = true :=
  (startsWith_reservedStart_iff totalColumn).mpr (by decide)

theorem rootIdColumn_not_reserved : ¬ rootIdColumn.startsWith reservedStart = true :=
  mt (startsWith_reservedStart_iff rootIdColumn).mp (by decide)

namespace ColumnRef

/-- Whether no record shows the column: its output name starts with the alias, and the alias like a
reserved column. -/
def IsHidden (c : ColumnRef) : Prop :=
  c.func = none ∧ c.label.startsWith reservedStart = true

theorem isHidden_iff (c : ColumnRef) :
    c.outputName.startsWith reservedStart = true ↔ c.IsHidden := by
  -- The point behind a shorter alias is no part of a reserved start.
  have behind (l m : List Char) : ['$', '$'] <+: l ++ '.' :: m ↔ ['$', '$'] <+: l := by
    rcases l with _ | ⟨a, _ | ⟨b, l⟩⟩ <;> simp
  rw [IsHidden, startsWith_reservedStart_iff, startsWith_reservedStart_iff, outputName]
  cases c.func with
  | none => simpa using behind c.label.toList c.name.toList
  | some f => cases f <;> simp [Aggregate.name]

end ColumnRef

namespace Query

/-- Which keys a record of a select has. -/
structure Carries (q : Query) (s : Sql.Select) (rules : Rules) (record : Record) : Prop where
  keys : record.map Prod.fst =
    ((s.items.filterMap (·.label)).filter fun name => !name.startsWith reservedStart).eraseDups
  announced : ∀ e ∈ rules, ∀ name ∈ e.2, name ∈ record.map Prod.fst ↔
    ∀ c ∈ q.columns, c.outputName = name → ¬ c.IsHidden
  root : rootIdColumn ∈ record.map Prod.fst ↔ some rootIdColumn ∈ s.items.map (·.label)
  unreserved : ∀ name ∈ record.map Prod.fst, ¬ name.startsWith reservedStart = true
  noTotal : totalColumn ∉ record.map Prod.fst

theorem Projects.labels {schema : SchemaLookup} {q : Query} {s : Sql.Select} {rules : Rules}
    (projects : q.Projects schema s rules) :
    s.items.map (·.label) = (s.items.filterMap (·.label)).map Option.some := by
  have named : ∀ i ∈ s.items, i.label = some (i.label.getD "") := by
    obtain ⟨key, each⟩ := projects.mem_items
    intro i member
    rcases each i member with ⟨c, _, shown⟩ | ⟨name, _, rfl⟩
    · rw [shown.eq_selectItem]
      rfl
    · rfl
  rw [List.filterMap_eq_map_iff_forall_eq_some.mpr named, List.map_map]
  exact List.map_congr_left named

theorem Projects.mem_labels {schema : SchemaLookup} {q : Query} {s : Sql.Select} {rules : Rules}
    (projects : q.Projects schema s rules) {e : String × List String} (member : e ∈ rules)
    {name : String} (announced : name ∈ e.2) :
    name ∈ s.items.filterMap (·.label) ∧ ∃ c ∈ q.columns, c.outputName = name := by
  obtain ⟨_, same⟩ := (projects.gathered e.1 e.2).mp member
  rw [same] at announced
  obtain ⟨c, listed, rfl⟩ := List.mem_map.mp announced
  have column := (List.mem_filter.mp listed).1
  exact ⟨List.mem_filterMap.mpr ⟨_, projects.selectItem_mem column, rfl⟩, c, column, rfl⟩

theorem carries_of_keys {schema : SchemaLookup} {q : Query} {s : Sql.Select} {rules : Rules}
    (projects : q.Projects schema s rules) {record : Record} (keys : record.map Prod.fst =
      ((s.items.filterMap (·.label)).filter fun name => !name.startsWith reservedStart).eraseDups) :
    q.Carries s rules record := by
  have listed (name : String) : name ∈ record.map Prod.fst ↔
      name ∈ s.items.filterMap (·.label) ∧ ¬ name.startsWith reservedStart = true := by
    rw [keys, List.mem_eraseDups, List.mem_filter, Bool.not_eq_true', Bool.not_eq_true]
  refine ⟨keys, ?_, ?_, fun name member => ((listed name).mp member).2, ?_⟩
  · intro e member name announced
    obtain ⟨shown, c, column, rfl⟩ := projects.mem_labels member announced
    rw [listed, c.isHidden_iff]
    constructor
    · rintro ⟨_, plain⟩ b _ same hidden
      rw [← b.isHidden_iff, same, c.isHidden_iff] at hidden
      exact plain hidden
    · exact fun plain => ⟨shown, plain c column rfl⟩
  · rw [listed, List.mem_filterMap, List.mem_map]
    exact and_iff_left rootIdColumn_not_reserved
  · exact fun member => ((listed _).mp member).2 totalColumn_reserved

end Query

namespace Storage

/-- What a select that succeeds has gone through. -/
theorem exists_selected {storage : Storage} {q : Query} (selects : q.operation = .select)
    (success : (storage.execute q).1.response.isOk = true) :
    ∃ db c s r, storage.open? = .ok db ∧ q.compile backendDialect storage.table = .ok c ∧
      c.statement = .select s ∧ q.Projects storage.table s c.rules ∧
      db.select { s with items := s.items ++ [totalItem] } = .ok r ∧
      (storage.execute q).1.response.data = some (selectData c.rules r) := by
  have goes := storage.goes_execute q
  generalize storage.execute q = r at goes success ⊢
  cases goes with
  | refused _ | failed _ _ => cases success
  | @ran c db _ _ compiled opened runs =>
      obtain ⟨s, built, projects⟩ := Query.exists_select selects compiled
      rw [built] at runs
      obtain ⟨r, selected, same⟩ := bind_eq_ok_iff.mp runs
      cases same
      exact ⟨db, c, s, r, opened, compiled, built, projects, selected, rfl⟩

/-- The records of a select have a column for every name that the rules announce, in the order of
projection, but for the columns that stay hidden because of their alias. -/
theorem records_carry (storage : Storage) (q : Query) (selects : q.operation = .select)
    (success : (storage.execute q).1.response.isOk = true) :
    ∃ d c s, (storage.execute q).1.response.data = some d ∧
      q.compile backendDialect storage.table = .ok c ∧ c.statement = .select s ∧
      d.rules = c.rules ∧ ∀ record ∈ d.data, q.Carries s d.rules record := by
  obtain ⟨db, c, s, r, _, compiled, built, projects, selected, shown⟩ :=
    exists_selected selects success
  refine ⟨_, c, s, shown, compiled, built, rfl, fun record member => ?_⟩
  obtain ⟨row, listed, rfl⟩ := List.mem_map.mp member
  have labelled : (s.items ++ [totalItem]).map (·.label) =
      (s.items.filterMap (·.label) ++ [totalColumn]).map Option.some := by
    rw [List.map_append, List.map_append, projects.labels]
    rfl
  obtain ⟨columns, width⟩ := Db.select_ok selected (by simp) labelled
  refine Query.carries_of_keys projects ?_
  rw [columns, map_fst_recordOf (width row listed), List.filter_append,
    List.filter_cons_of_neg (by simp [totalColumn_reserved]), List.filter_nil, List.append_nil]

theorem isOk_of_data {o : Outcome} {d : SelectData} (shown : o.response.data = some d) :
    o.response.isOk = true := by
  obtain ⟨result, sql⟩ := o
  cases result with
  | error e => cases shown
  | ok data => rfl

/-- Pets, and a log in a table whose name starts like a reserved column. -/
def pets : Storage :=
  .database
    { tables :=
        [{ name := "pets"
           columns := [{ name := "name", type := "TEXT" }]
           rows := [⟨1, [.ofString "Rex"]⟩, ⟨2, [.ofString "Tom"]⟩] },
         { name := "$$log"
           columns := [{ name := "note", type := "TEXT" }]
           rows := [⟨1, [.ofString "fed"]⟩] }] }

/-- The names of all pets, twice; they count as the key of the table. -/
def petNames : Query where
  operation := .select
  table := { key := ⟨"pets", 0⟩ }
  columns := [(ColumnRef.of ⟨"pets", 0⟩ "name").asPrimaryKey, .of ⟨"pets", 0⟩ "name"]

theorem execute_petNames : (pets.execute petNames).1.response.data =
    some
      { rules := [("", ["pets.name", "pets.name"])]
        data := [[("pets.name", .str "Rex"), ("$root_id", .str "Rex")],
          [("pets.name", .str "Tom"), ("$root_id", .str "Tom")]]
        total := 2 } := by
  cbv

/-- A name that is projected twice is one key, and the key of the root table is another. -/
theorem records_carry_petNames : ∃ d c s, (pets.execute petNames).1.response.data = some d ∧
    petNames.compile backendDialect pets.table = .ok c ∧ c.statement = .select s ∧
      d.rules = [("", ["pets.name", "pets.name"])] ∧ d.data.length = 2 ∧
      ∀ record ∈ d.data, petNames.Carries s d.rules record := by
  obtain ⟨d, c, s, shown, compiled, built, _, carries⟩ :=
    records_carry pets petNames rfl (isOk_of_data execute_petNames)
  have same := Option.some.inj (shown.symm.trans execute_petNames)
  exact ⟨d, c, s, shown, compiled, built, by rw [same], by rw [same]; rfl, carries⟩

/-- The notes of the log. -/
def logNotes : Query where
  operation := .select
  table := { key := ⟨"$$log", 0⟩ }
  columns := [(ColumnRef.of ⟨"$$log", 0⟩ "note").asPrimaryKey]

theorem execute_logNotes : (pets.execute logNotes).1.response.data =
    some
      { rules := [("", ["$$log.note"])]
        data := [[("$root_id", .str "fed")]]
        total := 1 } := by
  cbv

/-- The one column that the rules announce is in no record. -/
theorem logNotes_hidden : ∃ d, (pets.execute logNotes).1.response.isOk = true ∧
    (pets.execute logNotes).1.response.data = some d ∧
      ∃ record ∈ d.data, ∃ e ∈ d.rules, ∃ name ∈ e.2, name ∉ record.map Prod.fst :=
  ⟨_, isOk_of_data execute_logNotes, execute_logNotes,
    [("$root_id", .str "fed")], by simp, ("", ["$$log.note"]), by simp, "$$log.note", by simp,
    by simp⟩

end Storage

end QueryBoard
