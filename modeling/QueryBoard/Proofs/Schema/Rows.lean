import Mathlib.Data.String.Basic
import QueryBoard.Db.Introspection
import QueryBoard.Proofs.Fallible
import QueryBoard.Proofs.Firsts

/-!
# What a database says it holds

The rows for the columns of all tables and views are sorted, so those of one table follow each other
and one pass puts every table together once.  Sorting keeps rows that belong together in the order
in which they came.  The rows for one name are therefore those that stand under this name among the
rows for all names, and a table that is looked up is the one in the list of all.
-/

set_option autoImplicit false

namespace QueryBoard.Db

variable {α : Type}

/-! ## Sorting -/

/-- A list falls in one way only into a part with a property and one without. -/
theorem eq_filter_of_split {q : α → Bool} {front back : List α} (inFront : ∀ a ∈ front, q a = true)
    (inBack : ∀ a ∈ back, q a = false) :
    front = (front ++ back).filter q ∧ back = (front ++ back).filter fun a => !q a := by
  have none : back.filter q = [] := by
    rw [List.filter_eq_nil_iff]
    intro a member
    simp [inBack a member]
  have none' : front.filter (fun a => !q a) = [] := by
    rw [List.filter_eq_nil_iff]
    intro a member
    simp [inFront a member]
  have all : back.filter (fun a => !q a) = back := by
    rw [List.filter_eq_self]
    intro a member
    simp [inBack a member]
  rw [List.filter_append, List.filter_append, List.filter_eq_self.mpr inFront, none, none', all]
  exact ⟨(List.append_nil front).symm, (List.nil_append back).symm⟩

/-- Sorting makes no difference to what is left out. -/
theorem filter_mergeSort {le : α → α → Bool}
    (trans : ∀ a b c, le a b = true → le b c = true → le a c = true)
    (total : ∀ a b, (le a b || le b a) = true) (p : α → Bool) (l : List α) :
    (l.mergeSort le).filter p = (l.filter p).mergeSort le := by
  induction l with
  | nil => simp
  | cons a l ih =>
      obtain ⟨front, back, whole, rest, before⟩ := List.mergeSort_cons trans total a l
      rw [rest, List.filter_append] at ih
      rw [whole, List.filter_append]
      by_cases kept : p a = true
      · obtain ⟨front', back', whole', rest', before'⟩ :=
          List.mergeSort_cons trans total a (l.filter p)
        -- Both times the element stands between what is before it and what is not.
        have behind : ∀ b ∈ back, (!le a b) = false := by
          have sorted := List.pairwise_mergeSort trans total (a :: l)
          rw [whole] at sorted
          intro b member
          simp [List.rel_of_pairwise_cons (List.pairwise_append.mp sorted).2.1 member]
        have behind' : ∀ b ∈ back', (!le a b) = false := by
          have sorted := List.pairwise_mergeSort trans total (a :: l.filter p)
          rw [whole'] at sorted
          intro b member
          simp [List.rel_of_pairwise_cons (List.pairwise_append.mp sorted).2.1 member]
        have inFront : ∀ b ∈ front.filter p, (!le a b) = true :=
          fun b member => before b (List.mem_filter.mp member).1
        have inBack : ∀ b ∈ back.filter p, (!le a b) = false :=
          fun b member => behind b (List.mem_filter.mp member).1
        have split := eq_filter_of_split (q := fun b => !le a b) inFront inBack
        have split' := eq_filter_of_split (q := fun b => !le a b) before' behind'
        rw [ih, rest'] at split
        rw [List.filter_cons_of_pos kept, List.filter_cons_of_pos kept, whole', split.1, split.2,
          ← split'.1, ← split'.2]
      · rw [List.filter_cons_of_neg kept, List.filter_cons_of_neg kept, ih]

namespace SchemaRow

theorem before_iff {a b : SchemaRow} : before a b = true ↔
    a.table < b.table ∨ a.table = b.table ∧ a.column.name ≤ b.column.name := by
  unfold before
  split
  · next same => simp [same]
  · next other => simp [other]

theorem before_trans (a b c : SchemaRow) (first : before a b = true) (second : before b c = true) :
    before a c = true := by
  rw [before_iff] at first second ⊢
  rcases first with first | ⟨same, first⟩
  · rcases second with second | ⟨same', _⟩
    · exact Or.inl (first.trans second)
    · exact Or.inl (same' ▸ first)
  · rcases second with second | ⟨same', second⟩
    · exact Or.inl (same ▸ second)
    · exact Or.inr ⟨same.trans same', first.trans second⟩

theorem before_total (a b : SchemaRow) : (before a b || before b a) = true := by
  rw [Bool.or_eq_true, before_iff, before_iff]
  rcases lt_trichotomy a.table b.table with less | same | more
  · exact Or.inl (Or.inl less)
  · rcases le_total a.column.name b.column.name with less | more
    · exact Or.inl (Or.inr ⟨same, less⟩)
    · exact Or.inr (Or.inr ⟨same.symm, more⟩)
  · exact Or.inr (Or.inl more)

/-- Whether the rows stand in the order of their tables. -/
def Sorted (rows : List SchemaRow) : Prop :=
  rows.Pairwise fun a b => a.table ≤ b.table

theorem table_le {a b : SchemaRow} (first : before a b = true) : a.table ≤ b.table :=
  (before_iff.mp first).elim le_of_lt fun same => le_of_eq same.1

/-! ## Putting tables together -/

/-- A table with all columns that rows have for it. -/
def whole (rows : List SchemaRow) (name : String) : QueryBoard.Table :=
  ⟨name, (rows.filter fun r => r.table == name).map fun r => r.column⟩

def names (rows : List SchemaRow) : List String := (rows.map fun r => r.table).eraseDups

theorem mem_names {rows : List SchemaRow} {name : String} :
    name ∈ names rows ↔ ∃ r ∈ rows, r.table = name := by
  rw [names, List.mem_eraseDups, List.mem_map]

theorem names_append (rows : List SchemaRow) (r : SchemaRow) :
    names (rows ++ [r]) = names rows ++ if r.table ∈ names rows then [] else [r.table] := by
  simp only [names, List.map_append, List.map_singleton, eraseDups_concat, List.mem_eraseDups]

theorem whole_append_self (rows : List SchemaRow) (r : SchemaRow) :
    whole (rows ++ [r]) r.table =
      { whole rows r.table with columns := (whole rows r.table).columns ++ [r.column] } := by
  simp [whole]

theorem whole_append_of_ne {rows : List SchemaRow} {r : SchemaRow} {name : String}
    (other : r.table ≠ name) : whole (rows ++ [r]) name = whole rows name := by
  simp [whole, other]

theorem collect_of_new {r : SchemaRow} {tables : List QueryBoard.Table}
    (new : ∀ t ∈ tables, t.name ≠ r.table) : collect r tables = ⟨r.table, [r.column]⟩ :: tables := by
  cases tables with
  | nil => rfl
  | cons t rest => rw [collect, if_neg (new t List.mem_cons_self)]

theorem Sorted.names_pairwise {rows : List SchemaRow} (sorted : Sorted rows) :
    (names rows).Pairwise (· < ·) := by
  induction rows using List.reverseRecOn with
  | nil => exact List.Pairwise.nil
  | append_singleton rows r ih =>
      obtain ⟨before, _, last⟩ := List.pairwise_append.mp sorted
      rw [names_append]
      split
      · rw [List.append_nil]
        exact ih before
      · next new =>
        refine List.pairwise_append.mpr ⟨ih before, List.pairwise_singleton _ _, ?_⟩
        intro name listed _ is
        rw [List.mem_singleton.mp is]
        obtain ⟨r', member, rfl⟩ := mem_names.mp listed
        exact lt_of_le_of_ne (last r' member r (List.mem_singleton_self r)) fun same =>
          new (same ▸ listed)

/-- The name of the last row is the last of the names. -/
theorem Sorted.names_split {rows : List SchemaRow} {r : SchemaRow} (sorted : Sorted (rows ++ [r]))
    (known : r.table ∈ names rows) :
    ∃ others, names rows = others ++ [r.table] ∧ ∀ name ∈ others, r.table ≠ name := by
  obtain ⟨before, _, last⟩ := List.pairwise_append.mp sorted
  obtain ⟨others, behind, split⟩ := List.append_of_mem known
  have order := Sorted.names_pairwise before
  rw [split] at order
  obtain ⟨_, tail, across⟩ := List.pairwise_append.mp order
  have none : behind = [] := by
    rw [List.eq_nil_iff_forall_not_mem]
    intro name member
    have listed : name ∈ names rows := by simp [split, member]
    obtain ⟨r', inside, rfl⟩ := mem_names.mp listed
    exact absurd (List.rel_of_pairwise_cons tail member)
      (not_lt_of_ge (last r' inside r (List.mem_singleton_self r)))
  refine ⟨others, by rw [split, none], fun name member => ?_⟩
  exact (across name member r.table List.mem_cons_self).ne'

/-- One pass over sorted rows puts together every table with all its columns. -/
theorem Sorted.tables_eq {rows : List SchemaRow} (sorted : Sorted rows) :
    tables rows = (names rows).map (whole rows) := by
  induction rows using List.reverseRecOn with
  | nil => rfl
  | append_singleton rows r ih =>
      have step : tables (rows ++ [r]) = (collect r (tables rows).reverse).reverse := by
        rw [tables, tables, List.reverse_reverse, List.foldl_append]
        rfl
      rw [step, ih (List.pairwise_append.mp sorted).1, names_append]
      by_cases known : r.table ∈ names rows
      · obtain ⟨others, split, apart⟩ := sorted.names_split known
        have same : others.map (whole (rows ++ [r])) = others.map (whole rows) :=
          List.map_congr_left fun name member => whole_append_of_ne (apart name member)
        rw [if_pos known, List.append_nil, split, List.map_append, List.map_singleton,
          List.reverse_append, List.reverse_singleton, List.singleton_append, collect,
          if_pos (show (whole rows r.table).name = r.table from rfl),
          List.reverse_cons, List.reverse_reverse, List.map_append, List.map_singleton, same,
          whole_append_self]
      · have new : ∀ t ∈ ((names rows).map (whole rows)).reverse, t.name ≠ r.table := by
          intro t member same
          obtain ⟨name, listed, rfl⟩ := List.mem_map.mp (List.mem_reverse.mp member)
          exact known (same ▸ listed)
        have none : rows.filter (fun r' => r'.table == r.table) = [] :=
          filter_key_eq_nil fun listed => known (mem_names.mpr (List.mem_map.mp listed))
        have same : (names rows).map (whole (rows ++ [r])) = (names rows).map (whole rows) :=
          List.map_congr_left fun name member =>
            whole_append_of_ne fun same => known (same ▸ member)
        rw [collect_of_new new, if_neg known, List.reverse_cons, List.reverse_reverse,
          List.map_append, List.map_singleton, same, whole_append_self]
        simp [whole, none]

theorem Sorted.names_tables {rows : List SchemaRow} (sorted : Sorted rows) :
    (tables rows).map (fun t => t.name) = names rows := by
  rw [sorted.tables_eq, List.map_map]
  exact List.map_id _

theorem whole_filter (rows : List SchemaRow) (name : String) :
    whole (rows.filter fun r => r.table == name) name = whole rows name := by
  rw [whole, List.filter_filter]
  simp only [Bool.and_self]
  rfl

theorem Sorted.filter {rows : List SchemaRow} (sorted : Sorted rows) (p : SchemaRow → Bool) :
    Sorted (rows.filter p) :=
  List.Pairwise.filter p sorted

/-- The rows of one name put together what stands under it. -/
theorem Sorted.tables_filter {rows : List SchemaRow} (sorted : Sorted rows) (name : String) :
    tables (rows.filter fun r => r.table == name) =
      (tables rows).filter fun t => t.name == name := by
  have same : names (rows.filter fun r => r.table == name) =
      (names rows).filter fun n => n == name := by
    rw [names, names, filter_eraseDups, List.filter_map]
    rfl
  rw [(sorted.filter _).tables_eq, sorted.tables_eq, List.filter_map, same]
  refine List.map_congr_left fun n member => ?_
  have is : n = name := by simpa using (List.mem_filter.mp member).2
  rw [is, whole_filter]

theorem table_of_mem_ofTable (t : QueryBoard.Table) : ∀ r ∈ ofTable t, r.table = t.name := by
  intro r member
  obtain ⟨c, _, rfl⟩ := List.mem_map.mp member
  rfl

/-- The rows of tables in the order in which they are given. -/
def ofTables (tables : List QueryBoard.Table) : List SchemaRow :=
  (tables.flatMap ofTable).mergeSort before

theorem sorted_ofTables (tables : List QueryBoard.Table) : Sorted (ofTables tables) :=
  (List.pairwise_mergeSort before_trans before_total _).imp table_le

/-- Rows in order, none of which could stand in another's place, are those of the tables. -/
theorem ofTables_eq {tables : List QueryBoard.Table} {rows : List SchemaRow}
    (perm : (tables.flatMap ofTable).Perm rows) (rising : rows.Pairwise fun a b => before a b = true)
    (strict : ∀ a ∈ rows, ∀ b ∈ rows, before a b = true → before b a = true → a = b) :
    ofTables tables = rows := by
  have same : (ofTables tables).Perm rows := (List.mergeSort_perm _ _).trans perm
  refine same.eq_of_pairwise ?_ (List.pairwise_mergeSort before_trans before_total _) rising
  exact fun a b inside inside' => strict a (same.mem_iff.mp inside) b inside'

theorem filter_ofTables (tables : List QueryBoard.Table) (name : String) :
    (ofTables tables).filter (fun r => r.table == name) =
      ofTables (tables.filter fun t => t.name == name) := by
  rw [ofTables, filter_mergeSort before_trans before_total,
    filter_flatMap_key table_of_mem_ofTable, ofTables]

theorem mem_names_ofTables {tables : List QueryBoard.Table} (some : ∀ t ∈ tables, t.columns ≠ [])
    {name : String} : name ∈ names (ofTables tables) ↔ ∃ t ∈ tables, t.name = name := by
  rw [mem_names]
  constructor
  · rintro ⟨r, member, rfl⟩
    obtain ⟨t, inside, own⟩ := List.mem_flatMap.mp (List.mem_mergeSort.mp member)
    exact ⟨t, inside, (table_of_mem_ofTable t r own).symm⟩
  · rintro ⟨t, inside, rfl⟩
    obtain ⟨c, column⟩ := List.exists_mem_of_ne_nil _ (some t inside)
    have listed : SchemaRow.mk t.name c ∈ tables.flatMap ofTable :=
      List.mem_flatMap.mpr ⟨t, inside, List.mem_map_of_mem column⟩
    exact ⟨⟨t.name, c⟩, List.mem_mergeSort.mpr listed, rfl⟩

/-- Whatever stands between them, the rows of a table are those of its columns. -/
theorem perm_whole_ofTables {tables : List QueryBoard.Table}
    (distinct : (tables.map fun t => t.name).Nodup) {t : QueryBoard.Table} (member : t ∈ tables) :
    (whole (ofTables tables) t.name).columns.Perm t.columns := by
  have own : (ofTables tables).filter (fun r => r.table == t.name) = ofTables [t] := by
    rw [filter_ofTables, filter_eq_singleton distinct member]
  have columns : (ofTable t).map (fun r => r.column) = t.columns := by
    rw [ofTable, List.map_map]
    exact List.map_id _
  rw [whole, own, ← columns, ofTables, List.flatMap_singleton]
  exact (List.mergeSort_perm (ofTable t) before).map fun r => r.column

theorem pairwise_whole_ofTables (tables : List QueryBoard.Table) (name : String) :
    (whole (ofTables tables) name).columns.Pairwise fun a b => a.name ≤ b.name := by
  have order : (ofTables tables).Pairwise fun a b => before a b = true :=
    List.pairwise_mergeSort before_trans before_total _
  rw [whole, List.pairwise_map]
  refine (order.filter _).imp_of_mem fun {a b} inside inside' first => ?_
  have left : a.table = name := beq_iff_eq.mp (List.mem_filter.mp inside).2
  have right : b.table = name := beq_iff_eq.mp (List.mem_filter.mp inside').2
  rcases before_iff.mp first with less | ⟨_, less⟩
  · exact absurd (left.trans right.symm) less.ne
  · exact less

end SchemaRow

/-! ## The rows of a database -/

namespace Database

variable {db : Database} {tables : List QueryBoard.Table}

theorem schemaTables_filter {looked : String → Bool} (success : db.schemaTables looked = .ok tables)
    (name : String) : db.schemaTables (fun n => looked n && n == name) =
      .ok (tables.filter fun t => t.name == name) := by
  obtain ⟨views, read, made⟩ := bind_eq_ok_iff.mp success
  cases made
  have one := mapM_filter (p := fun v : View => v.name == name)
    (q := fun t : QueryBoard.Table => t.name == name) (fun v t found => by
      obtain ⟨r, _, same⟩ := bind_eq_ok_iff.mp found
      cases same
      rfl) read
  simp only [List.filter_filter, Bool.and_comm] at one
  refine bind_eq_ok_iff.mpr ⟨_, one, ?_⟩
  simp only [List.filter_append, List.filter_map, List.filter_filter, Function.comp_def,
    Bool.and_comm]
  rfl

theorem schemaRows_eq_ok_iff {only : Option String} {rows : List SchemaRow} :
    db.schemaRows only = .ok rows ↔ ∃ tables,
      db.schemaTables (fun name => !isInternal name && only.all (· == name)) = .ok tables ∧
        rows = SchemaRow.ofTables tables := by
  rw [schemaRows, bind_eq_ok_iff]
  simp only [pure_eq_ok, Except.ok.injEq, SchemaRow.ofTables, eq_comm]

/-- The rows for a name are those that the rows of all tables have for it. -/
theorem schemaRows_filter {rows : List SchemaRow} (success : db.schemaRows none = .ok rows)
    (name : String) : db.schemaRows (some name) = .ok (rows.filter fun r => r.table == name) := by
  obtain ⟨tables, read, rfl⟩ := schemaRows_eq_ok_iff.mp success
  simp only [Option.all_none, Bool.and_true] at read
  refine schemaRows_eq_ok_iff.mpr ⟨tables.filter fun t => t.name == name, ?_, ?_⟩
  · have asked : (fun n => !isInternal n && Option.all (· == n) (some name)) =
        fun n => !isInternal n && n == name := by
      funext n
      rw [Option.all_some, BEq.comm]
    rw [asked]
    exact schemaTables_filter read name
  · rw [SchemaRow.filter_ofTables]

theorem readTables_eq_ok_iff {only : Option String} :
    db.readTables only = .ok tables ↔
      ∃ rows, db.schemaRows only = .ok rows ∧ tables = SchemaRow.tables rows := by
  rw [readTables, mapError_eq_ok_iff]
  cases db.schemaRows only <;> simp [Functor.map, Except.map, eq_comm]

/-- A table that is looked up is the one in the list of all tables. -/
theorem schemaTable_eq (success : db.schema = .ok tables) : db.schemaTable = Catalog.table tables := by
  funext name
  obtain ⟨rows, read, rfl⟩ := readTables_eq_ok_iff.mp success
  have sorted : SchemaRow.Sorted rows := by
    obtain ⟨_, _, rfl⟩ := schemaRows_eq_ok_iff.mp read
    exact SchemaRow.sorted_ofTables _
  have one : db.readTables (some name) =
      .ok ((SchemaRow.tables rows).filter fun t => t.name == name) :=
    readTables_eq_ok_iff.mpr
      ⟨_, schemaRows_filter read name, (sorted.tables_filter name).symm⟩
  rw [schemaTable, one, ok_bind, Catalog.table, ← List.head?_filter]
  cases (SchemaRow.tables rows).filter fun t => t.name == name <;> rfl

/-! ## Every table once -/

/-- The names of all tables and views. -/
def names (db : Database) : List String :=
  (db.tables.map fun t => t.name) ++ db.views.map fun v => v.name

/-- What every database keeps to: no two tables or views of one name, and none without columns. -/
structure Named (db : Database) : Prop where
  distinct : db.names.Nodup
  tables : ∀ t ∈ db.tables, t.columns ≠ []
  views : ∀ v ∈ db.views, v.columns ≠ []

/-- Whether there is a table or view of a name with certain columns. -/
inductive Holds (db : Database) : String → List QueryBoard.Column → Prop
  | table {t : Table} (stored : t ∈ db.tables) : Holds db t.name t.schemaColumns
  | view {v : View} {r : Relation} (stored : v ∈ db.views) (shown : db.relationOf v = .ok r) :
      Holds db v.name r.schemaColumns

/-- Whether tables are those of a database: each of its tables and views once, unless it is internal,
with all the columns that it has, tables and columns in the order of their names. -/
structure Listed (db : Database) (tables : List QueryBoard.Table) : Prop where
  once : (tables.map fun t => t.name).Pairwise (· < ·)
  all : ∀ name, name ∈ tables.map (fun t => t.name) ↔ name ∈ db.names ∧ isInternal name = false
  columns : ∀ t ∈ tables, ∃ columns, db.Holds t.name columns ∧ t.columns.Perm columns
  ordered : ∀ t ∈ tables, t.columns.Pairwise fun a b => a.name ≤ b.name

theorem viewRelation_eq {v : View} {r : Relation} : ∀ {bound : Nat} {seen : List String},
    db.viewRelation bound seen v = .ok r → ∃ r', r = v.relation r'
  | 0, _, success => by cases success
  | bound + 1, seen, success => by
      rw [viewRelation] at success
      split at success
      · cases success
      · split at success
        · cases success
          exact ⟨_, rfl⟩
        · cases inner : db.viewRelation bound (v.name :: seen) _ with
          | error e =>
              rw [inner] at success
              cases success
          | ok r' =>
              rw [inner] at success
              cases success
              exact ⟨r', rfl⟩
        · cases success

theorem length_distinctNames (names : List String) :
    (distinctNames names).length = names.length := by
  rw [distinctNames, List.length_reverse]
  have grows : ∀ used : List String,
      (names.foldl (fun used name => freshName used name (used.length + 1) 0 :: used) used).length =
        used.length + names.length := by
    induction names with
    | nil => intro used; rfl
    | cons name names ih =>
        intro used
        rw [List.foldl_cons, ih, List.length_cons, List.length_cons]
        omega
  rw [grows, List.length_nil, Nat.zero_add]

theorem columns_ne_nil (named : Named db) {name : String} {columns : List QueryBoard.Column}
    (held : db.Holds name columns) : columns ≠ [] := by
  apply List.ne_nil_of_length_pos
  cases held with
  | @table t stored =>
      have some := List.length_pos_iff.mpr (named.tables t stored)
      simpa [Table.schemaColumns] using some
  | @view v r stored shown =>
      have some := List.length_pos_iff.mpr (named.views v stored)
      obtain ⟨r', rfl⟩ := viewRelation_eq shown
      simpa [Relation.schemaColumns, View.relation, length_distinctNames] using some

theorem mem_schemaTables {looked : String → Bool} (success : db.schemaTables looked = .ok tables)
    {t : QueryBoard.Table} (member : t ∈ tables) :
    looked t.name = true ∧ db.Holds t.name t.columns := by
  obtain ⟨views, read, made⟩ := bind_eq_ok_iff.mp success
  cases made
  rcases List.mem_append.mp member with member | member
  · obtain ⟨stored, kept, rfl⟩ := List.mem_map.mp member
    obtain ⟨inside, asked⟩ := List.mem_filter.mp kept
    exact ⟨asked, .table inside⟩
  · obtain ⟨v, kept, found⟩ := exists_of_mem_mapM read t member
    obtain ⟨r, shown, same⟩ := bind_eq_ok_iff.mp found
    cases same
    obtain ⟨inside, asked⟩ := List.mem_filter.mp kept
    exact ⟨asked, .view inside shown⟩

theorem names_schemaTables {looked : String → Bool}
    (success : db.schemaTables looked = .ok tables) :
    (tables.map fun t => t.name) = db.names.filter looked := by
  obtain ⟨views, read, made⟩ := bind_eq_ok_iff.mp success
  cases made
  have same : (views.map fun t => t.name) = (db.views.filter (looked ·.name)).map fun v => v.name :=
    map_eq_of_mapM (fun v t found => by
      obtain ⟨r, _, made⟩ := bind_eq_ok_iff.mp found
      cases made
      rfl) read
  rw [List.map_append, same, names, List.filter_append, List.filter_map, List.filter_map,
    List.map_map]
  rfl

theorem listed_of_schema (named : Named db) (success : db.schema = .ok tables) :
    db.Listed tables := by
  obtain ⟨rows, read, rfl⟩ := readTables_eq_ok_iff.mp success
  obtain ⟨described, found, rfl⟩ := schemaRows_eq_ok_iff.mp read
  simp only [Option.all_none, Bool.and_true] at found
  have sorted := SchemaRow.sorted_ofTables described
  have own := names_schemaTables found
  have distinct : (described.map fun t => t.name).Nodup := by
    rw [own]
    exact named.distinct.filter _
  have listed (name : String) : name ∈ SchemaRow.names (SchemaRow.ofTables described) ↔
      ∃ t ∈ described, t.name = name :=
    SchemaRow.mem_names_ofTables fun t inside =>
      columns_ne_nil named (mem_schemaTables found inside).2
  constructor
  · rw [sorted.names_tables]
    exact sorted.names_pairwise
  · intro name
    rw [sorted.names_tables, listed, ← List.mem_map (f := fun t : QueryBoard.Table => t.name), own,
      List.mem_filter, Bool.not_eq_true']
  · intro t member
    rw [sorted.tables_eq] at member
    obtain ⟨name, inside, rfl⟩ := List.mem_map.mp member
    obtain ⟨t, stands, rfl⟩ := (listed name).mp inside
    exact ⟨t.columns, (mem_schemaTables found stands).2,
      SchemaRow.perm_whole_ofTables distinct stands⟩
  · intro t member
    rw [sorted.tables_eq] at member
    obtain ⟨name, _, rfl⟩ := List.mem_map.mp member
    exact SchemaRow.pairwise_whole_ofTables described name

end Database

end QueryBoard.Db
