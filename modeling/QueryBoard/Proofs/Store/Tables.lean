import QueryBoard.Proofs.Db.Row
import QueryBoard.Proofs.Db.Write
import QueryBoard.Proofs.Firsts
import QueryBoard.Proofs.Store.Limits
import QueryBoard.Store.Tables

/-!
# The store in the tables of a database

A database stands for a store when each of its tables has the rows of the store, in their order.  A
table that holds records in its rows keeps to what is done to them: a new record comes behind all
others, a changed one stays in its place, and the rest keeps its order when some are gone.
-/

set_option autoImplicit false

namespace QueryBoard

open Db (Cell Row Target)

/-! ## Cells -/

def StoredWidget.cells (r : StoredWidget) : List Cell :=
  [.ofString r.id, .ofString r.name, .ofString r.kind, .ofText r.props, .ofText r.query,
    .ofText r.parent]

def StoredDashboard.cells (r : StoredDashboard) : List Cell := [.ofString r.id, .ofString r.name]

def Placement.cells (p : Placement) : List Cell :=
  [.ofString p.dashboard, .ofString p.widget, .int p.x, .int p.y, .int p.w, .int p.h]

namespace Store

/-! ## Tables with the rows of records -/

section

variable {α : Type} {definition t : Db.Table} {cells : α → List Cell} {n : Nat} {as : List α}

/-- Whether a table that was made by a definition has the rows of some records, and room for `n`
more. -/
structure Holds (definition : Db.Table) (cells : α → List Cell) (n : Nat) (as : List α)
    (t : Db.Table) : Prop where
  made : t = { definition with rows := t.rows, lastId := t.lastId }
  ordered : t.Ordered
  room : t.Room n
  rows : List.Forall₂ (fun r a => r.cells = cells a) t.rows as

/-- The conditions that pick out the records for which a test holds. -/
def Picks (cells : α → List Cell) (filters : List Db.Term) (picked : α → Bool) : Prop :=
  ∀ (r : Row) (a : α), r.cells = cells a → filters.all (Db.holds · [some r]) = picked a

namespace Holds

section

variable (holds : Holds definition cells n as t)
include holds

theorem name_eq : t.name = definition.name :=
  (congrArg Db.Table.name holds.made :)

theorem uniques_eq : t.uniques = definition.uniques :=
  (congrArg Db.Table.uniques holds.made :)

theorem counted_eq : t.autoincrement = definition.autoincrement :=
  (congrArg Db.Table.autoincrement holds.made :)

theorem rowidColumn?_eq : t.rowidColumn? = definition.rowidColumn? :=
  (congrArg Db.Table.rowidColumn? holds.made :)

theorem target?_eq (name : String) : t.target? name = definition.target? name :=
  (congrArg (·.target? name) holds.made :)

theorem slot?_eq (i : Nat) (column : String) :
    t.relation.slot? i column = definition.relation.slot? i column :=
  (congrArg (·.relation.slot? i column) holds.made :)

theorem names_eq : t.names = definition.names :=
  (congrArg Db.Table.names holds.made :)

theorem columnName_eq (i : Nat) : t.columnName i = definition.columnName i :=
  (congrArg (·.columnName i) holds.made :)

theorem newCells_eq : t.newCells = definition.newCells :=
  (congrArg Db.Table.newCells holds.made :)

theorem assigned_eq : t.assigned = definition.assigned :=
  (congrArg Db.Table.assigned holds.made :)

theorem checkNotNull_eq : t.checkNotNull = definition.checkNotNull :=
  (congrArg Db.Table.checkNotNull holds.made :)

theorem mem_rows {r : Row} (member : r ∈ t.rows) : ∃ a ∈ as, r.cells = cells a :=
  exists_of_mem_forall₂ (R := fun a r => r.cells = cells a) holds.rows.flip r member

theorem filter_rows {q : Row → Bool} {p : α → Bool} (same : ∀ r a, r.cells = cells a → q r = p a) :
    List.Forall₂ (fun r a => r.cells = cells a) (t.rows.filter q) (as.filter p) :=
  List.rel_filter (fun r a agree => Bool.eq_iff_iff.mp (same r a agree)) holds.rows

/-- What is left when the picked rows are gone. -/
theorem filter {q : Row → Bool} {p : α → Bool} (same : ∀ r a, r.cells = cells a → q r = p a) :
    Holds definition cells n (as.filter p) { t with rows := t.rows.filter q } where
  made := by
    conv_lhs => rw [holds.made]
  ordered := holds.ordered.sublist (List.filter_sublist.map _)
  room := ⟨holds.room.few, fun r member => holds.room.behind r (List.mem_of_mem_filter member)⟩
  rows := holds.filter_rows same

theorem row_unique {r r' : Row} (member : r ∈ t.rows) (member' : r' ∈ t.rows)
    (same : r.id = r'.id) : r = r' :=
  List.inj_on_of_nodup_map (holds.ordered.imp Int64.ne_of_lt) member member' same

/-- A record under a key that no other one has is changed in its place. -/
theorem update (plain : definition.rowidColumn? = none) {given : List (Target × Cell)}
    (free : given.reverse.lookup .rowid = none) {id : α → String} (distinct : (as.map id).Nodup)
    {change : α → α} (made : ∀ a ∈ as, definition.assigned given (cells a) = cells (change a))
    (full : ∀ a ∈ as, definition.checkNotNull (fun i => given.any (·.1 == .column i))
      (cells (change a)) = .ok ())
    (differs : ∀ set ∈ definition.uniques, ∀ a ∈ as, ∀ b ∈ as, id b ≠ id a →
      Db.Table.agree set (cells b) (cells (change a)) = false)
    {filters : List Db.Term} {key : String} (picks : Picks cells filters fun a => id a == key) :
    ∃ t', (t.matching filters).foldlM (Db.Table.update given) t = .ok t' ∧
      Holds definition cells n (as.map fun a => if id a = key then change a else a) t' ∧
      (t.matching filters).length = (as.filter fun a => id a == key).length := by
  have found : List.Forall₂ (fun r a => r.cells = cells a) (t.matching filters)
      (as.filter fun a => id a == key) := holds.filter_rows picks
  have same := found.length_eq
  by_cases known : key ∈ as.map id
  · obtain ⟨a, member, rfl⟩ := List.mem_map.mp known
    rw [filter_eq_singleton distinct member] at found same ⊢
    obtain ⟨row, one, is⟩ := exists_eq_singleton found
    have matched {r : Row} : r ∈ t.rows ∧ filters.all (Db.holds · [some r]) = true ↔ r = row := by
      have listed : r ∈ t.matching filters ↔ r = row := by rw [one, List.mem_singleton]
      exact List.mem_filter.symm.trans listed
    have stored := (matched.mpr rfl).1
    -- Of the rows only this one is picked out.
    have only {r : Row} {b : α} (inside : r ∈ t.rows) (is : r.cells = cells b) :
        id b = id a ↔ r.id = row.id := by
      have test : filters.all (Db.holds · [some r]) = (id b == id a) := picks r b is
      rw [← beq_iff_eq, ← test]
      constructor
      · exact fun picked => congrArg Row.id (matched.mp ⟨inside, picked⟩)
      · intro same
        rw [holds.row_unique inside stored same]
        exact (matched.mpr rfl).2
    have updated := Db.Table.update_eq_ok (holds.rowidColumn?_eq.trans plain) holds.ordered free
      stored (by rw [is, holds.checkNotNull_eq, holds.assigned_eq, made a member, full a member])
      (by
        intro set listed o inside apart
        obtain ⟨b, inside', is'⟩ := holds.mem_rows inside
        rw [is, is', holds.assigned_eq, made a member]
        exact differs set (holds.uniques_eq ▸ listed) a member b inside'
          fun same => apart ((only inside is').mp same))
    rw [is, holds.assigned_eq, made a member] at updated
    have ids : (t.rows.map fun r => if r.id = row.id then ⟨row.id, cells (change a)⟩ else r).map
        (fun r => r.id) = t.rows.map fun r => r.id := by
      rw [List.map_map]
      refine List.map_congr_left fun r _ => ?_
      rw [Function.comp_apply]
      split
      · next same => exact same.symm
      · rfl
    rw [one, List.foldlM_cons, updated]
    refine ⟨_, rfl, ⟨?_, ?_, ⟨holds.room.few, fun r member => ?_⟩, ?_⟩, rfl⟩
    · conv_lhs => rw [holds.made]
    · rw [Db.Table.Ordered, ids]
      exact holds.ordered
    · have listed : r.id ∈ t.rows.map fun r => r.id := ids ▸ List.mem_map_of_mem member
      obtain ⟨old, inside, same⟩ := List.mem_map.mp listed
      exact same ▸ holds.room.behind old inside
    · rw [List.forall₂_map_left_iff, List.forall₂_map_right_iff]
      refine (forall₂_mem holds.rows).imp fun r b both => ?_
      obtain ⟨of, inside, inside'⟩ := both
      by_cases own : id b = id a
      · rw [if_pos own, if_pos ((only inside of).mp own),
          List.inj_on_of_nodup_map distinct inside' member own]
      · rw [if_neg own, if_neg fun same => own ((only inside of).mpr same)]
        exact of
  · rw [filter_key_eq_nil known] at found ⊢
    rw [List.forall₂_nil_right_iff.mp found]
    have kept : (as.map fun a => if id a = key then change a else a) = as := by
      refine (List.map_congr_left fun a member => ?_).trans (List.map_id _)
      refine if_neg ?_
      rintro rfl
      exact known (List.mem_map_of_mem member)
    rw [kept]
    exact ⟨t, rfl, holds, rfl⟩

end

/-- A record whose row agrees with no other one comes behind all others. -/
theorem insert (holds : Holds definition cells (n + 1) as t)
    (plain : definition.rowidColumn? = none) (counted : definition.autoincrement = false)
    {given : List (Target × Cell)} (free : given.reverse.lookup .rowid = none) {a : α}
    (made : definition.newCells given = cells a)
    (full : definition.checkNotNull (fun _ => true) (cells a) = .ok ())
    (differs : ∀ set ∈ definition.uniques, ∀ b ∈ as,
      Db.Table.agree set (cells b) (cells a) = false) :
    ∃ t', t.insert given = .ok t' ∧ Holds definition cells n (as ++ [a]) t' := by
  have new : t.newCells given = cells a := by rw [holds.newCells_eq, made]
  obtain ⟨id, inserted, last, left⟩ := Db.Table.insert_eq_ok (holds.rowidColumn?_eq.trans plain)
    (holds.counted_eq.trans counted) holds.ordered holds.room free
    (by rw [new, holds.checkNotNull_eq, full]) (by
      intro set listed o member
      obtain ⟨b, inside, same⟩ := holds.mem_rows member
      rw [new, same]
      exact differs set (holds.uniques_eq ▸ listed) b inside)
  rw [new] at inserted
  refine ⟨_, inserted, ?_, ?_, ⟨?_, ?_⟩, ?_⟩
  · conv_lhs => rw [holds.made]
  · rw [Db.Table.Ordered, List.map_append, List.pairwise_append]
    refine ⟨holds.ordered, List.pairwise_singleton _ _, ?_⟩
    intro i before j after
    obtain ⟨r, member, rfl⟩ := List.mem_map.mp before
    obtain ⟨r', member', rfl⟩ := List.mem_map.mp after
    rw [List.mem_singleton.mp member']
    exact last r member
  · have few := holds.room.few
    omega
  · intro r member
    rcases List.mem_append.mp member with member | member
    · have behind := holds.room.behind r member
      omega
    · rw [List.mem_singleton.mp member]
      exact left
  · exact List.rel_append holds.rows (List.Forall₂.cons rfl List.Forall₂.nil)

end Holds

/-- A table as it was defined has no rows. -/
theorem Holds.empty (few : (n : Int) < Int.pow 2 63) (none : definition.rows = []) :
    Holds definition cells n [] definition := by
  refine ⟨rfl, ?_, ⟨few, ?_⟩, ?_⟩
  · rw [Db.Table.Ordered, none]
    exact List.Pairwise.nil
  · simp [none]
  · rw [none]
    exact List.Forall₂.nil

end

/-! ## The tables of the store -/

def widgetRowsTable : Db.Table := { TableStore.widgets with indexes := [[5]] }

def placementRowsTable : Db.Table := { TableStore.placements with indexes := [[0]] }

/-- Whether a database has a table with the rows of some records. -/
def HasTable {α : Type} (db : Db.Database) (definition : Db.Table) (cells : α → List Cell) (n : Nat)
    (as : List α) : Prop :=
  ∃ t, db.table? definition.name = some t ∧ Holds definition cells n as t

/-- Whether the tables of a database have the rows of a store, and room for `n` more. -/
structure Represents (db : Db.Database) (n : Nat) (s : Store) : Prop where
  free : db.refusal = none
  widgets : HasTable db widgetRowsTable StoredWidget.cells n s.widgets
  dashboards : HasTable db TableStore.dashboards StoredDashboard.cells n s.dashboards
  placements : HasTable db placementRowsTable Placement.cells n s.placements

/-- The tables that are made in an empty database stand for the empty store. -/
theorem represents_ofDatabase {n : Nat} (few : (n : Int) < Int.pow 2 63) :
    ∃ made, TableStore.ofDatabase {} = .ok made ∧ Represents made.database n {} := by
  refine ⟨⟨{ tables := [widgetRowsTable, TableStore.dashboards, placementRowsTable] }⟩, rfl, ?_⟩
  exact ⟨rfl, ⟨_, rfl, Holds.empty few rfl⟩, ⟨_, rfl, Holds.empty few rfl⟩,
    ⟨_, rfl, Holds.empty few rfl⟩⟩

section

variable {α : Type} {db : Db.Database} {definition : Db.Table} {cells : α → List Cell}
  {m n : Nat} {as bs : List α}

theorem Holds.less {t : Db.Table} (holds : Holds definition cells n as t) (le : m ≤ n) :
    Holds definition cells m as t := by
  refine { holds with room := ⟨?_, fun r member => ?_⟩ }
  · have few := holds.room.few
    omega
  · have behind := holds.room.behind r member
    omega

theorem HasTable.less (has : HasTable db definition cells n as) (le : m ≤ n) :
    HasTable db definition cells m as := by
  obtain ⟨t, found, holds⟩ := has
  exact ⟨t, found, holds.less le⟩

theorem HasTable.replace (has : HasTable db definition cells n as) {t : Db.Table}
    (holds : Holds definition cells m bs t) : HasTable (db.replace t) definition cells m bs := by
  obtain ⟨old, found, was⟩ := has
  refine ⟨t, ?_, holds⟩
  rw [Db.Database.table?_replace, found, Option.map_some,
    if_pos (was.name_eq.trans holds.name_eq.symm)]

theorem HasTable.replace_other (has : HasTable db definition cells n as) {t : Db.Table}
    (other : definition.name ≠ t.name) : HasTable (db.replace t) definition cells n as := by
  obtain ⟨old, found, was⟩ := has
  refine ⟨old, ?_, was⟩
  rw [Db.Database.table?_replace, found, Option.map_some, if_neg (was.name_eq ▸ other)]

end

namespace Represents

variable {db : Db.Database} {s : Store} {m n : Nat} (represents : Represents db n s) (le : m ≤ n)
  {t : Db.Table}
include represents le

theorem replaceWidgets {rows : List StoredWidget}
    (holds : Holds widgetRowsTable StoredWidget.cells m rows t) :
    Represents (db.replace t) m { s with widgets := rows } where
  free := represents.free
  widgets := represents.widgets.replace holds
  dashboards := (represents.dashboards.less le).replace_other (by rw [holds.name_eq]; decide)
  placements := (represents.placements.less le).replace_other (by rw [holds.name_eq]; decide)

theorem replaceDashboards {rows : List StoredDashboard}
    (holds : Holds TableStore.dashboards StoredDashboard.cells m rows t) :
    Represents (db.replace t) m { s with dashboards := rows } where
  free := represents.free
  widgets := (represents.widgets.less le).replace_other (by rw [holds.name_eq]; decide)
  dashboards := represents.dashboards.replace holds
  placements := (represents.placements.less le).replace_other (by rw [holds.name_eq]; decide)

theorem replacePlacements {rows : List Placement}
    (holds : Holds placementRowsTable Placement.cells m rows t) :
    Represents (db.replace t) m { s with placements := rows } where
  free := represents.free
  widgets := (represents.widgets.less le).replace_other (by rw [holds.name_eq]; decide)
  dashboards := (represents.dashboards.less le).replace_other (by rw [holds.name_eq]; decide)
  placements := represents.placements.replace holds

end Represents

end Store

end QueryBoard
