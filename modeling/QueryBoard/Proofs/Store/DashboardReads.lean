import QueryBoard.Proofs.Db.Join
import QueryBoard.Proofs.Store.Agreement
import QueryBoard.Proofs.Store.TableReads

/-!
# Dashboards in the tables

Where a database stands for a store, dashboards are read from its tables as they are from the store.
A first block joins each dashboard with its placements and these with their widgets: the placements
of one dashboard come in their order, as they are found by way of the index on it.  The recursion
goes on with the widgets below those, and what is missing for want of a widget is filled in.
-/

set_option autoImplicit false

namespace QueryBoard

open Db (Cell Row)

namespace PlacedRow

/-- The cells in the row of a dashboard, which are null where there is no widget. -/
def cells (r : PlacedRow) : List Cell :=
  r.dashboard.cells ++ match r.widget with
    | none => List.replicate 10 .null
    | some w =>
      [.ofString w.id, .ofString w.name, .ofString w.kind, .ofText w.parent, .ofText w.props,
        .ofText w.query, .int r.x, .int r.y, .int r.w, .int r.h]

/-- The cells of a row as they are read, with what is filled in where there is no widget. -/
def shown (r : PlacedRow) : List Cell :=
  let w := r.widget.getD { id := noWidgetId, name := "", kind := "" }
  r.dashboard.cells ++
    [.ofString w.id, .ofString w.name, .ofString w.kind, .ofText w.parent, .ofText w.props,
      .ofText w.query, .int r.x, .int r.y, .int r.w, .int r.h]

end PlacedRow

namespace Store

variable {db : Db.Database} {n : Nat} {s : Store}

/-- All dashboards, or the one with an id. -/
def askedDashboards (s : Store) (dashboard : Option String) : List StoredDashboard :=
  s.dashboards.filter fun d => dashboard.all (d.id == ·)

/-! ## Rows apart -/

/-- What a row holds that the recursion makes: a dashboard that is asked for, and an extent only
with a widget. -/
structure Asked (ds : List StoredDashboard) (r : PlacedRow) : Prop where
  dashboard : r.dashboard ∈ ds
  bare : r.widget = none → r = { dashboard := r.dashboard, widget := none }

section

variable {ds : List StoredDashboard}

theorem cells_injective {a b : PlacedRow} (first : Asked ds a) (second : Asked ds b)
    (same : a.cells = b.cells) : a = b := by
  have alone (same : a.dashboard = b.dashboard) (none : a.widget = none)
      (none' : b.widget = .none) : a = b := by
    rw [first.bare none, second.bare none', same]
  obtain ⟨⟨id, name⟩, widget, x, y, w, h⟩ := a
  obtain ⟨⟨id', name'⟩, widget', x', y', w', h'⟩ := b
  rcases widget with _ | v <;> rcases widget' with _ | v'
  · simp only [PlacedRow.cells, StoredDashboard.cells, List.cons_append, List.nil_append,
      List.cons.injEq, Cell.ofString_inj, and_true] at same
    exact alone (by rw [same.1, same.2]) rfl rfl
  · simp [PlacedRow.cells, StoredDashboard.cells, List.replicate, Cell.ofString] at same
  · simp [PlacedRow.cells, StoredDashboard.cells, List.replicate, Cell.ofString] at same
  · obtain ⟨_, _, _, _, _, _⟩ := v
    obtain ⟨_, _, _, _, _, _⟩ := v'
    simp only [PlacedRow.cells, StoredDashboard.cells, List.cons_append, List.nil_append,
      List.cons.injEq, Cell.ofString_inj, Cell.ofText_inj, Cell.int.injEq, and_true] at same
    obtain ⟨rfl, rfl, rfl, rfl, rfl, rfl, rfl, rfl, rfl, rfl, rfl, rfl⟩ := same
    rfl

theorem sameCells_placed {a b : PlacedRow} (first : Asked ds a) (second : Asked ds b) :
    Db.sameCells a.cells b.cells = (a == b) := by
  have exact (r : PlacedRow) : ∀ c ∈ r.cells, c.isExact = true := by
    obtain ⟨d, _ | w, x, y, w, h⟩ := r <;>
      simp [PlacedRow.cells, StoredDashboard.cells]
  rw [Bool.eq_iff_iff, beq_iff_eq, Db.sameCells_iff (exact a) (exact b)]
  exact ⟨cells_injective first second, congrArg _⟩

theorem filter_follows_pool (distinct : (ds.map fun d => d.id).Nodup) {a : PlacedRow}
    (asked : a.dashboard ∈ ds) : (ds.flatMap s.nestedRows).filter (PlacedRow.follows a) =
      (s.widgets.filter fun w => a.widget.any fun v => w.parent == some v.id).map
        fun w => { dashboard := a.dashboard, widget := some w } := by
  have own : (ds.flatMap s.nestedRows).filter (PlacedRow.follows a) =
      (s.nestedRows a.dashboard).filter (PlacedRow.follows a) := by
    have part := filter_flatMap_key (s.id_of_mem_nestedRows) ds a.dashboard.id
    rw [filter_eq_singleton distinct asked, List.flatMap_singleton] at part
    rw [← part, List.filter_filter]
    refine List.filter_congr fun b _ => ?_
    by_cases step : PlacedRow.follows a b = true
    · simp [step, (follows_iff.mp step).1]
    · simp [step]
  rw [own, nestedRows, List.filter_map, List.filter_filter]
  refine congrArg (List.map _) (List.filter_congr fun w _ => ?_)
  simp only [Function.comp_apply, PlacedRow.follows, beq_self_eq_true, Bool.true_and]
  rcases a.widget with _ | v
  · rfl
  · cases parent : w.parent <;> simp [parent]

theorem asked_placedRows (wellFormed : WellFormed s) :
    ∀ r ∈ ds.flatMap s.placedRows, Asked ds r := by
  intro r member
  obtain ⟨d, among, member⟩ := List.mem_flatMap.mp member
  by_cases none : s.placementsOn d.id = []
  · rw [placedRows_of_none none, List.mem_singleton] at member
    rw [member]
    exact ⟨among, fun _ => rfl⟩
  · rw [placedRows_of_some none] at member
    obtain ⟨p, placed, rfl⟩ := List.mem_map.mp member
    obtain ⟨w, _, found, _⟩ := placedRow_widget wellFormed placed
    refine ⟨among, fun bare => ?_⟩
    rw [found] at bare
    cases bare

theorem asked_nestedRows : ∀ r ∈ ds.flatMap s.nestedRows, Asked ds r := by
  intro r member
  obtain ⟨d, among, member⟩ := List.mem_flatMap.mp member
  obtain ⟨w, _, rfl⟩ := List.mem_map.mp member
  exact ⟨among, nofun⟩

theorem nodup_nestedRows (wellFormed : WellFormed s) (distinct : (ds.map fun d => d.id).Nodup) :
    (ds.flatMap s.nestedRows).Nodup := by
  have widgets : s.widgets.Nodup := List.Nodup.of_map _ wellFormed.widgets
  rw [List.nodup_flatMap]
  refine ⟨fun d _ => (widgets.filter _).map fun v w same => ?_, ?_⟩
  · exact Option.some_inj.mp (congrArg PlacedRow.widget same)
  · refine (List.pairwise_map.mp distinct).imp fun other => ?_
    intro r first second
    exact other ((id_of_mem_nestedRows _ r first).symm.trans (id_of_mem_nestedRows _ r second))

theorem length_nestedRows_le :
    (ds.flatMap s.nestedRows).length ≤ ds.length * s.widgets.length := by
  induction ds with
  | nil => exact Nat.zero_le _
  | cons d ds ih =>
      have one : (s.nestedRows d).length ≤ s.widgets.length := by
        rw [nestedRows, List.length_map]
        exact List.length_filter_le ..
      rw [List.flatMap_cons, List.length_append, List.length_cons, Nat.succ_mul]
      omega

theorem length_le_placedRows (distinct : (ds.map fun d => d.id).Nodup) :
    ds.length ≤ (ds.flatMap s.placedRows).eraseDups.length := by
  have listed : (ds.map fun d => d.id) ⊆
      (ds.flatMap s.placedRows).eraseDups.map fun r => r.dashboard.id := by
    intro id member
    obtain ⟨d, among, rfl⟩ := List.mem_map.mp member
    obtain ⟨r, inside⟩ := List.exists_mem_of_ne_nil _ (placedRows_ne_nil (s := s) d)
    have first := List.mem_eraseDups.mpr (List.mem_flatMap.mpr ⟨d, among, inside⟩)
    exact List.mem_map.mpr ⟨r, first, id_of_mem_placedRows d r inside⟩
  have count := (distinct.subperm listed).length_le
  rwa [List.length_map, List.length_map] at count

end

/-! ## Rows for placements -/

/-- The columns of the rows of dashboards, from a dashboard, a placement and a widget. -/
def placedSlots : List Db.Slot :=
  [0, 1].map (fun i => ⟨0, some i, .text⟩) ++
    [0, 1, 2, 5, 3, 4].map (fun i => ⟨2, some i, .text⟩) ++
    [2, 3, 4, 5].map fun i => ⟨1, some i, .integer⟩

def onDashboard : Db.Term := Db.equalSlots ⟨1, some 0, .text⟩ ⟨0, some 0, .text⟩

def ofPlacement : Db.Term := Db.equalSlots ⟨2, some 0, .text⟩ ⟨1, some 1, .text⟩

/-- The rows for one dashboard. -/
def joinedRows (placements widgets : List Row) (x : Row) : List Db.JoinedRow :=
  (Db.leftMatches placements (Db.holds onDashboard) [some x]).flatMap
    (Db.leftMatches widgets (Db.holds ofPlacement))

theorem holds_onDashboard {x y : Row} {d : StoredDashboard} {p : Placement}
    (left : x.cells = d.cells) (right : y.cells = p.cells) :
    Db.holds onDashboard [some x, some y] = (p.dashboard == d.id) := by
  have own : Db.JoinedRow.cell [some x, some y] ⟨1, some 0, .text⟩ = .ofText (some p.dashboard) := by
    obtain ⟨_, _⟩ := y
    subst right
    rfl
  have id : Db.JoinedRow.cell [some x, some y] ⟨0, some 0, .text⟩ = .ofText (some d.id) := by
    obtain ⟨_, _⟩ := x
    subst left
    rfl
  rw [onDashboard, Db.holds_equalSlots rfl rfl own id, Option.any_some, Bool.eq_iff_iff]
  simp only [beq_iff_eq, Option.some.injEq]
  exact eq_comm

theorem holds_ofPlacement {x z : Row} {y : Option Row} {p : Option Placement} {w : StoredWidget}
    (left : y.map Row.cells = p.map Placement.cells) (right : z.cells = w.cells) :
    Db.holds ofPlacement [some x, y, some z] = (p.map (·.widget) == some w.id) := by
  have cell : Db.JoinedRow.cell [some x, y, some z] ⟨1, some 1, .text⟩ =
      .ofText (p.map (·.widget)) := by
    cases y with
    | none =>
        rw [Option.map_none, eq_comm, Option.map_eq_none_iff] at left
        subst left
        rfl
    | some y =>
        rw [Option.map_some, eq_comm, Option.map_eq_some_iff] at left
        obtain ⟨p, rfl, same⟩ := left
        obtain ⟨_, _⟩ := y
        subst same
        rfl
  have id : Db.JoinedRow.cell [some x, y, some z] ⟨2, some 0, .text⟩ = .ofText (some w.id) := by
    obtain ⟨_, _⟩ := z
    subst right
    rfl
  rw [ofPlacement, Db.holds_equalSlots rfl rfl id cell, Option.any_some]

theorem cells_placedSlots {x y z : Row} {d : StoredDashboard} {p : Placement} {w : StoredWidget}
    (left : x.cells = d.cells) (middle : y.cells = p.cells) (right : z.cells = w.cells) :
    placedSlots.map (Db.JoinedRow.cell [some x, some y, some z]) =
      PlacedRow.cells ⟨d, some w, p.x, p.y, p.w, p.h⟩ := by
  obtain ⟨_, _⟩ := x
  obtain ⟨_, _⟩ := y
  obtain ⟨_, _⟩ := z
  subst left middle right
  rfl

section

variable {placements widgets : List Row} {x : Row} {d : StoredDashboard} (own : x.cells = d.cells)
include own

theorem cells_joinedRows_of_none
    (none : (placements.filter fun y => Db.holds onDashboard [some x, some y]) = [])
    (unmatched : (widgets.filter fun z => Db.holds ofPlacement [some x, .none, some z]) = []) :
    (joinedRows placements widgets x).map (fun r => placedSlots.map r.cell) =
      [PlacedRow.cells { dashboard := d, widget := .none }] := by
  have row : joinedRows placements widgets x = [[some x, .none, .none]] := by
    rw [joinedRows, Db.leftMatches_of_none none, List.flatMap_singleton]
    exact Db.leftMatches_of_none unmatched
  rw [row]
  obtain ⟨_, _⟩ := x
  subst own
  rfl

theorem cells_joinedRows_of_some {ps : List Placement} (some : ps ≠ [])
    (found : List.Forall₂ (fun r p => r.cells = Placement.cells p)
      (placements.filter fun y => Db.holds onDashboard [.some x, .some y]) ps)
    (each : ∀ y, ∀ p ∈ ps, y.cells = Placement.cells p → ∃ z w,
      (widgets.filter fun z => Db.holds ofPlacement [.some x, .some y, .some z]) = [z] ∧
        z.cells = StoredWidget.cells w ∧ (s.placedRow d p).widget = .some w) :
    (joinedRows placements widgets x).map (fun r => placedSlots.map r.cell) =
      ps.map fun p => (s.placedRow d p).cells := by
  have full : (placements.filter fun y => Db.holds onDashboard [.some x, .some y]) ≠ [] := by
    intro none
    rw [none, List.forall₂_nil_left_iff] at found
    exact some found
  rw [joinedRows, Db.leftMatches_of_some full rfl, List.flatMap_map, List.map_flatMap]
  have rows := (forall₂_mem found).imp fun y p both => by
    obtain ⟨same, _, listed⟩ := both
    obtain ⟨z, w, one, is, widget⟩ := each y p listed same
    have row : Db.leftMatches widgets (Db.holds ofPlacement) ([.some x] ++ [.some y]) =
        [[.some x, .some y, .some z]] :=
      Db.leftMatches_of_some (List.cons_ne_nil z []) one
    have placed : s.placedRow d p = ⟨d, .some w, p.x, p.y, p.w, p.h⟩ := by
      rw [← widget]
      rfl
    show (Db.leftMatches widgets (Db.holds ofPlacement) ([.some x] ++ [.some y])).map
        (fun r => placedSlots.map r.cell) = [(s.placedRow d p).cells]
    rw [row, List.map_singleton, cells_placedSlots own same is, placed]
  rw [List.flatMap_def, forall₂_eq_iff.mp rows, ← List.flatMap_def]
  exact List.map_eq_flatMap.symm

end

theorem exists_of_mem_joinedRows {placements widgets : List Row} {x : Row} {r : Db.JoinedRow}
    (member : r ∈ joinedRows placements widgets x) : ∃ y z, r = [some x, y, z] := by
  obtain ⟨l, first, next⟩ := List.mem_flatMap.mp member
  obtain ⟨y, rfl⟩ := Db.exists_of_mem_leftMatches first
  obtain ⟨z, rfl⟩ := Db.exists_of_mem_leftMatches next
  exact ⟨y, z, rfl⟩

/-- The rows for one dashboard are those of its placements, in whatever order the widgets come. -/
theorem cells_joinedRows {P W : Db.Table} (wellFormed : WellFormed s)
    (placed : Holds placementRowsTable Placement.cells n s.placements P)
    (stored : Holds widgetRowsTable StoredWidget.cells n s.widgets W)
    {placements widgets : List Row} {x : Row} {d : StoredDashboard} (own : x.cells = d.cells)
    (order : (placements.filter fun y => Db.holds onDashboard [some x, some y]) =
      P.rows.filter fun y => Db.holds onDashboard [some x, some y])
    (perm : widgets.Perm W.rows) :
    (joinedRows placements widgets x).map (fun r => placedSlots.map r.cell) =
      (s.placedRows d).map PlacedRow.cells := by
  have found : List.Forall₂ (fun r p => r.cells = Placement.cells p)
      (placements.filter fun y => Db.holds onDashboard [some x, some y]) (s.placementsOn d.id) := by
    rw [order]
    exact placed.filter_rows fun y p same => holds_onDashboard own same
  by_cases none : s.placementsOn d.id = []
  · rw [none] at found
    have unmatched :
        (widgets.filter fun z => Db.holds ofPlacement [some x, .none, some z]) = [] := by
      rw [List.filter_eq_nil_iff]
      intro z member
      obtain ⟨w, _, is⟩ := stored.mem_rows (perm.subset member)
      rw [holds_ofPlacement (p := .none) rfl is]
      exact Bool.false_ne_true
    rw [cells_joinedRows_of_none own (List.forall₂_nil_right_iff.mp found) unmatched,
      placedRows_of_none none, List.map_singleton]
  · rw [placedRows_of_some none, List.map_map]
    refine cells_joinedRows_of_some own none found fun y p listed same => ?_
    obtain ⟨w, inside, widget, is⟩ := placedRow_widget wellFormed listed
    have these := stored.filter_rows (q := fun z => Db.holds ofPlacement [some x, some y, some z])
      (p := fun v => v.id == w.id) fun z v same' => by
        have placement : (some y).map Row.cells = (some p).map Placement.cells := congrArg some same
        rw [holds_ofPlacement placement same', is, Bool.eq_iff_iff]
        simp only [Option.map_some, beq_iff_eq, Option.some.injEq]
        exact eq_comm
    rw [filter_eq_singleton wellFormed.widgets inside] at these
    obtain ⟨z, one, cells⟩ := exists_eq_singleton these
    have single := perm.filter fun z => Db.holds ofPlacement [some x, some y, some z]
    rw [one] at single
    exact ⟨z, w, List.perm_singleton.mp single, cells, widget⟩

/-! ## The first block -/

/-- The plan of the rows for the placements on dashboards. -/
def placedPlan (D P W : Db.Table) (columns : List String) (dashboard : Option String) : Db.Plan :=
  { bindings := [⟨"d", D.relation⟩, ⟨"dw", P.relation⟩, ⟨"w", W.relation⟩], columns
    items := placedSlots.map .slot, filters := dashboard.toList.map (idTerm 0)
    joins := [(.left, onDashboard), (.left, ofPlacement)], groupBy := [], orderBy := [] }

theorem rows_dashboards {D : Db.Table}
    (shown : Holds TableStore.dashboards StoredDashboard.cells n s.dashboards D)
    (dashboard : Option String) : List.Forall₂ (fun r d => r.cells = StoredDashboard.cells d)
      (D.rows.filter fun x => (dashboard.toList.map (idTerm 0)).all (Db.holds · [some x]))
      (s.askedDashboards dashboard) := by
  refine shown.filter_rows fun r d same => ?_
  cases dashboard with
  | none => rfl
  | some id =>
      have picks : Picks StoredDashboard.cells [idTerm 0 id] fun d => some d.id == some id :=
        picks_id (fun _ => rfl) id
      exact picks r d same

section

variable {D P W : Db.Table}
  (shown : Holds TableStore.dashboards StoredDashboard.cells n s.dashboards D)
  (placed : Holds placementRowsTable Placement.cells n s.placements P)
  (stored : Holds widgetRowsTable StoredWidget.cells n s.widgets W)
include shown placed stored

theorem firstWay_order (columns : List String) :
    ((placedPlan D P W columns none).firstWay D).order = [] := by
  rw [shown.made, placed.made, stored.made]
  rfl

/-- Placements are found by way of the index on their dashboard. -/
theorem laterRows_placements (columns : List String) (dashboard : Option String) (single : Bool) :
    (placedPlan D P W columns dashboard).laterRows single 1 onDashboard P.relation =
      P.relation.sortedBy P [0] := by
  have inOrder : (placedPlan D P W columns dashboard).isInOrder = true := by
    cases dashboard <;> rfl
  have used : (placedPlan D P W columns dashboard).used 1 P = [0, 1, 2, 3, 4, 5] := by
    rw [shown.made, placed.made, stored.made]
    cases dashboard <;> rfl
  have lookups : onDashboard.conjuncts.filterMap
      ((placedPlan D P W columns dashboard).joinLookup? 1) = [⟨.column 0, 1⟩] := by
    rw [shown.made, placed.made, stored.made]
    rfl
  have best : placementRowsTable.bestWay [0, 1, 2, 3, 4, 5] [⟨.column 0, 1⟩] =
      { cost := 62, order := [0] } := by
    decide +kernel
  have way : P.bestWay [0, 1, 2, 3, 4, 5] [⟨.column 0, 1⟩] = { cost := 62, order := [0] } :=
    (congrArg (·.bestWay [0, 1, 2, 3, 4, 5] [⟨.column 0, 1⟩]) placed.made).trans best
  rw [Db.Plan.laterRows]
  dsimp only [Db.Table.relation]
  rw [used, lookups, way, inOrder]
  rfl

/-- The dashboards that are asked for come in their order: all as they are stored, or one. -/
theorem filter_firstRows (wellFormed : WellFormed s) (columns : List String)
    (dashboard : Option String) :
    ((placedPlan D P W columns dashboard).firstRows D.relation).filter
        (fun x => (dashboard.toList.map (idTerm 0)).all (Db.holds · [some x])) =
      D.rows.filter fun x => (dashboard.toList.map (idTerm 0)).all (Db.holds · [some x]) := by
  cases dashboard with
  | none =>
      rw [Db.Plan.firstRows_of_plain rfl rfl (firstWay_order shown placed stored columns)]
      rfl
  | some id =>
      have perm : ((placedPlan D P W columns (some id)).firstRows D.relation).Perm D.rows :=
        Db.Plan.perm_firstRows rfl rfl
      refine eq_of_perm_of_length_le (perm.filter _) ?_
      rw [(rows_dashboards shown (some id)).length_eq]
      exact length_filter_key_le_one wellFormed.dashboards id

theorem result_placed (wellFormed : WellFormed s) (columns : List String)
    (dashboard : Option String) : (placedPlan D P W columns dashboard).result =
      .ok (((s.askedDashboards dashboard).flatMap s.placedRows).map PlacedRow.cells) := by
  obtain ⟨single, source⟩ := Db.Plan.source_left
    (p := placedPlan D P W columns dashboard) rfl rfl
  let placements := P.relation.sortedBy P [0]
  let widgets := (placedPlan D P W columns dashboard).laterRows single 2 ofPlacement W.relation
  have perm : widgets.Perm W.rows := Db.Plan.perm_laterRows rfl rfl _ _ _
  have rows : (placedPlan D P W columns dashboard).source =
      (D.rows.filter fun x => (dashboard.toList.map (idTerm 0)).all (Db.holds · [some x])).flatMap
        (joinedRows placements widgets) := by
    rw [source, List.flatMap_map, List.flatMap_assoc,
      laterRows_placements shown placed stored,
      ← filter_firstRows shown placed stored wellFormed columns]
    refine filter_flatMap_own (fun x r member => ?_) _
    obtain ⟨y, z, rfl⟩ := exists_of_mem_joinedRows member
    cases dashboard <;> rfl
  have order (x : Row) (d : StoredDashboard) (own : x.cells = d.cells) :
      (placements.filter fun y => Db.holds onDashboard [some x, some y]) =
        P.rows.filter fun y => Db.holds onDashboard [some x, some y] := by
    refine Db.Relation.filter_sortedBy rfl (fun y member => ?_) (c := .ofString d.id)
      fun y member on => ?_
    · obtain ⟨p, _, same⟩ := placed.mem_rows member
      rw [same]
      exact ⟨_, rfl⟩
    · obtain ⟨p, _, same⟩ := placed.mem_rows member
      rw [holds_onDashboard own same, beq_iff_eq] at on
      rw [same, ← on]
      rfl
  have cells := (rows_dashboards shown dashboard).imp fun x d own =>
    cells_joinedRows wellFormed placed stored own (order x d own) perm
  rw [Db.Plan.result_of_slots rfl rfl rfl, rows, List.map_flatMap, List.flatMap_def,
    forall₂_eq_iff.mp cells, ← List.flatMap_def, List.map_flatMap]

/-- The block of the placements is planned, its names looked up in the three tables. -/
theorem planBlock_placed (statement : Sql.Tokens) (dashboard : Option String) : ∃ columns,
    Db.planBlock statement [⟨"d", D.relation⟩, ⟨"dw", P.relation⟩, ⟨"w", W.relation⟩]
      (placementBlock dashboard) = .ok (placedPlan D P W columns dashboard) := by
  let bindings : List Db.Binding := [⟨"d", D.relation⟩, ⟨"dw", P.relation⟩, ⟨"w", W.relation⟩]
  have labels : ∀ a ∈ ["d", "dw", "w"], ∀ b ∈ ["d", "dw", "w"], Db.sameName a b = (a == b) := by
    decide
  have onlyD : bindings.zipIdx.filter (fun b => Db.sameName "d" b.1.label) =
      [(⟨"d", D.relation⟩, 0)] := by simp [bindings, labels]
  have onlyP : bindings.zipIdx.filter (fun b => Db.sameName "dw" b.1.label) =
      [(⟨"dw", P.relation⟩, 1)] := by simp [bindings, labels]
  have onlyW : bindings.zipIdx.filter (fun b => Db.sameName "w" b.1.label) =
      [(⟨"w", W.relation⟩, 2)] := by simp [bindings, labels]
  have nameD : ["id", "name"].map (D.relation.slot? 0) =
      ([0, 1].map fun i => ⟨0, some i, .text⟩ : List Db.Slot).map some := by
    rw [List.map_congr_left fun c _ => shown.slot?_eq 0 c]
    decide
  have nameP : layoutColumns.map (P.relation.slot? 1) =
      ([2, 3, 4, 5].map fun i => ⟨1, some i, .integer⟩ : List Db.Slot).map some := by
    rw [List.map_congr_left fun c _ => placed.slot?_eq 1 c]
    decide
  have nameW : ["id", "name", "type", "parent_id", "props", "query"].map (W.relation.slot? 2) =
      ([0, 1, 2, 5, 3, 4].map fun i => ⟨2, some i, .text⟩ : List Db.Slot).map some := by
    rw [List.map_congr_left fun c _ => stored.slot?_eq 2 c]
    decide
  have items : Db.resolveList (Db.selectNames bindings)
      ((placementBlock dashboard).items.map (·.expr)) = .ok (placedSlots.map .slot) := by
    rw [placedSlots, List.map_append, List.map_append]
    exact Db.resolveList_eq_ok (List.rel_append (List.rel_append
      (Db.resolve_tableCols onlyD nameD) (Db.resolve_tableCols onlyW nameW))
      (Db.resolve_tableCols onlyP nameP))
  have idD : Db.resolve (Db.selectNames bindings) (.tableCol "d" "id") =
      .ok (.slot ⟨0, some 0, .text⟩) :=
    Db.resolve_tableCol onlyD (by rw [shown.slot?_eq]; decide)
  have filters : Db.resolveList (Db.selectNames bindings) (placementBlock dashboard).filters =
      .ok (dashboard.toList.map (idTerm 0)) := by
    refine Db.resolveList_eq_ok ?_
    rw [placementBlock, List.forall₂_map_left_iff, List.forall₂_map_right_iff, List.forall₂_same]
    intro id _
    rw [Sql.Expr.eq, Db.resolve, idD]
    · rfl
    · decide
  have joins : Db.resolveList (Db.selectNames bindings)
      ((placementBlock dashboard).joins.map (·.condition)) = .ok [onDashboard, ofPlacement] :=
    Db.resolveList_eq_ok (.cons
      (Db.resolve_equalSlots (Db.resolve_tableCol onlyP (by rw [placed.slot?_eq]; decide)) idD)
      (.cons (Db.resolve_equalSlots
        (Db.resolve_tableCol onlyW (by rw [stored.slot?_eq]; decide))
        (Db.resolve_tableCol onlyP (by rw [placed.slot?_eq]; decide))) .nil))
  exact Db.planBlock_eq_ok (s := placementBlock dashboard) statement (List.cons_ne_nil _ _)
    (by decide : 12 ≤ Db.Limit.resultColumns.most) rfl rfl items filters joins
    (by decide : 3 ≤ Db.Limit.joined.most)

end

/-! ## The recursion -/

def placedColumns : List (String × Db.Affinity) :=
  ["d_id", "d_name", "w_id", "w_name", "w_type", "parent_id", "props", "query"].map (·, .text) ++
    layoutColumns.map (·, .integer)

/-- What the recursion makes of rows: the columns of the rows of dashboards. -/
def madePlaced (rows : List (List Cell)) : Db.Relation := Db.madeRelation placedColumns rows

theorem rows_madePlaced (as : List PlacedRow) : List.Forall₂
    (fun (r : Row) a => r.cells = PlacedRow.cells a) (madePlaced (as.map PlacedRow.cells)).rows
      as := by
  rw [madePlaced, Db.madeRelation, List.forall₂_map_left_iff, List.forall₂_map_left_iff,
    List.forall₂_same]
  intro a _
  obtain ⟨d, _ | ⟨id, name, kind, props, query, parent⟩, x, y, w, h⟩ := a
  · rfl
  · cases props <;> cases query <;> cases parent <;> rfl

/-- The condition that a widget is right below the one of a row. -/
def belowTerm (a : Db.Affinity) : Db.Term := Db.equalSlots ⟨1, some 2, a⟩ ⟨0, some 5, .text⟩

/-- The columns of the rows that follow, apart from the extent, which they do not have. -/
def nestedSlots (a : Db.Affinity) : List Db.Slot :=
  [0, 1].map (fun i => ⟨1, some i, a⟩) ++ [0, 1, 2, 5, 3, 4].map fun i => ⟨0, some i, .text⟩

def nestedPlan (W : Db.Table) (made : Db.Relation) (columns : List String) (a : Db.Affinity) :
    Db.Plan :=
  { bindings := [⟨"w", W.relation⟩, ⟨"p", made⟩], columns
    items := (nestedSlots a).map .slot ++ List.replicate 4 (.cell (.int 0)), filters := []
    joins := [(.inner, belowTerm a)], groupBy := [], orderBy := [] }

def placedName : String := "placed"

section

variable {W : Db.Table} (stored : Holds widgetRowsTable StoredWidget.cells n s.widgets W)
include stored

theorem planBlock_nested (statement : Sql.Tokens) {made : Db.Relation} {a : Db.Affinity}
    (names : ["d_id", "d_name", "w_id"].map (made.slot? 1) =
      [0, 1, 2].map fun i => some ⟨1, some i, a⟩) : ∃ columns,
    Db.planBlock statement [⟨"w", W.relation⟩, ⟨"p", made⟩] (nestedBlock placedName) =
      .ok (nestedPlan W made columns a) := by
  let bindings : List Db.Binding := [⟨"w", W.relation⟩, ⟨"p", made⟩]
  have labels : ∀ a ∈ ["w", "p"], ∀ b ∈ ["w", "p"], Db.sameName a b = (a == b) := by decide
  have onlyW : bindings.zipIdx.filter (fun b => Db.sameName "w" b.1.label) =
      [(⟨"w", W.relation⟩, 0)] := by simp [bindings, labels]
  have onlyP : bindings.zipIdx.filter (fun b => Db.sameName "p" b.1.label) =
      [(⟨"p", made⟩, 1)] := by simp [bindings, labels]
  simp only [List.map_cons, List.map_nil, List.cons.injEq, and_true] at names
  obtain ⟨first, second, third⟩ := names
  have nameP : ["d_id", "d_name"].map (made.slot? 1) =
      ([0, 1].map fun i => ⟨1, some i, a⟩ : List Db.Slot).map some := by
    simp only [List.map_cons, List.map_nil, first, second]
  have nameW : ["id", "name", "type", "parent_id", "props", "query"].map (W.relation.slot? 0) =
      ([0, 1, 2, 5, 3, 4].map fun i => ⟨0, some i, .text⟩ : List Db.Slot).map some := by
    rw [List.map_congr_left fun c _ => stored.slot?_eq 0 c]
    decide
  have zeros : List.Forall₂ (fun e t => Db.resolve (Db.selectNames bindings) e = .ok t)
      (List.replicate 4 (.literal (.int 0))) (List.replicate 4 (.cell (.int 0))) :=
    .cons rfl (.cons rfl (.cons rfl (.cons rfl .nil)))
  have items : Db.resolveList (Db.selectNames bindings)
      ((nestedBlock placedName).items.map (·.expr)) =
        .ok ((nestedSlots a).map .slot ++ List.replicate 4 (.cell (.int 0))) := by
    rw [nestedSlots, List.map_append]
    exact Db.resolveList_eq_ok (List.rel_append (List.rel_append
      (Db.resolve_tableCols onlyP nameP) (Db.resolve_tableCols onlyW nameW)) zeros)
  have joins : Db.resolveList (Db.selectNames bindings)
      ((nestedBlock placedName).joins.map (·.condition)) = .ok [belowTerm a] :=
    Db.resolveList_eq_ok (.cons
      (Db.resolve_equalSlots (Db.resolve_tableCol onlyP third)
        (Db.resolve_tableCol onlyW (by rw [stored.slot?_eq]; decide))) .nil)
  exact Db.planBlock_eq_ok (s := nestedBlock placedName) statement (List.cons_ne_nil _ _)
    (by decide : 12 ≤ Db.Limit.resultColumns.most) rfl rfl items rfl joins
    (by decide : 2 ≤ Db.Limit.joined.most)

theorem result_nested {columns : List String} (a : PlacedRow) :
    (nestedPlan W (madePlaced [a.cells]) columns .text).result =
      .ok ((s.widgets.filter fun w => a.widget.any fun v => w.parent == some v.id).map
        fun w => PlacedRow.cells { dashboard := a.dashboard, widget := some w }) := by
  obtain ⟨x, made, cells⟩ : ∃ x, (madePlaced [a.cells]).rows = [x] ∧ x.cells = a.cells :=
    (exists_eq_singleton (rows_madePlaced [a]) :)
  have below {r : Row} {w : StoredWidget} (same : r.cells = w.cells) :
      Db.holds (belowTerm .text) [some r, some x] =
        a.widget.any fun v => w.parent == some v.id := by
    have id : Db.JoinedRow.cell [some r, some x] ⟨1, some 2, .text⟩ =
        .ofText (a.widget.map (·.id)) := by
      obtain ⟨_, _⟩ := x
      subst cells
      obtain ⟨d, _ | w, x, y, w, h⟩ := a <;> rfl
    have parent : Db.JoinedRow.cell [some r, some x] ⟨0, some 5, .text⟩ = .ofText w.parent := by
      obtain ⟨_, _⟩ := r
      subst same
      rfl
    rw [belowTerm, Db.holds_equalSlots rfl rfl id parent, Option.any_map]
  have source : (nestedPlan W (madePlaced [a.cells]) columns .text).source =
      (W.rows.filter fun r => Db.holds (belowTerm .text) [some r, some x]).map
        fun r => [some r, some x] := by
    rw [Db.Plan.source_inner rfl rfl rfl, ← join_single, ← made]
    exact List.filter_eq_self.mpr fun _ _ => rfl
  refine Db.Plan.result_eq_ok rfl rfl fun n => ?_
  rw [source, List.forall₂_map_left_iff, List.forall₂_map_right_iff]
  refine (stored.filter_rows fun r w same => below same).imp fun r w same => ?_
  obtain ⟨_, _⟩ := r
  obtain ⟨_, _⟩ := x
  subst same cells
  obtain ⟨d, _ | w, x, y, w, h⟩ := a <;> rfl

end

/-- What the next block gives for a row that the recursion has. -/
def nestedRowsOf (W : Db.Table) (statement : Sql.Tokens) (row : List Cell) :
    Except Db.DbError (List (List Cell)) := do
  (← Db.planBlock statement [⟨"w", W.relation⟩, ⟨"p", madePlaced [row]⟩]
    (nestedBlock placedName)).result

theorem nestedRowsOf_cells {W : Db.Table}
    (stored : Holds widgetRowsTable StoredWidget.cells n s.widgets W) (statement : Sql.Tokens)
    {ds : List StoredDashboard} (distinct : (ds.map fun d => d.id).Nodup) {a : PlacedRow}
    (asked : Asked ds a) : nestedRowsOf W statement a.cells =
      .ok (((ds.flatMap s.nestedRows).filter (PlacedRow.follows a)).map PlacedRow.cells) := by
  have names : ["d_id", "d_name", "w_id"].map ((madePlaced [a.cells]).slot? 1) =
      [0, 1, 2].map fun i => some ⟨1, some i, .text⟩ :=
    (by decide : ["d_id", "d_name", "w_id"].map ((madePlaced []).slot? 1) =
      [0, 1, 2].map fun i => some ⟨1, some i, .text⟩)
  obtain ⟨columns, planned⟩ := planBlock_nested stored statement names
  rw [filter_follows_pool distinct asked.dashboard, List.map_map]
  exact (bind_of_eq_ok planned).trans (result_nested stored a)

section

variable {D P W : Db.Table}
  (shown : Holds TableStore.dashboards StoredDashboard.cells n s.dashboards D)
  (placed : Holds placementRowsTable Placement.cells n s.placements P)
  (stored : Holds widgetRowsTable StoredWidget.cells n s.widgets W)
  (foundD : db.table? dashboardTable = some D) (foundP : db.table? placementTable = some P)
  (foundW : db.table? widgetTable = some W)
include shown placed stored foundD foundP foundW

/-- The recursion makes the rows of dashboards, those of the placements first. -/
theorem relation_placed (wellFormed : WellFormed s) (statement : Sql.Tokens)
    (dashboard : Option String) :
    Db.Recursion.relation ⟨placedName, placementBlock dashboard, nestedBlock placedName⟩ db
      statement = .ok (madePlaced
        ((s.dashboardRows (s.askedDashboards dashboard)).map PlacedRow.cells)) := by
  let ds := s.askedDashboards dashboard
  let pool := ds.flatMap s.nestedRows
  let first := ds.flatMap s.placedRows
  have distinct : (ds.map fun d => d.id).Nodup :=
    wellFormed.dashboards.sublist (List.filter_sublist.map _)
  have firstFound : (placementBlock dashboard).tables.mapM (Db.bind db) =
      .ok [⟨"d", D.relation⟩, ⟨"dw", P.relation⟩, ⟨"w", W.relation⟩] :=
    mapM_eq_ok_iff.mpr (.cons (Db.bind_eq_ok foundD (some "d"))
      (.cons (Db.bind_eq_ok foundP (some "dw")) (.cons (Db.bind_eq_ok foundW (some "w")) .nil)))
  have nextFound : (nestedBlock placedName).tables.mapM
      (Db.Recursion.bind? ⟨placedName, placementBlock dashboard, nestedBlock placedName⟩ db) =
        .ok [some ⟨"w", W.relation⟩, none] := by
    have own : Db.sameName placedName placedName = true := by decide
    have other : Db.sameName placedName widgetTable = false := by decide
    refine mapM_eq_ok_iff.mpr (.cons ?_ (.cons ?_ .nil))
    · rw [Db.Recursion.bind?, other, Db.bind_eq_ok foundW (some "w")]
      rfl
    · rw [Db.Recursion.bind?, own]
      rfl
  obtain ⟨columns, planned⟩ := planBlock_placed shown placed stored statement dashboard
  have unknown : ["d_id", "d_name", "w_id"].map
      ((Db.madeRelation (placedColumns.map fun c => (c.1, .none)) []).slot? 1) =
        [0, 1, 2].map fun i => some ⟨1, some i, .none⟩ := by
    decide
  obtain ⟨_, nextPlanned⟩ := planBlock_nested stored statement unknown
  have bound : Db.Recursion.bound (Db.freshRows [] (first.map PlacedRow.cells))
      ((nestedBlock placedName).tables.zip [some ⟨"w", W.relation⟩, none]) =
        first.eraseDups.length * (1 * W.rows.length + 1) + 1 := by
    rw [freshRows_nil (fun _ _ => sameCells_placed) (asked_placedRows wellFormed),
      Db.Recursion.bound, List.length_map]
    rfl
  have enough : first ≠ [] → pool.length + first.eraseDups.length ≤
      first.eraseDups.length * (1 * W.rows.length + 1) + 1 := by
    intro _
    have below : pool.length ≤ ds.length * s.widgets.length := length_nestedRows_le
    have many : ds.length * s.widgets.length ≤ first.eraseDups.length * s.widgets.length :=
      Nat.mul_le_mul_right _ (length_le_placedRows distinct)
    rw [stored.rows.length_eq, Nat.one_mul, Nat.mul_succ]
    omega
  exact Db.Recursion.relation_eq_ok firstFound nextFound rfl nextPlanned planned rfl
    (result_placed shown placed stored wellFormed columns dashboard)
    (followRows_eq_closure (fun _ _ => sameCells_placed) (nodup_nestedRows wellFormed distinct)
      asked_nestedRows (fun a => nestedRowsOf_cells stored statement distinct)
      (asked_placedRows wellFormed) (bound ▸ enough))

end

/-! ## What is shown -/

/-- The columns that a block takes from the recursion. -/
def madeSlots : List Db.Slot :=
  (List.range 8).map (fun i => ⟨0, some i, .text⟩) ++
    [8, 9, 10, 11].map fun i => ⟨0, some i, .integer⟩

def filledTerm (s : Db.Slot) (c : Cell) : Db.Term := .coalesce [.slot s, .cell c]

/-- What is shown of the rows of dashboards. -/
def shownTerms : List Db.Term :=
  let text (i : Nat) : Db.Slot := ⟨0, some i, .text⟩
  [.slot (text 0), .slot (text 1), filledTerm (text 2) (.ofString noWidgetId),
      filledTerm (text 3) (.ofString ""), filledTerm (text 4) (.ofString ""), .slot (text 5),
      .slot (text 6), .slot (text 7)] ++
    [8, 9, 10, 11].map fun i => filledTerm ⟨0, some i, .integer⟩ (.int 0)

theorem resolve_shown (rows : List (List Cell)) (dashboard : Option String) :
    Db.resolveList (Db.selectNames [⟨placedName, madePlaced rows⟩])
      ((dashboardsQuery dashboard).body.items.map (·.expr)) = .ok shownTerms := by
  have slots : placedColumns.map (fun c => (madePlaced []).slot? 0 c.1) = madeSlots.map some := by
    decide
  have column {c : String} {slot : Db.Slot} (found : (madePlaced []).slot? 0 c = some slot) :
      Db.resolve (Db.selectNames [⟨placedName, madePlaced rows⟩]) (.col c) = .ok (.slot slot) := by
    have name : Db.selectNames [⟨placedName, madePlaced rows⟩] none c = .ok (.slot slot) :=
      Db.selectNames_eq_ok (b := ⟨placedName, madePlaced rows⟩) (i := 0) (by simp) found
    rw [Sql.Expr.col, Db.resolve, name]
  have filled {c : String} {slot : Db.Slot} (found : (madePlaced []).slot? 0 c = some slot)
      (l : Sql.Literal) : Db.resolve (Db.selectNames [⟨placedName, madePlaced rows⟩])
        (.coalesce [.col c, .literal l]) = .ok (filledTerm slot (Db.literalOn l)) := by
    rw [Sql.Expr.coalesce, Db.resolve, column found]
    cases l <;> rfl
  simp only [placedColumns, madeSlots, layoutColumns, List.map_cons, List.map_nil,
    List.cons_append, List.nil_append, List.cons.injEq, and_true, List.range_succ,
    List.range_zero] at slots
  obtain ⟨dashboardId, dashboardName, id, name, kind, parent, props, query, x, y, w, h⟩ := slots
  exact Db.resolveList_eq_ok
    (.cons (column dashboardId) (.cons (column dashboardName)
    (.cons (filled id _) (.cons (filled name _) (.cons (filled kind _)
    (.cons (column parent) (.cons (column props) (.cons (column query)
    (.cons (filled x _) (.cons (filled y _) (.cons (filled w _) (.cons (filled h _) .nil))))))))))))

/-- The plan of what is shown of the rows of dashboards. -/
def shownPlan (made : Db.Relation) (columns : List String) : Db.Plan :=
  { bindings := [⟨placedName, made⟩], columns, items := shownTerms, filters := [], joins := []
    groupBy := [], orderBy := [] }

theorem result_shown {ds : List StoredDashboard} {rows : List PlacedRow}
    (asked : ∀ r ∈ rows, Asked ds r) (columns : List String) :
    (shownPlan (madePlaced (rows.map PlacedRow.cells)) columns).result =
      .ok (rows.map PlacedRow.shown) := by
  let made := madePlaced (rows.map PlacedRow.cells)
  have source : (shownPlan made columns).source = made.rows.map fun r => [some r] := by
    rw [Db.Plan.source_plain rfl rfl rfl, Db.Plan.firstRows_of_made rfl]
  have value {x : Row} {r : PlacedRow} (own : Asked ds r) (same : x.cells = r.cells) (n : Nat) :
      shownTerms.mapM (fun t => t.onRow n [some x]) = .ok r.shown := by
    obtain ⟨_, _⟩ := x
    subst same
    obtain ⟨d, _ | w, x, y, w, h⟩ := r
    · cases own.bare rfl
      rfl
    · rfl
  refine Db.Plan.result_eq_ok rfl rfl fun n => ?_
  rw [source, List.forall₂_map_left_iff, List.forall₂_map_right_iff]
  exact (forall₂_mem (rows_madePlaced rows)).imp fun x r both => value (asked r both.2.2) both.1 n

/-- The rows of dashboards are found in the tables, filled in where there is no widget. -/
theorem query_dashboards (represents : Represents db n s) (wellFormed : WellFormed s)
    (dashboard : Option String) : ∃ columns, db.query (dashboardsQuery dashboard) =
      .ok { columns
            rows := (s.dashboardRows (s.askedDashboards dashboard)).map PlacedRow.shown } := by
  obtain ⟨D, foundD, shown⟩ := represents.dashboards
  obtain ⟨P, foundP, placed⟩ := represents.placements
  obtain ⟨W, foundW, stored⟩ := represents.widgets
  have recursion := relation_placed shown placed stored foundD foundP foundW wellFormed
    (dashboardsQuery dashboard).tokens dashboard
  let rows := (s.dashboardRows (s.askedDashboards dashboard)).map PlacedRow.cells
  obtain ⟨columns, planned⟩ := Db.planBlock_eq_ok (s := (dashboardsQuery dashboard).body)
    (dashboardsQuery dashboard).tokens (List.cons_ne_nil _ _)
    (by decide : 12 ≤ Db.Limit.resultColumns.most) rfl rfl (resolve_shown rows dashboard) rfl rfl
    (by decide : 1 ≤ Db.Limit.joined.most)
  have own : Db.sameName placedName placedName = true := by decide
  have tables : (dashboardsQuery dashboard).body.tables.mapM
      (Db.Recursion.bind? ⟨placedName, placementBlock dashboard, nestedBlock placedName⟩ db) =
        .ok [none] :=
    mapM_eq_ok_iff.mpr (.cons (if_pos own) .nil)
  have params : (dashboardsQuery dashboard).tokens.params = dashboard.toList.map .str := by
    rw [Sql.Tokens.params_eq_filterMap, Sql.Query.parts_tokens]
    cases dashboard <;> rfl
  have bound : Db.checkParams (dashboardsQuery dashboard).tokens.params = .ok () := by
    rw [params]
    cases dashboard <;> rfl
  have asked : ∀ r ∈ s.dashboardRows (s.askedDashboards dashboard),
      Asked (s.askedDashboards dashboard) r := by
    intro r member
    rcases mem_of_mem_closure _ member with member | member
    · exact asked_nestedRows r member
    · exact asked_placedRows wellFormed r member
  exact ⟨columns, Db.Database.query_eq_ok
    (r := ⟨placedName, placementBlock dashboard, nestedBlock placedName⟩) recursion tables planned
    bound (result_shown asked columns)⟩

/-! ## Reading -/

theorem toUInt32_of_side {column : Nat} {n : Int64} {side : UInt32} (name : String)
    (read : PlacedRow.side column n = .ok side) : (Cell.int n).toUInt32 column name = .ok side := by
  unfold PlacedRow.side at read
  unfold Cell.toUInt32
  dsimp only
  split at read
  · next small =>
    rw [if_pos small]
    exact congrArg Except.ok (Except.ok.inj read)
  · cases read

/-- A row that can be loaded is read from its cells as it is loaded. -/
theorem ofRow_shown (columns : List String) {r : PlacedRow} {l : LoadedRow}
    (success : r.load = .ok l) : LoadedRow.ofRow { columns, cells := r.shown } = .ok l := by
  obtain ⟨layout, extent, same⟩ := bind_eq_ok_iff.mp success
  cases same
  obtain ⟨x, readX, extent⟩ := bind_eq_ok_iff.mp extent
  obtain ⟨y, readY, extent⟩ := bind_eq_ok_iff.mp extent
  obtain ⟨w, readW, extent⟩ := bind_eq_ok_iff.mp extent
  obtain ⟨h, readH, same⟩ := bind_eq_ok_iff.mp extent
  cases same
  simp [LoadedRow.ofRow, Db.ResultRow.text, Db.ResultRow.text?, Db.ResultRow.number,
    PlacedRow.shown, StoredDashboard.cells, toText_ofString, toText?_ofText, ok_bind,
    toUInt32_of_side _ readX, toUInt32_of_side _ readY, toUInt32_of_side _ readW,
    toUInt32_of_side _ readH]

variable {supply : Nat → String} {texts : String → Prop}

/-- The rows of dashboards are loaded from the tables as they are from the store. -/
theorem load_dashboards (represents : Represents db n s) (sound : Sound supply texts s)
    (dashboard : Option String) :
    TableStore.load ⟨db⟩ (dashboardsQuery dashboard) LoadedRow.ofRow =
      (s.dashboardRows (s.askedDashboards dashboard)).mapM PlacedRow.load := by
  obtain ⟨columns, found⟩ := query_dashboards represents sound.wellFormed dashboard
  have loadable : ∀ r ∈ s.dashboardRows (s.askedDashboards dashboard), Loadable s r :=
    loadable_of_mem sound fun _ asked => List.mem_of_mem_filter asked
  obtain ⟨loaded, loads⟩ := exists_mapM fun r member => exists_load (loadable r member)
  have each : ((s.dashboardRows (s.askedDashboards dashboard)).map PlacedRow.shown).mapM
      (fun cells => LoadedRow.ofRow { columns, cells }) = .ok loaded := by
    rw [mapM_eq_ok_iff, List.forall₂_map_left_iff]
    exact (mapM_eq_ok_iff.mp loads).imp fun r l => ofRow_shown columns
  rw [TableStore.load, found]
  simp only [ok_bind, each, loads]
  rfl

end Store

namespace TableStore

open Store

variable {db : Db.Database} {n : Nat} {s : Store} {supply : Nat → String} {texts : String → Prop}
  (represents : Represents db n s) (sound : Sound supply texts s)
include represents sound

/-- The dashboards that are read from the tables are those of the store. -/
theorem allDashboards_eq : allDashboards ⟨db⟩ = s.allDashboards := by
  have all : s.askedDashboards none = s.dashboards := List.filter_true _
  rw [allDashboards, load_dashboards represents sound none, all]
  rfl

/-- A dashboard that is read from the tables is that of the store. -/
theorem dashboard_eq (id : String) : dashboard ⟨db⟩ id = s.dashboard id := by
  rw [dashboard, load_dashboards represents sound (some id)]
  rfl

end TableStore

end QueryBoard
