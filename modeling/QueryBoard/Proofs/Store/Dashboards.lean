import QueryBoard.Proofs.Store.Lookup
import QueryBoard.Proofs.Store.Placing
import Mathlib

/-!
# Which places a dashboard shows

A dashboard shows a widget at its top level unless the widget is stored below another one that is
placed on it; then the widget is shown inside that one.  Of several places of one widget the first
counts.
-/

set_option autoImplicit false

namespace QueryBoard

open Hierarchy
open Relation (ReflTransGen TransGen)

/-! ## Rows of placements -/

/-- A stored side of a layout as it is read. -/
def sideOf (n : Int64) : UInt32 := UInt32.ofNat n.toInt.toNat

/-- The widget of a placement with its layout. -/
def Placement.place (p : Placement) : String × Layout :=
  (p.widget, ⟨sideOf p.x, sideOf p.y, sideOf p.w, sideOf p.h⟩)

namespace PlacedRow

def extent (r : PlacedRow) : Layout := ⟨sideOf r.x, sideOf r.y, sideOf r.w, sideOf r.h⟩

def loaded (r : PlacedRow) : LoadedRow :=
  ⟨r.dashboard, r.widget.getD { id := noWidgetId, name := "", kind := "" }, r.extent⟩

def row (r : PlacedRow) : DashboardRow :=
  ⟨r.dashboard.id, r.dashboard.name, r.loaded.widget.row, r.extent⟩

/-- The row with the documents of its widget. -/
def read (r : PlacedRow) : Except StoreError DashboardRow := r.loaded.read

theorem row_widget {r : PlacedRow} {w : StoredWidget} (found : r.widget = some w) :
    r.row.widget = w.row := by
  rw [row, loaded, found]
  rfl

end PlacedRow

namespace Store

variable {supply : Nat → String} {s : Store}

theorem load_eq {r : PlacedRow} (loadable : Loadable s r) : r.load = .ok r.loaded := by
  have side : ∀ column, ∀ n ∈ [r.x, r.y, r.w, r.h], PlacedRow.side column n = .ok (sideOf n) := by
    intro column n member
    rw [PlacedRow.side, if_pos (loadable.sides n member)]
    rfl
  rw [PlacedRow.load, PlacedRow.layout, side 8 r.x (by simp), side 9 r.y (by simp),
    side 10 r.w (by simp), side 11 r.h (by simp)]
  rfl

theorem read_placed_eq (sound : Sound supply Readable s) {r : PlacedRow} (loadable : Loadable s r) :
    r.read = .ok r.row := by
  have readable : r.loaded.widget.read = .ok r.loaded.widget.row := by
    apply StoredWidget.read_eq
    cases stored : r.widget with
    | none => simp [PlacedRow.loaded, stored]
    | some w =>
        rw [PlacedRow.loaded, stored]
        exact sound.documents w (loadable.widget w stored)
  rw [PlacedRow.read, LoadedRow.read, readable]
  rfl

variable {texts : String → Prop}

theorem mapM_load (sound : Sound supply texts s) {ds : List StoredDashboard}
    (known : ∀ d ∈ ds, d ∈ s.dashboards) :
    (s.dashboardRows ds).mapM PlacedRow.load = .ok ((s.dashboardRows ds).map PlacedRow.loaded) :=
  mapM_eq_ok_map fun r member => load_eq (loadable_of_mem sound known r member)

theorem dashboard_eq (sound : Sound supply texts s) {d : StoredDashboard}
    (stored : d ∈ s.dashboards) :
    s.dashboard d.id = (s.dashboardRows [d]).mapM PlacedRow.read >>= fun rows =>
      (buildDashboard rows d.id).mapError .ofTree := by
  have known : ∀ d' ∈ [d], d' ∈ s.dashboards := fun d' member => List.mem_singleton.mp member ▸ stored
  rw [dashboard, filter_eq_singleton sound.wellFormed.dashboards stored, mapM_load sound known, ok_bind,
    readDashboard, List.mapM_map]
  rfl

/-! ## The rows of one dashboard -/

def placementsOn (s : Store) (id : String) : List Placement :=
  s.placements.filter fun p => p.dashboard == id

/-- The widgets that a dashboard places, with their layouts. -/
def placesOn (s : Store) (id : String) : List (String × Layout) :=
  (s.placementsOn id).map Placement.place

/-- Whether a widget is one of some placed ones, or below one of them. -/
def OnBoard (s : Store) (places : List (String × Layout)) (id : String) : Prop :=
  ∃ p ∈ places, id = p.1 ∨ s.Under id p.1

theorem onBoard_iff {places : List (String × Layout)} {id : String} :
    s.OnBoard places id ↔ id ∈ places.map Prod.fst ∨ ∃ p ∈ places, s.Under id p.1 := by
  constructor
  · rintro ⟨p, member, rfl | under⟩
    · exact Or.inl (List.mem_map_of_mem member)
    · exact Or.inr ⟨p, member, under⟩
  · rintro (placed | ⟨p, member, under⟩)
    · obtain ⟨p, member, rfl⟩ := List.mem_map.mp placed
      exact ⟨p, member, Or.inl rfl⟩
    · exact ⟨p, member, Or.inr under⟩

/-- A widget is below a placed one if its parent is on the board. -/
theorem under_iff (wellFormed : WellFormed s) {places : List (String × Layout)} {w : StoredWidget}
    (stored : w ∈ s.widgets) : (∃ p ∈ places, s.Under w.id p.1) ↔
      ∃ parent, w.parent = some parent ∧ s.OnBoard places parent := by
  have own : (w.id, w.parent) ∈ parentLinks s.widgets := mem_parentLinks.mpr ⟨w, stored, rfl, rfl⟩
  constructor
  · rintro ⟨p, member, under⟩
    obtain ⟨parent, link, above⟩ := TransGen.head'_iff.mp under
    refine ⟨parent, wellFormed.link_unique _ _ _ own link, p, member, ?_⟩
    rcases Relation.reflTransGen_iff_eq_or_transGen.mp above with same | above
    · exact Or.inl same.symm
    · exact Or.inr above
  · rintro ⟨parent, given, p, member, same | above⟩
    · exact ⟨p, member, TransGen.single (same ▸ given ▸ own)⟩
    · exact ⟨p, member, TransGen.head (given ▸ own) above⟩

def placedRow (s : Store) (d : StoredDashboard) (p : Placement) : PlacedRow :=
  { dashboard := d, widget := s.widgets.find? fun w => w.id == p.widget
    x := p.x, y := p.y, w := p.w, h := p.h }

theorem placedRow_widget (wellFormed : WellFormed s) {d : StoredDashboard} {p : Placement}
    (placed : p ∈ s.placementsOn d.id) :
    ∃ w ∈ s.widgets, (s.placedRow d p).widget = some w ∧ w.id = p.widget := by
  obtain ⟨w, stored, same⟩ :=
    List.mem_map.mp (wellFormed.placements p (List.mem_filter.mp placed).1).2
  cases found : s.widgets.find? fun w => w.id == p.widget with
  | none => exact absurd same (by simpa using List.find?_eq_none.mp found w stored)
  | some w' =>
      exact ⟨w', List.mem_of_find?_eq_some found, found, by simpa using List.find?_some found⟩

theorem id_placedRow (wellFormed : WellFormed s) {d : StoredDashboard} {p : Placement}
    (placed : p ∈ s.placementsOn d.id) : (s.placedRow d p).row.widget.id = p.widget := by
  obtain ⟨w, _, found, is⟩ := placedRow_widget wellFormed placed
  rw [PlacedRow.row_widget found, ← is]
  rfl

theorem placedRows_of_none {d : StoredDashboard} (none : s.placementsOn d.id = []) :
    s.placedRows d = [{ dashboard := d, widget := .none }] := by
  rw [placementsOn] at none
  rw [placedRows, none]

theorem placedRows_of_some {d : StoredDashboard} (some : s.placementsOn d.id ≠ []) :
    s.placedRows d = (s.placementsOn d.id).map (s.placedRow d) := by
  unfold placedRows
  split
  · next none => exact absurd none some
  · rfl

/-- The rows of a dashboard for the widgets that are in another one. -/
def nestedRows (s : Store) (d : StoredDashboard) : List PlacedRow :=
  (s.widgets.filter fun w => w.parent.isSome).map fun w => { dashboard := d, widget := some w }

theorem dashboardRows_singleton (d : StoredDashboard) :
    s.dashboardRows [d] = closure PlacedRow.follows (s.nestedRows d) (s.placedRows d) := by
  simp [dashboardRows, nestedRows]

theorem follows_iff {a b : PlacedRow} : PlacedRow.follows a b = true ↔
    a.dashboard = b.dashboard ∧ ∃ v w, a.widget = some v ∧ b.widget = some w ∧
      w.parent = some v.id := by
  unfold PlacedRow.follows
  rcases a.widget with _ | v <;> rcases b.widget with _ | w <;> simp

theorem onBoard_of_mem (wellFormed : WellFormed s) {d : StoredDashboard} {r : PlacedRow}
    (member : r ∈ s.dashboardRows [d]) : r.dashboard = d ∧ ∀ w, r.widget = some w →
      w ∈ s.widgets ∧ s.OnBoard (s.placesOn d.id) w.id := by
  rw [dashboardRows_singleton] at member
  refine of_mem_closure _ (P := fun r => r.dashboard = d ∧ ∀ w, r.widget = some w →
    w ∈ s.widgets ∧ s.OnBoard (s.placesOn d.id) w.id) (fun q first => ?_)
    (fun x y ⟨same, holds⟩ inside step => ?_) member
  · by_cases some : s.placementsOn d.id = []
    · rw [placedRows_of_none some, List.mem_singleton] at first
      rw [first]
      exact ⟨rfl, fun w given => by cases given⟩
    · rw [placedRows_of_some some] at first
      obtain ⟨p, listed, rfl⟩ := List.mem_map.mp first
      obtain ⟨w, stored, found, is⟩ := placedRow_widget wellFormed listed
      refine ⟨rfl, fun w' given => ?_⟩
      rw [found, Option.some.injEq] at given
      rw [← given]
      exact ⟨stored, p.place, List.mem_map_of_mem listed, Or.inl is⟩
  · obtain ⟨equal, v, w, up, down, parent⟩ := follows_iff.mp step
    obtain ⟨w', kept, rfl⟩ := List.mem_map.mp inside
    cases down
    have stored := (List.mem_filter.mp kept).1
    refine ⟨rfl, fun w given => ?_⟩
    cases given
    have under := (under_iff wellFormed stored).mpr ⟨v.id, parent, (holds v up).2⟩
    exact ⟨stored, onBoard_iff.mpr (Or.inr under)⟩

/-- Whether a widget is in a row of a dashboard. -/
def HasRow (s : Store) (d : StoredDashboard) (id : String) : Prop :=
  ∃ r ∈ s.dashboardRows [d], r.dashboard = d ∧ ∃ w, r.widget = some w ∧ w.id = id

theorem hasRow_of_placed (wellFormed : WellFormed s) {d : StoredDashboard} {p : Placement}
    (placed : p ∈ s.placementsOn d.id) : s.HasRow d p.widget := by
  obtain ⟨w, _, found, is⟩ := placedRow_widget wellFormed placed
  refine ⟨s.placedRow d p, ?_, rfl, w, found, is⟩
  rw [dashboardRows_singleton]
  apply mem_closure_of_mem
  rw [placedRows_of_some (List.ne_nil_of_mem placed)]
  exact List.mem_map_of_mem placed

theorem HasRow.child {d : StoredDashboard} {id parent : String} (above : s.HasRow d parent)
    (link : (id, some parent) ∈ parentLinks s.widgets) : s.HasRow d id := by
  obtain ⟨r, member, same, v, up, rfl⟩ := above
  obtain ⟨w, stored, rfl, given⟩ := mem_parentLinks.mp link
  refine ⟨{ dashboard := d, widget := some w }, ?_, rfl, w, rfl, rfl⟩
  rw [dashboardRows_singleton] at member ⊢
  refine mem_closure_of_follows _ member ?_ (follows_iff.mpr ⟨same, v, w, up, rfl, given⟩)
  exact List.mem_map_of_mem (List.mem_filter.mpr ⟨stored, by simp [given]⟩)

theorem hasRow_of_onBoard (wellFormed : WellFormed s) {d : StoredDashboard} {id : String}
    (board : s.OnBoard (s.placesOn d.id) id) : s.HasRow d id := by
  obtain ⟨place, listed, above⟩ := board
  obtain ⟨p, placed, rfl⟩ := List.mem_map.mp listed
  have top : s.HasRow d p.widget := hasRow_of_placed wellFormed placed
  rcases above with rfl | under
  · exact top
  · -- Going down from the placed widget, each row is followed by those of the children.
    induction under using TransGen.head_induction_on with
    | single link => exact top.child link
    | head link _ ih => exact ih.child link

theorem dashboardRows_ne_nil (d : StoredDashboard) : s.dashboardRows [d] ≠ [] := by
  have some : s.placedRows d ≠ [] := by
    by_cases none : s.placementsOn d.id = []
    · simp [placedRows_of_none none]
    · simpa [placedRows_of_some none] using none
  obtain ⟨r, member⟩ := List.exists_mem_of_ne_nil _ some
  rw [dashboardRows_singleton]
  exact List.ne_nil_of_mem (mem_closure_of_mem _ member)

/-- Behind the rows of the placements are rows of widgets below placed ones. -/
theorem dashboardRows_eq_append (wellFormed : WellFormed s) {d : StoredDashboard}
    (some : s.placementsOn d.id ≠ []) : ∃ rest,
    s.dashboardRows [d] = ((s.placementsOn d.id).map (s.placedRow d)).eraseDups ++ rest ∧
    ∀ r ∈ rest, ∃ w ∈ s.widgets, r = { dashboard := d, widget := Option.some w } ∧
      ∃ q ∈ s.placesOn d.id, s.Under w.id q.1 := by
  obtain ⟨rest, whole, later⟩ :=
    closure_eq_append PlacedRow.follows (s.nestedRows d) (s.placedRows d)
  rw [← dashboardRows_singleton] at whole later
  rw [placedRows_of_some some] at whole
  refine ⟨rest, whole, fun r member => ?_⟩
  obtain ⟨inside, x, visited, step⟩ := later r member
  obtain ⟨w, kept, rfl⟩ := List.mem_map.mp inside
  obtain ⟨_, v, w', up, down, parent⟩ := follows_iff.mp step
  cases down
  have stored := (List.mem_filter.mp kept).1
  have above := ((onBoard_of_mem wellFormed visited).2 v up).2
  exact ⟨w, stored, rfl, (under_iff wellFormed stored).mpr ⟨v.id, parent, above⟩⟩

/-! ## What a dashboard shows -/

open Classical in
/-- Whether a placed widget is below no other placed one. -/
noncomputable def isShown (s : Store) (places : List (String × Layout)) (p : String × Layout) :
    Bool :=
  decide (∀ q ∈ places, ¬ s.Under p.1 q.1)

theorem isShown_iff {places : List (String × Layout)} {p : String × Layout} :
    s.isShown places p = true ↔ ∀ q ∈ places, ¬ s.Under p.1 q.1 := by
  simp [isShown]

/-- The places at the top level of a dashboard: of each widget the first, unless the widget is below
another one that is placed. -/
noncomputable def shown (s : Store) (places : List (String × Layout)) : List (String × Layout) :=
  (firstsBy Prod.fst places).filter (s.isShown places)

/-- The rows that a dashboard is built from. -/
def boardRows (s : Store) (d : StoredDashboard) : List DashboardRow :=
  Dashboard.placements ((s.dashboardRows [d]).map PlacedRow.row) d.id

section

variable (wellFormed : WellFormed s) (proper : ∀ id ∈ s.widgetIds, isNilUuid id = false)
variable {d : StoredDashboard}
include wellFormed proper

theorem mem_boardRows_iff {row : DashboardRow} : row ∈ s.boardRows d ↔
    ∃ r ∈ s.dashboardRows [d], (∃ w, r.widget = some w) ∧ r.row = row := by
  rw [boardRows, Dashboard.placements, List.mem_filter, List.mem_map, Bool.and_eq_true,
    Bool.not_eq_true', beq_iff_eq]
  constructor
  · rintro ⟨⟨r, member, rfl⟩, _, real⟩
    refine ⟨r, member, ?_, rfl⟩
    cases found : r.widget with
    | none =>
        have absent : r.row.widget.id = noWidgetId := by
          simp [PlacedRow.row, PlacedRow.loaded, StoredWidget.row, found]
        rw [absent, isNilUuid_noWidgetId] at real
        cases real
    | some w => exact ⟨w, rfl⟩
  · rintro ⟨r, member, ⟨w, found⟩, rfl⟩
    obtain ⟨same, holds⟩ := onBoard_of_mem wellFormed member
    refine ⟨⟨r, member, rfl⟩, congrArg StoredDashboard.id same, ?_⟩
    rw [PlacedRow.row_widget found]
    exact proper w.id (List.mem_map_of_mem (holds w found).1)

theorem widget_of_mem_boardRows {row : DashboardRow} (member : row ∈ s.boardRows d) :
    ∃ w ∈ s.widgets, row.widget = w.row ∧ s.OnBoard (s.placesOn d.id) w.id := by
  obtain ⟨r, inside, ⟨w, found⟩, rfl⟩ := (mem_boardRows_iff wellFormed proper).mp member
  obtain ⟨stored, board⟩ := (onBoard_of_mem wellFormed inside).2 w found
  exact ⟨w, stored, PlacedRow.row_widget found, board⟩

theorem mem_present_iff {id : String} : id ∈ (s.boardRows d).map (fun row => row.widget.id) ↔
    s.OnBoard (s.placesOn d.id) id := by
  constructor
  · intro present
    obtain ⟨row, member, rfl⟩ := List.mem_map.mp present
    obtain ⟨w, _, same, board⟩ := widget_of_mem_boardRows wellFormed proper member
    rw [same]
    exact board
  · intro board
    obtain ⟨r, member, _, w, found, rfl⟩ := hasRow_of_onBoard wellFormed board
    refine List.mem_map.mpr ⟨r.row, ?_, congrArg WidgetRow.id (PlacedRow.row_widget found)⟩
    exact (mem_boardRows_iff wellFormed proper).mpr ⟨r, member, ⟨w, found⟩, rfl⟩

/-- A widget is at the top level unless it is below a placed one. -/
theorem isTop_iff {row : DashboardRow} {w : StoredWidget} (stored : w ∈ s.widgets)
    (same : row.widget = w.row) :
    Dashboard.isTop (s.boardRows d) row = true ↔ ∀ q ∈ s.placesOn d.id, ¬ s.Under w.id q.1 := by
  have parent : row.widget.parent = w.parent := by rw [same]; rfl
  have below : (∃ p ∈ s.placesOn d.id, s.Under w.id p.1) ↔ _ := under_iff wellFormed stored
  rw [Dashboard.isTop, Dashboard.node, parent, Option.isNone_iff_eq_none, Option.filter_eq_none_iff]
  constructor
  · intro none q member under
    obtain ⟨p, given, board⟩ := below.mp ⟨q, member, under⟩
    exact none p given (by simpa using (mem_present_iff wellFormed proper).mpr board)
  · intro apart p given present
    have board := (mem_present_iff wellFormed proper).mp (by simpa using present)
    obtain ⟨q, member, under⟩ := below.mpr ⟨p, given, board⟩
    exact apart q member under

/-- Only the row of a dashboard without placements is not built into it. -/
theorem boardRows_eq_map (some : ∀ r ∈ s.dashboardRows [d], ∃ w, r.widget = some w) :
    s.boardRows d = (s.dashboardRows [d]).map PlacedRow.row := by
  rw [boardRows, Dashboard.placements, List.filter_eq_self]
  intro row member
  obtain ⟨r, inside, rfl⟩ := List.mem_map.mp member
  have kept := (mem_boardRows_iff wellFormed proper).mpr ⟨r, inside, some r inside, rfl⟩
  exact (List.mem_filter.mp kept).2

/-- The rows are those of the placements, and after them rows of widgets below placed ones. -/
theorem boardRows_eq_append : ∃ rest,
    s.boardRows d =
      (((s.placementsOn d.id).map (s.placedRow d)).eraseDups.map PlacedRow.row) ++ rest ∧
    ∀ row ∈ rest,
      ∃ w ∈ s.widgets, row.widget = w.row ∧ ∃ q ∈ s.placesOn d.id, s.Under w.id q.1 := by
  by_cases some : s.placementsOn d.id = []
  · have empty : s.boardRows d = [] := by
      rw [List.eq_nil_iff_forall_not_mem]
      intro row member
      obtain ⟨_, _, _, q, placed, _⟩ := widget_of_mem_boardRows wellFormed proper member
      rw [placesOn, some] at placed
      cases placed
    exact ⟨[], by rw [some, empty]; rfl, by simp⟩
  · obtain ⟨rest, whole, later⟩ := dashboardRows_eq_append wellFormed some
    have real : ∀ r ∈ s.dashboardRows [d], ∃ w, r.widget = Option.some w := by
      intro r member
      rw [whole, List.mem_append, List.mem_eraseDups] at member
      rcases member with member | member
      · obtain ⟨p, listed, rfl⟩ := List.mem_map.mp member
        obtain ⟨w, _, found, _⟩ := placedRow_widget wellFormed listed
        exact ⟨w, found⟩
      · obtain ⟨w, _, rfl, _⟩ := later r member
        exact ⟨w, rfl⟩
    refine ⟨rest.map PlacedRow.row, ?_, fun row member => ?_⟩
    · rw [boardRows_eq_map wellFormed proper real, whole, List.map_append]
    · obtain ⟨r, inside, rfl⟩ := List.mem_map.mp member
      obtain ⟨w, stored, rfl, under⟩ := later r inside
      exact ⟨w, stored, PlacedRow.row_widget rfl, under⟩

/-- The first row of a placed widget is that of its first placement. -/
theorem firstsBy_boardRows : ∃ rest,
    firstsBy (fun r => r.widget.id) (s.boardRows d) =
      (firstsBy Placement.widget (s.placementsOn d.id)).map (fun p => (s.placedRow d p).row) ++
        rest ∧
    ∀ row ∈ rest, Dashboard.isTop (s.boardRows d) row = false := by
  obtain ⟨rest, whole, later⟩ := boardRows_eq_append wellFormed proper (d := d)
  have first : firstsBy (fun r => r.widget.id)
      (((s.placementsOn d.id).map (s.placedRow d)).eraseDups.map PlacedRow.row) =
        (firstsBy Placement.widget (s.placementsOn d.id)).map fun p => (s.placedRow d p).row := by
    rw [firstsBy_map, firstsBy_eraseDups, firstsBy_map, List.map_map,
      firstsBy_congr _ fun p placed => id_placedRow wellFormed placed]
    rfl
  have split : firstsBy (fun r => r.widget.id) (s.boardRows d) = _ :=
    (congrArg _ whole).trans (firstsBy_append _ _ rest)
  rw [first] at split
  refine ⟨_, split, fun row member => ?_⟩
  obtain ⟨w, stored, same, q, placed, under⟩ :=
    later row (List.mem_filter.mp (mem_of_mem_firstsBy _ member)).1
  by_contra top
  have apart := (isTop_iff wellFormed proper stored same).mp (by simpa using top)
  exact apart q placed under

/-- At the top level of a dashboard are the places that are shown. -/
theorem places_boardRows :
    ((firstsBy (fun r => r.widget.id) (s.boardRows d)).filter (Dashboard.isTop (s.boardRows d))).map
      (fun r => (r.widget.id, r.layout)) = s.shown (s.placesOn d.id) := by
  obtain ⟨rest, split, below⟩ := firstsBy_boardRows wellFormed proper (d := d)
  have none : rest.filter (Dashboard.isTop (s.boardRows d)) = [] := by
    rw [List.filter_eq_nil_iff]
    intro row member
    simp [below row member]
  have tops : ∀ p ∈ firstsBy Placement.widget (s.placementsOn d.id),
      (Dashboard.isTop (s.boardRows d) ∘ fun p => (s.placedRow d p).row) p =
        (s.isShown (s.placesOn d.id) ∘ Placement.place) p := by
    intro p member
    obtain ⟨w, stored, found, is⟩ := placedRow_widget wellFormed (mem_of_mem_firstsBy _ member)
    rw [Bool.eq_iff_iff, Function.comp_apply, Function.comp_apply, isShown_iff,
      isTop_iff wellFormed proper stored (PlacedRow.row_widget found), is]
    rfl
  have places : firstsBy Prod.fst (s.placesOn d.id) =
      (firstsBy Placement.widget (s.placementsOn d.id)).map Placement.place := firstsBy_map _ _ _
  rw [split, List.filter_append, none, List.append_nil, List.filter_map, List.map_map, shown,
    places, List.filter_map, List.filter_congr tops]
  refine List.map_congr_left fun p member => ?_
  have placed := mem_of_mem_firstsBy _ (List.mem_filter.mp member).1
  exact congrArg (·, p.place.2) (id_placedRow wellFormed placed)

end

/-- Whether a dashboard is found under an id with a name, all placed widgets on it, and those that
are shown at its top level. -/
def Shows (s : Store) (id name : String) (places : List (String × Layout)) : Prop :=
  ∃ d, s.dashboard id = .ok d ∧ d.id = id ∧ d.name = name ∧ d.places = s.shown places ∧
    ∀ p ∈ places, p.1 ∈ d.widgetIds

theorem Sound.proper (proper : ∀ k, isNilUuid (supply k) = false)
    (sound : Sound supply texts s) : ∀ id ∈ s.widgetIds, isNilUuid id = false := by
  intro id stored
  obtain ⟨k, _, rfl⟩ := sound.issued id stored
  exact proper k

/-- A dashboard is built from rows that stand alone. -/
theorem buildDashboard_dashboardRows (wellFormed : WellFormed s) (d : StoredDashboard) :
    buildDashboard ((s.dashboardRows [d]).map PlacedRow.row) d.id =
      Dashboard.ofRows d.id d.name (s.boardRows d) := by
  have board : ∀ row ∈ (s.dashboardRows [d]).map PlacedRow.row,
      row.dashboardId = d.id ∧ row.dashboardName = d.name := by
    intro row member
    obtain ⟨r, inside, rfl⟩ := List.mem_map.mp member
    rw [← (onBoard_of_mem wellFormed inside).1]
    exact ⟨rfl, rfl⟩
  have some : (s.dashboardRows [d]).map PlacedRow.row ≠ [] := by
    simpa using dashboardRows_ne_nil d
  exact buildDashboard_of_alone some (fun row member => (board row member).1) fun row member =>
    (board row member).2

theorem exists_ofRows_boardRows (sound : Sound supply texts s)
    (proper : ∀ k, isNilUuid (supply k) = false) (d : StoredDashboard) :
    ∃ d', Dashboard.ofRows d.id d.name (s.boardRows d) = .ok d' := by
  have wellFormed := sound.wellFormed
  have rows : ∀ row ∈ s.boardRows d, (row.widget.id, row.widget.parent) ∈ parentLinks s.widgets ∧
      Grounded (parentLinks s.widgets) row.widget.id := by
    intro row member
    obtain ⟨w, inside, same, _⟩ := widget_of_mem_boardRows wellFormed (sound.proper proper) member
    rw [same]
    exact ⟨mem_parentLinks.mpr ⟨w, inside, rfl, rfl⟩, wellFormed.chains w inside⟩
  exact Dashboard.exists_ofRows wellFormed.nodup_links (fun row member => (rows row member).1)
    (fun row member => (rows row member).2) d.id d.name

/-- A stored dashboard is found when the documents of its rows can be read. -/
theorem dashboard_of_reads (sound : Sound supply texts s) {d : StoredDashboard}
    (stored : d ∈ s.dashboards) (reads : ∀ r ∈ s.dashboardRows [d], r.read = .ok r.row) :
    s.dashboard d.id = (Dashboard.ofRows d.id d.name (s.boardRows d)).mapError .ofTree := by
  rw [dashboard_eq sound stored, mapM_eq_ok_map reads, ok_bind,
    buildDashboard_dashboardRows sound.wellFormed]

/-- A stored dashboard shows what is placed on it. -/
theorem shows_of_mem (sound : Sound supply Readable s) (proper : ∀ k, isNilUuid (supply k) = false)
    {d : StoredDashboard} (stored : d ∈ s.dashboards) : s.Shows d.id d.name (s.placesOn d.id) := by
  have wellFormed := sound.wellFormed
  have reads : ∀ r ∈ s.dashboardRows [d], r.read = .ok r.row := fun r member =>
    read_placed_eq sound (loadable_of_mem sound
      (fun d' listed => List.mem_singleton.mp listed ▸ stored) r member)
  obtain ⟨d', built⟩ := exists_ofRows_boardRows sound proper d
  obtain ⟨name, places, widgets⟩ := Dashboard.ofRows_places built
  refine ⟨d', ?_, Dashboard.ofRows_ok built, name, ?_, ?_⟩
  · rw [dashboard_of_reads sound stored reads]
    exact mapError_eq_ok_iff.mpr built
  · rw [places]
    exact places_boardRows wellFormed (sound.proper proper)
  · intro p listed
    apply widgets
    exact (mem_present_iff wellFormed (sound.proper proper)).mpr ⟨p, listed, Or.inl rfl⟩

/-! ## Placing widgets -/

theorem sideOf_ofNat (n : UInt32) : sideOf (Int64.ofNat n.toNat) = n := by
  have small : n.toNat < UInt32.size := n.toNat_lt
  rw [sideOf, Int64.toInt_ofNat_of_lt (Nat.lt_trans small (by decide)), Int.toNat_natCast,
    UInt32.ofNat_toNat]

theorem map_place_placement (id : String) (ps : List PlacedWidget) :
    (ps.map (placement id)).map Placement.place = ps.map fun p => (p.widget.id, p.layout) := by
  rw [List.map_map]
  apply List.map_congr_left
  intro p _
  simp only [Function.comp_apply, Placement.place, placement, sideOf_ofNat]

theorem placementsOn_append {id : String} (none : s.placementsOn id = []) (ps : List PlacedWidget) :
    placementsOn { s with placements := s.placements ++ ps.map (placement id) } id =
      ps.map (placement id) := by
  have new : (ps.map (placement id)).filter (fun p => p.dashboard == id) =
      ps.map (placement id) := by
    rw [List.filter_eq_self]
    intro p member
    obtain ⟨q, _, rfl⟩ := List.mem_map.mp member
    simp [placement]
  rw [placementsOn, List.filter_append, new, ← placementsOn, none, List.nil_append]

theorem placementsOn_named (wellFormed : WellFormed s) {id : String} (new : id ∉ s.dashboardIds)
    (name : String) : (s.named id name).placementsOn id = [] := by
  refine List.filter_eq_nil_iff.mpr fun p member same => new ?_
  exact beq_iff_eq.mp same ▸ (wellFormed.placements p member).1

theorem placementsOn_cleared (id name : String) : (s.cleared id name).placementsOn id = [] := by
  refine List.filter_eq_nil_iff.mpr fun p member => ?_
  have other := (List.mem_filter.mp member).2
  simpa using other

theorem shows_of_createDashboard (sound : Sound supply Readable s)
    (proper : ∀ k, isNilUuid (supply k) = false) {d : Dashboard} {id : String} {s' : Store}
    (success : outcome (createDashboard supply d) s = (.ok id, s')) :
    s'.Shows id d.name d.places := by
  have after : Sound supply Readable s' := by
    have kept := (leads_createDashboard d s).store.1 sound
    rwa [success] at kept
  obtain ⟨id', s₁, issued, rest⟩ := outcome_bind_ok.mp success
  cases issued
  obtain ⟨_, s₂, added, rest⟩ := outcome_bind_ok.mp rest
  obtain ⟨new, rfl⟩ := addDashboard_ok (outcome_attempt_ok.mp added)
  obtain ⟨_, s₃, placed, rest⟩ := outcome_bind_ok.mp rest
  obtain ⟨_, rfl⟩ := addPlacements_ok (outcome_attempt_ok.mp placed)
  cases rest
  have none : (s.named (supply s.issued) d.name).placementsOn (supply s.issued) = [] :=
    placementsOn_named sound.wellFormed new d.name
  have places := (congrArg (List.map Placement.place) (placementsOn_append none d.widgets)).trans
    (map_place_placement _ _)
  convert shows_of_mem after proper (d := ⟨supply s.issued, d.name⟩) (by simp) using 1
  exact places.symm

theorem shows_of_editDashboard (sound : Sound supply Readable s)
    (proper : ∀ k, isNilUuid (supply k) = false) {d : Dashboard} {s' : Store}
    (success : outcome (editDashboard d) s = (.ok (), s')) : s'.Shows d.id d.name d.places := by
  have after : Sound supply Readable s' := by
    have kept := (leads_editDashboard d s).store.1 sound
    rwa [success] at kept
  have known : d.id ∈ s.dashboardIds := by
    rw [editDashboard_eq, outcome_require_ok] at success
    exact hasDashboard_iff.mp success.1
  obtain ⟨torn, whole⟩ := outcome_editDashboard known
  by_cases missing : s.Misplaces d
  · rw [torn missing] at success
    cases success
  · rw [whole missing] at success
    cases success
    have shows := shows_of_mem after proper (mem_dashboards_cleared known d.name)
    rwa [placesOn, placementsOn_append (placementsOn_cleared d.id d.name), map_place_placement]
      at shows

theorem exists_editDashboard {d : Dashboard} (known : d.id ∈ s.dashboardIds)
    (widgets : ∀ p ∈ d.places, p.1 ∈ s.widgetIds) :
    ∃ s', outcome (editDashboard d) s = (.ok (), s') ∧ s'.widgets = s.widgets := by
  have placeable : ¬ s.Misplaces d := by
    rintro ⟨p, placed, absent⟩
    exact absent (widgets _ (List.mem_map_of_mem placed))
  exact ⟨_, (outcome_editDashboard known).2 placeable, rfl⟩

theorem shown_congr {s' : Store} (same : s'.widgets = s.widgets) (places : List (String × Layout)) :
    s'.shown places = s.shown places := by
  unfold shown isShown Under
  rw [same]

theorem mem_of_mem_shown {places : List (String × Layout)} {p : String × Layout}
    (member : p ∈ s.shown places) : p ∈ places :=
  mem_of_mem_firstsBy _ (List.mem_filter.mp member).1

/-- Nothing is left out of places of different widgets of which none is below another. -/
theorem shown_eq_self {places : List (String × Layout)} (distinct : (places.map Prod.fst).Nodup)
    (apart : ∀ p ∈ places, ∀ q ∈ places, ¬ s.Under p.1 q.1) : s.shown places = places := by
  rw [shown, firstsBy_of_nodup Prod.fst distinct, List.filter_eq_self]
  exact fun p member => isShown_iff.mpr (apart p member)

theorem shown_shown (places : List (String × Layout)) :
    s.shown (s.shown places) = s.shown places := by
  apply shown_eq_self
  · exact (nodup_keys_firstsBy Prod.fst places).sublist (List.filter_sublist.map _)
  · intro p member q listed
    exact isShown_iff.mp (List.mem_filter.mp member).2 q (mem_of_mem_shown listed)

/-- After a dashboard is created or edited in a store that calls have led to, it is found with its
name and all the widgets placed on it: at the top level, in order and with their layouts, the first
place of each widget that is below no other placed one.  To write back what was read loses no place
that is shown. -/
theorem dashboards_keepPlaces (supply : Nat → String) (fresh : Function.Injective supply)
    (proper : ∀ k, isNilUuid (supply k) = false) (calls : List Call)
    (readable : ∀ c ∈ calls, ∀ j ∈ c.documents, Readable j.compact) :
    (∀ (d : Dashboard) (id : String) (s' : Store),
      outcome (createDashboard supply d) (run supply calls) = (.ok id, s') →
        s'.Shows id d.name d.places) ∧
    (∀ (d : Dashboard) (s' : Store),
      outcome (editDashboard d) (run supply calls) = (.ok (), s') → s'.Shows d.id d.name d.places) ∧
    ∀ id ∈ (run supply calls).dashboardIds, ∃ d s' d', (run supply calls).dashboard id = .ok d ∧
      outcome (editDashboard d) (run supply calls) = (.ok (), s') ∧
        s'.dashboard id = .ok d' ∧ d'.name = d.name ∧ d'.places = d.places := by
  have sound := sound_run fresh calls readable
  generalize run supply calls = s at sound ⊢
  refine ⟨fun d id s' success => shows_of_createDashboard sound proper success,
    fun d s' success => shows_of_editDashboard sound proper success, fun id known => ?_⟩
  obtain ⟨old, stored, rfl⟩ := List.mem_map.mp known
  obtain ⟨d, read, is, _, places, _⟩ := shows_of_mem sound proper stored
  obtain ⟨s', written, same⟩ := exists_editDashboard (d := d) (is ▸ known) fun p member => by
    rw [places] at member
    obtain ⟨q, listed, rfl⟩ := List.mem_map.mp (mem_of_mem_shown member)
    exact (sound.wellFormed.placements q (List.mem_filter.mp listed).1).2
  obtain ⟨d', again, _, name, places', _⟩ := shows_of_editDashboard sound proper written
  refine ⟨d, s', d', read, written, is ▸ again, name, ?_⟩
  rw [places', shown_congr same, places, shown_shown]

theorem isNilUuid_letters (k : Nat) : isNilUuid (letters k) = false := by
  have list : (letters k).toList = 'a' :: List.replicate k 'a' := by
    simp [letters, List.replicate_succ]
  obtain ⟨rest, zeros⟩ : ∃ rest, noWidgetId.toList = '0' :: rest := ⟨_, rfl⟩
  have word : dropWord? "urn:uuid:" ('a' :: List.replicate k 'a') = none := by
    have length : "urn:uuid:".length = 8 + 1 := rfl
    rw [dropWord?, if_neg]
    intro same
    have lists := congrArg String.toList same
    rw [length, List.take_succ_cons] at lists
    simp at lists
  simp [isNilUuid, list, word, zeros, List.replicate_succ]

/-- A widget with another one in it, and a third one. -/
def boardCalls : List Call :=
  [.createWidget
      { name := "outer", kind := "row", children := [{ name := "inner", kind := "chart" }] },
    .createWidget { name := "other", kind := "text" }]

/-- A dashboard that places the inner widget beside the outer one, and the third one twice. -/
def board : Dashboard :=
  { name := "board"
    widgets := [⟨{ id := "aaa", name := "", kind := "" }, { x := 1, w := 4 }⟩,
      ⟨{ id := "aa", name := "", kind := "" }, { x := 2, w := 4 }⟩,
      ⟨{ id := "a", name := "", kind := "" }, { x := 3, w := 4 }⟩,
      ⟨{ id := "aaa", name := "", kind := "" }, { x := 4, w := 4 }⟩] }

theorem dashboards_keepPlaces_board :
    (∃ s', outcome (createDashboard letters board) (run letters boardCalls) = (.ok "aaaa", s') ∧
      s'.Shows "aaaa" "board" board.places) ∧
    ∃ d s' d', (run letters (boardCalls ++ [.createDashboard board])).dashboard "aaaa" = .ok d ∧
      outcome (editDashboard d) (run letters (boardCalls ++ [.createDashboard board])) =
          (.ok (), s') ∧
        s'.dashboard "aaaa" = .ok d' ∧ d'.places = d.places := by
  obtain ⟨creates, _, _⟩ := dashboards_keepPlaces letters letters_injective isNilUuid_letters
    boardCalls (by simp [boardCalls, Call.documents, Widget.documents, Widget.documentsList])
  obtain ⟨_, _, writes⟩ := dashboards_keepPlaces letters letters_injective isNilUuid_letters
    (boardCalls ++ [.createDashboard board])
    (by simp [boardCalls, Call.documents, Widget.documents, Widget.documentsList])
  have known : (run letters (boardCalls ++ [.createDashboard board])).dashboardIds = ["aaaa"] := rfl
  obtain ⟨d, s', d', read, written, again, _, places⟩ := writes "aaaa" (by simp [known])
  exact ⟨⟨_, rfl, creates board "aaaa" _ rfl⟩, d, s', d', read, written, again, places⟩

/-- What is read of that dashboard: the second place of a widget is not shown, and the inner widget
has none of its own. -/
def shownBoard : Dashboard :=
  { id := "aaaa", name := "board"
    widgets := [⟨{ id := "aaa", name := "other", kind := "text" }, { x := 1, w := 4 }⟩,
      ⟨{ id := "a", name := "outer", kind := "row",
         children := [{ id := "aa", name := "inner", kind := "chart" }] }, { x := 3, w := 4 }⟩] }

theorem board_losesPlaces : ∃ s' s'',
    outcome (createDashboard letters board) (run letters boardCalls) = (.ok "aaaa", s') ∧
      s'.placesOn "aaaa" = board.places ∧ s'.dashboard "aaaa" = .ok shownBoard ∧
      shownBoard.places ≠ board.places ∧ outcome (editDashboard shownBoard) s' = (.ok (), s'') ∧
      s''.placesOn "aaaa" = shownBoard.places := by
  refine ⟨_, _, rfl, ?_, ?_, ?_, rfl, ?_⟩
  · decide +kernel
  · cbv
  · simp [shownBoard, board, Dashboard.places]
  · decide +kernel

end Store

end QueryBoard
