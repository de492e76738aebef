import QueryBoard.Json.Decode
import QueryBoard.Store.Basic
import QueryBoard.Store.Closure
import QueryBoard.Widget.Rows

/-!
# Reading widgets and dashboards

All rows for an answer are read before one of their documents is looked at.  A dashboard shows the
widgets that are placed on it and all that is below them; what is not placed itself has no extent.
-/

set_option autoImplicit false

namespace QueryBoard

def readDocument (text : Option String) : Except StoreError (Option Json) :=
  match text with
  | none => .ok none
  | some text =>
    match Json.parse? text with
    | some j => .ok (some j.dedup)
    | none => .error .document

def StoredWidget.read (r : StoredWidget) : Except StoreError WidgetRow := do
  return {
    id := r.id, name := r.name, kind := r.kind
    props := ← readDocument r.props
    query := ← readDocument r.query
    parent := r.parent }

def readWidgets (rows : List StoredWidget) : Except StoreError (List Widget) := do
  (buildWidgets (← rows.mapM StoredWidget.read)).mapError .tree

/-- The widget with an id, from its row and those of all that is below it. -/
def readWidget (rows : List StoredWidget) (id : String) : Except StoreError Widget := do
  (buildWidget (← rows.mapM StoredWidget.read) id).mapError .ofTree

/-- A widget on a dashboard, its documents not looked at yet. -/
structure LoadedRow where
  dashboard : StoredDashboard
  widget : StoredWidget
  layout : Layout
deriving DecidableEq, Repr

def LoadedRow.read (r : LoadedRow) : Except StoreError DashboardRow := do
  return {
    dashboardId := r.dashboard.id, dashboardName := r.dashboard.name
    widget := ← r.widget.read, layout := r.layout }

def readDashboards (rows : List LoadedRow) : Except StoreError (List Dashboard) := do
  (buildDashboards (← rows.mapM LoadedRow.read)).mapError .tree

def readDashboard (rows : List LoadedRow) (id : String) : Except StoreError Dashboard := do
  (buildDashboard (← rows.mapM LoadedRow.read) id).mapError .ofTree

/-- A dashboard with one of its widgets, or with none. -/
structure PlacedRow where
  dashboard : StoredDashboard
  widget : Option StoredWidget
  x : Int64 := 0
  y : Int64 := 0
  w : Int64 := 0
  h : Int64 := 0
deriving DecidableEq, Repr

namespace PlacedRow

/-- Whether one row is that of a widget right below the widget of another, on the same dashboard. -/
def follows (a b : PlacedRow) : Bool :=
  a.dashboard == b.dashboard &&
    match a.widget, b.widget with
    | some v, some w => w.parent == some v.id
    | _, _ => false

/-- A side of the layout, which is in a column with a number. -/
def side (column : Nat) (n : Int64) : Except StoreError UInt32 :=
  if 0 ≤ n.toInt ∧ n.toInt < UInt32.size then .ok (UInt32.ofNat n.toInt.toNat)
  else .error (.database (.outOfRange n.toInt column))

def layout (r : PlacedRow) : Except StoreError Layout := do
  return { x := ← side 8 r.x, y := ← side 9 r.y, w := ← side 10 r.w, h := ← side 11 r.h }

/-- The row of a dashboard without a widget has the id of no widget. -/
def load (r : PlacedRow) : Except StoreError LoadedRow := do
  return {
    dashboard := r.dashboard
    widget := r.widget.getD { id := noWidgetId, name := "", kind := "" }
    layout := ← r.layout }

end PlacedRow

namespace Store

/-- The rows of a widget and of all that is below it. -/
def widgetRows (s : Store) (id : String) : List StoredWidget :=
  closure (fun a b => b.parent == some a.id) s.widgets (s.widgets.filter (·.id == id))

/-- Every widget that is in no other one. -/
def allWidgets (s : Store) : Except StoreError (List Widget) := readWidgets s.widgets

def widget (s : Store) (id : String) : Except StoreError Widget := readWidget (s.widgetRows id) id

/-- The rows for the placements on a dashboard, or one without a widget if there are none. -/
def placedRows (s : Store) (d : StoredDashboard) : List PlacedRow :=
  match s.placements.filter (·.dashboard == d.id) with
  | [] => [{ dashboard := d, widget := none }]
  | ps => ps.map fun p =>
    { dashboard := d, widget := s.widgets.find? (·.id == p.widget)
      x := p.x, y := p.y, w := p.w, h := p.h }

/-- The rows for the placements on dashboards and for all widgets below those. -/
def dashboardRows (s : Store) (ds : List StoredDashboard) : List PlacedRow :=
  let nested (d : StoredDashboard) : List PlacedRow :=
    (s.widgets.filter (·.parent.isSome)).map fun w => { dashboard := d, widget := some w }
  closure PlacedRow.follows (ds.flatMap nested) (ds.flatMap s.placedRows)

def allDashboards (s : Store) : Except StoreError (List Dashboard) := do
  readDashboards (← (s.dashboardRows s.dashboards).mapM PlacedRow.load)

def dashboard (s : Store) (id : String) : Except StoreError Dashboard := do
  readDashboard (← (s.dashboardRows (s.dashboards.filter (·.id == id))).mapM PlacedRow.load) id

end Store

end QueryBoard
