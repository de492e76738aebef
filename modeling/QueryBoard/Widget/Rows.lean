import QueryBoard.Hierarchy.Arena
import QueryBoard.Widget.Basic

/-!
# Widgets and dashboards from flat rows

Storage returns one row per widget, and for dashboards one row per dashboard and widget.  These
functions put the rows together: children stand in the order of their rows, a widget that occurs
more than once counts with its first row, and dashboards stand in the order of their first rows.
-/

set_option autoImplicit false

namespace QueryBoard

/-- A stored widget with the id of the widget around it. -/
structure WidgetRow where
  id : String
  name : String
  kind : String := ""
  props : Option Json := none
  query : Option Json := none
  parent : Option String := none
deriving Repr

def WidgetRow.widget (r : WidgetRow) : Widget :=
  { id := r.id, name := r.name, kind := r.kind, props := r.props, query := r.query }

def Widget.withChildren (w : Widget) (children : List Widget) : Widget := { w with children }

open Hierarchy

/-- The widgets without parent, each with all that is below it. -/
def buildWidgets (rows : List WidgetRow) : Except TreeError (List Widget) := do
  let nodes := Nodes.ofList (rows.map fun r => ⟨r.id, r.parent, r.widget⟩)
  (← nodes.link).foldRoots Widget.withChildren

/-- The widget with an id and all that is below it.  Its own parent need not be among the rows. -/
def buildWidget (rows : List WidgetRow) (id : String) : Except TreeError Widget := do
  let nodes := Nodes.ofList
    (rows.map fun r => ⟨r.id, if r.id = id then none else r.parent, r.widget⟩)
  (← nodes.link).foldSubtree id Widget.withChildren

structure DashboardRow where
  dashboardId : String
  dashboardName : String
  widget : WidgetRow
  layout : Layout
deriving Repr

/-- The widget id in the row of a dashboard that has no widget. -/
def noWidgetId : String := "00000000-0000-0000-0000-000000000000"

/-- The characters without the given word in front of them, in lower-case ASCII. -/
def dropWord? (word : String) (cs : List Char) : Option (List Char) :=
  let n := word.length
  if String.ofList ((cs.take n).map Char.toLower) = word then some (cs.drop n) else none

/-- Whether a text is the nil UUID: 32 hexadecimal zeros, or the same with four hyphens, the
latter also between braces or after `urn:uuid:`. -/
def isNilUuid (s : String) : Bool :=
  let hyphenated (cs : List Char) := cs = noWidgetId.toList
  let cs := s.toList
  cs = List.replicate 32 '0' || hyphenated cs ||
    (cs.head? = some '\x7b' && cs.getLast? = some '\x7d' && hyphenated (cs.drop 1).dropLast) ||
    (match dropWord? "urn:uuid:" cs with
      | some cs => hyphenated cs
      | none => false)

/-- Puts a dashboard together from the rows of its widgets.  A widget whose parent is not on the
dashboard is at the top level. -/
def Dashboard.ofRows (id name : String) (rows : List DashboardRow) : Except TreeError Dashboard := do
  let present := rows.map (·.widget.id)
  let nodes := Nodes.ofList (rows.map fun r =>
    ⟨r.widget.id, r.widget.parent.filter (· ∈ present),
      (⟨r.widget.widget, r.layout⟩ : PlacedWidget)⟩)
  let nest (p : PlacedWidget) (children : List PlacedWidget) : PlacedWidget :=
    { p with widget := p.widget.withChildren (children.map (·.widget)) }
  return { id, name, widgets := ← (← nodes.link).foldRoots nest }

/-- A dashboard with the rows of its widgets that have been met so far, the latest first. -/
structure DashboardGroup where
  id : String
  name : String
  rows : List DashboardRow := []
deriving Repr

namespace DashboardGroup

/-- Takes in a row of the dashboard, which counts if it has a widget. -/
def add (g : DashboardGroup) (r : DashboardRow) : DashboardGroup :=
  bif isNilUuid r.widget.id then g else { g with rows := r :: g.rows }

/-- Takes a row into the group of its dashboard, or into a new group behind all others. -/
def collect (r : DashboardRow) : List DashboardGroup → List DashboardGroup
  | [] => [add { id := r.dashboardId, name := r.dashboardName } r]
  | g :: rest => if g.id = r.dashboardId then g.add r :: rest else g :: collect r rest

/-- The groups of the dashboards that have a row, in the order of their first rows. -/
def ofRows (rows : List DashboardRow) : List DashboardGroup :=
  rows.foldl (fun groups r => collect r groups) []

def assemble (g : DashboardGroup) : Except TreeError Dashboard :=
  Dashboard.ofRows g.id g.name g.rows.reverse

end DashboardGroup

def buildDashboards (rows : List DashboardRow) : Except TreeError (List Dashboard) :=
  (DashboardGroup.ofRows rows).mapM DashboardGroup.assemble

def buildDashboard (rows : List DashboardRow) (id : String) : Except TreeError Dashboard := do
  match ← buildDashboards (rows.filter (·.dashboardId == id)) with
  | d :: _ => return d
  | [] => throw (.notFound id)

end QueryBoard
