import QueryBoard.Sql.Write
import QueryBoard.Store.Basic
import QueryBoard.Widget.Rows

/-!
# The statements of the store

The queries by which widgets and dashboards are read from the tables of a database, and the
statements by which their rows are changed.  What is below a widget is found by recursion: a row
gives rise to the rows of the widgets that name it as parent.
-/

set_option autoImplicit false

namespace QueryBoard.Store

open Sql (Expr)

def widgetTable : String := "widget"

def dashboardTable : String := "dashboard"

def placementTable : String := "dashboard_widget"

def widgetColumns : List String := ["id", "name", "type", "props", "query", "parent_id"]

def item (table column : String) (label : Option String) : Sql.SelectItem :=
  ⟨.tableCol table column, label⟩

def idParam (id : String) : Expr := .param (.str id)

def widgetBlock : Sql.Select :=
  { items := widgetColumns.map fun c => item widgetTable c none
    source := some ⟨widgetTable, none⟩ }

def widgetsQuery : Sql.Query := { body := widgetBlock }

def subtreeQuery (id : String) : Sql.Query :=
  let name := "subtree"
  let first := { widgetBlock with filters := [(Expr.tableCol widgetTable "id").eq (idParam id)] }
  let next := { widgetBlock with
    joins := [⟨.inner, ⟨name, none⟩,
      (Expr.tableCol widgetTable "parent_id").eq (.tableCol name "id")⟩] }
  { ctes := [(name, true, { body := first, unions := [{ body := next }] })]
    body :=
      { items := widgetColumns.map fun c => ⟨.col c, none⟩
        source := some ⟨name, none⟩ } }

def layoutColumns : List String := ["x", "y", "w", "h"]

/-- The placements on dashboards, each with its widget; a dashboard without placements has one row,
and so has a placement without a widget. -/
def placementBlock (dashboard : Option String) : Sql.Select :=
  { items :=
      [item "d" "id" "d_id", item "d" "name" "d_name", item "w" "id" "w_id",
        item "w" "name" "w_name", item "w" "type" "w_type", item "w" "parent_id" "parent_id",
        item "w" "props" "props", item "w" "query" "query"] ++
      layoutColumns.map fun c => item "dw" c c
    source := some ⟨dashboardTable, some "d"⟩
    joins :=
      [⟨.left, ⟨placementTable, some "dw"⟩,
          (Expr.tableCol "dw" "dashboard_id").eq (.tableCol "d" "id")⟩,
        ⟨.left, ⟨widgetTable, some "w"⟩, (Expr.tableCol "w" "id").eq (.tableCol "dw" "widget_id")⟩]
    filters := dashboard.toList.map fun id => (Expr.tableCol "d" "id").eq (idParam id) }

/-- The widgets right below those of rows, on the same dashboard and without an extent. -/
def nestedBlock (rows : String) : Sql.Select :=
  { items :=
      [item "p" "d_id" none, item "p" "d_name" none] ++
      ["id", "name", "type", "parent_id", "props", "query"].map (fun c => item "w" c none) ++
      layoutColumns.map fun _ => ⟨.literal (.int 0), none⟩
    source := some ⟨widgetTable, some "w"⟩
    joins := [⟨.inner, ⟨rows, some "p"⟩,
      (Expr.tableCol "p" "w_id").eq (.tableCol "w" "parent_id")⟩] }

/-- The rows of every dashboard, or of the one with an id.  What is missing for want of a widget is
filled in: the id of no widget, empty texts and zeros. -/
def dashboardsQuery (dashboard : Option String) : Sql.Query :=
  let name := "placed"
  let filled (column : String) (l : Sql.Literal) : Expr :=
    .coalesce [.col column, .literal l]
  let first : Sql.Query :=
    { body := placementBlock dashboard, unions := [{ body := nestedBlock name }] }
  { ctes := [(name, true, first)]
    body :=
      { items := ([.col "d_id", .col "d_name", filled "w_id" (.str noWidgetId),
            filled "w_name" (.str ""), filled "w_type" (.str ""), .col "parent_id",
            .col "props", .col "query"] ++
          layoutColumns.map fun c => filled c (.int 0)).map fun e => ⟨e, none⟩
        source := some ⟨name, none⟩ } }

/-! ## Changes -/

def textParam (text : Option String) : Expr := .param ((text.map Value.str).getD .null)

/-- The condition that a column holds an id. -/
def isId (column id : String) : Expr := (Expr.col column).eq (idParam id)

def widgetInsert (r : StoredWidget) : Sql.Insert :=
  { table := widgetTable, columns := widgetColumns
    rows := [[idParam r.id, .param (.str r.name), .param (.str r.kind), textParam r.props,
      textParam r.query, textParam r.parent]] }

/-- Gives a widget another name, another kind and other documents. -/
def widgetUpdate (r : StoredWidget) : Sql.Update :=
  { table := widgetTable
    assignments := [("name", .param (.str r.name)), ("type", .param (.str r.kind)),
      ("props", textParam r.props), ("query", textParam r.query)]
    filters := [isId "id" r.id] }

/-- Removes the stored children of a widget that are not among the kept ones.  Each of these is a
parameter of the statement. -/
def staleDelete (parent : String) (kept : List String) : Sql.Delete :=
  { table := widgetTable
    filters := [(isId "parent_id" parent).and (.member true (.col "id") (kept.map idParam))] }

def widgetDelete (id : String) : Sql.Delete := { table := widgetTable, filters := [isId "id" id] }

def dashboardInsert (r : StoredDashboard) : Sql.Insert :=
  { table := dashboardTable, columns := ["id", "name"]
    rows := [[idParam r.id, .param (.str r.name)]] }

def dashboardUpdate (r : StoredDashboard) : Sql.Update :=
  { table := dashboardTable, assignments := [("name", .param (.str r.name))]
    filters := [isId "id" r.id] }

def dashboardDelete (id : String) : Sql.Delete :=
  { table := dashboardTable, filters := [isId "id" id] }

/-- Puts widgets on dashboards, all in one statement. -/
def placementInsert (ps : List Placement) : Sql.Insert :=
  { table := placementTable, columns := ["dashboard_id", "widget_id"] ++ layoutColumns
    rows := ps.map fun p => [idParam p.dashboard, idParam p.widget, .param (.int p.x),
      .param (.int p.y), .param (.int p.w), .param (.int p.h)] }

def placementDelete (dashboard : String) : Sql.Delete :=
  { table := placementTable, filters := [isId "dashboard_id" dashboard] }

end QueryBoard.Store
