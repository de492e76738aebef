import QueryBoard.Db.Limit
import QueryBoard.Store.Closure
import QueryBoard.Store.Error
import QueryBoard.Widget.Basic

/-!
# The rows of the store

The store keeps widgets, dashboards, and the places of widgets on dashboards, each in the order of
insertion.  A widget may name a parent among the widgets.  Ids of widgets and of dashboards are
unique, and a parent or a placement names what is stored; a change that breaks one of these rules
is refused as a whole.  With a row goes all that names it: below a widget its children, and the
placements of widgets and dashboards.
-/

set_option autoImplicit false

namespace QueryBoard

open Db (DbError)

/-- A widget with its documents as JSON texts. -/
structure StoredWidget where
  id : String
  name : String
  kind : String
  props : Option String := none
  query : Option String := none
  parent : Option String := none
deriving DecidableEq, Repr

structure StoredDashboard where
  id : String
  name : String
deriving DecidableEq, Repr

/-- A widget on a dashboard.  The numbers of its layout may be any that can be stored. -/
structure Placement where
  dashboard : String
  widget : String
  x : Int64
  y : Int64
  w : Int64
  h : Int64
deriving DecidableEq, Repr

structure Store where
  widgets : List StoredWidget := []
  dashboards : List StoredDashboard := []
  placements : List Placement := []
  /-- How many ids were given to new rows so far. -/
  issued : Nat := 0
deriving DecidableEq, Repr

namespace Store

def hasWidget (s : Store) (id : String) : Bool := s.widgets.any (·.id == id)

def hasDashboard (s : Store) (id : String) : Bool := s.dashboards.any (·.id == id)

/-! ## Insertions -/

/-- Adds a widget.  It may be its own parent. -/
def addWidget (s : Store) (row : StoredWidget) : Except DbError Store :=
  if s.hasWidget row.id then .error (.unique "widget" ["id"])
  else if row.parent.all fun p => p == row.id || s.hasWidget p then
    .ok { s with widgets := s.widgets ++ [row] }
  else .error .foreignKey

def addDashboard (s : Store) (row : StoredDashboard) : Except DbError Store :=
  if s.hasDashboard row.id then .error (.unique "dashboard" ["id"])
  else .ok { s with dashboards := s.dashboards ++ [row] }

/-- Adds placements, all or none of them. -/
def addPlacements (s : Store) (rows : List Placement) : Except DbError Store :=
  if rows.all fun p => s.hasDashboard p.dashboard && s.hasWidget p.widget then
    .ok { s with placements := s.placements ++ rows }
  else .error .foreignKey

/-! ## Changes -/

/-- Changes the row of a widget, if there is one, in its place. -/
def changeWidget (s : Store) (id : String) (change : StoredWidget → StoredWidget) : Store :=
  { s with widgets := s.widgets.map fun r => if r.id = id then change r else r }

def setParent (s : Store) (id : String) (parent : Option String) : Except DbError Store :=
  if s.hasWidget id && !parent.all s.hasWidget then .error .foreignKey
  else .ok (s.changeWidget id fun r => { r with parent })

def renameDashboard (s : Store) (id name : String) : Store :=
  { s with dashboards := s.dashboards.map fun r => if r.id = id then { r with name } else r }

/-! ## Removals -/

def isBelow (ids : List String) (r : StoredWidget) : Bool := r.parent.any ids.contains

/-- What stays of widgets when those with some ids are gone: in turn all go whose parent went. -/
def sweep (gone : List String) (rows : List StoredWidget) : List StoredWidget :=
  let split := rows.partition (isBelow gone)
  if split.1.isEmpty then rows else sweep (split.1.map (·.id)) split.2
termination_by rows.length
decreasing_by
  rename_i h
  have := length_partition (isBelow gone) rows
  simp only [split, List.isEmpty_iff, ← List.length_eq_zero_iff] at h ⊢
  omega

/-- How many times in turn some of the widgets go when those with some ids are gone. -/
def sweepDepth (gone : List String) (rows : List StoredWidget) : Nat :=
  let split := rows.partition (isBelow gone)
  if split.1.isEmpty then 0 else sweepDepth (split.1.map (·.id)) split.2 + 1
termination_by rows.length
decreasing_by
  rename_i h
  have := length_partition (isBelow gone) rows
  simp only [split, List.isEmpty_iff, ← List.length_eq_zero_iff] at h ⊢
  omega

/-- Removes the widgets that a condition picks out, all that is below them, and the placements of
what is gone. -/
def removeWidgets (s : Store) (picked : StoredWidget → Bool) : Store :=
  let gone := (s.widgets.filter picked).map (·.id)
  let kept := sweep gone (s.widgets.filter fun r => !picked r)
  { s with
    widgets := kept
    placements := s.placements.filter fun p => kept.any (·.id == p.widget) }

/-- Removes widgets like `removeWidgets`, unless too many of them lie one in the other. -/
def dropWidgets (s : Store) (picked : StoredWidget → Bool) : Except DbError Store := do
  let gone := (s.widgets.filter picked).map (·.id)
  Db.Limit.cascade.check (sweepDepth gone (s.widgets.filter fun r => !picked r) + 1)
  return s.removeWidgets picked

def clearDashboard (s : Store) (id : String) : Store :=
  { s with placements := s.placements.filter (·.dashboard != id) }

def removeDashboard (s : Store) (id : String) : Store :=
  { s.clearDashboard id with dashboards := s.dashboards.filter (·.id != id) }

end Store

end QueryBoard
