import QueryBoard.Json.Printer
import QueryBoard.Store.Basic
import QueryBoard.Store.Statements

/-!
# Storing widgets and dashboards

A call makes several changes, one after the other.  When one of them fails the call ends, and what
was changed before stays.  New rows get ids from a supply, of which the store counts how many it
has used.

An edit names all children that stay in one statement, and a database takes only so many parameters;
it also gives up a removal that goes through too many levels.  To delete a single widget is taken to
reach all that is below it.
-/

set_option autoImplicit false

namespace QueryBoard

namespace Store

open Db (DbError)

/-- A call on the store: it gives a result or an error, and in both cases a store. -/
abbrev Writing := ExceptT StoreError (StateM Store)

def attempt (change : Store → Except DbError Store) : Writing Unit := do
  match change (← get) with
  | .ok s => set s
  | .error e => throw (.database e)

def issue (supply : Nat → String) : Writing String := do
  let s ← get
  set { s with issued := s.issued + 1 }
  return supply s.issued

/-! ## Widgets -/

mutual

/-- Adds a widget and all that is in it under new ids, and returns the id of the widget. -/
def insertWidget (supply : Nat → String) (parent : Option String) : Widget → Writing String
  | ⟨_, name, kind, children, props, query⟩ => do
    let id ← issue supply
    attempt (·.addWidget
      { id, name, kind, props := props.map Json.compact, query := query.map Json.compact, parent })
    insertChildren supply id children
    return id

def insertChildren (supply : Nat → String) (parent : String) : List Widget → Writing Unit
  | [] => return
  | w :: rest => do
    let _ ← insertWidget supply (some parent) w
    insertChildren supply parent rest

end

def createWidget (supply : Nat → String) (w : Widget) : Writing String :=
  insertWidget supply none w

/-- Removes the stored children of a widget that are not among the kept ones. -/
def removeStale (parent : String) (kept : List String) : Writing Unit := do
  let statement := (staleDelete parent kept).tokens
  match Db.checkParamCount statement with
  | .error e => throw (.query e (statement.text .sqlite))
  | .ok () => attempt (·.dropWidgets fun r => r.parent == some parent && !kept.contains r.id)

mutual

/-- Changes a stored widget into the given one.  Stored children that are not among its own go. -/
def editWidget (supply : Nat → String) : Widget → Writing Unit
  | ⟨id, name, kind, children, props, query⟩ => do
    if !(← get).hasWidget id then throw (.notFound id)
    modify (·.changeWidget id fun r =>
      { r with name, kind, props := props.map Json.compact, query := query.map Json.compact })
    removeStale id (← editChildren supply id children)

def editChildren (supply : Nat → String) (parent : String) : List Widget → Writing (List String)
  | [] => return []
  | w :: rest => do
    let id ←
      if w.id.isEmpty then insertWidget supply (some parent) w
      else do
        -- The widget stays under its stored parent, whichever that is.
        editWidget supply w
        pure w.id
    return id :: (← editChildren supply parent rest)

end

def deleteWidget (id : String) : Writing Unit := do
  if !(← get).hasWidget id then throw (.notFound id)
  modify (·.removeWidgets (·.id == id))

/-! ## Dashboards -/

def placement (dashboard : String) (p : PlacedWidget) : Placement :=
  let side (n : UInt32) : Int64 := Int64.ofNat n.toNat
  { dashboard, widget := p.widget.id, x := side p.layout.x, y := side p.layout.y
    w := side p.layout.w, h := side p.layout.h }

/-- Stores a dashboard under a new id.  Its widgets have to be stored. -/
def createDashboard (supply : Nat → String) (d : Dashboard) : Writing String := do
  let id ← issue supply
  attempt (·.addDashboard { id, name := d.name })
  attempt (·.addPlacements (d.widgets.map (placement id)))
  return id

/-- Renames a stored dashboard and puts other widgets on it. -/
def editDashboard (d : Dashboard) : Writing Unit := do
  if !(← get).hasDashboard d.id then throw (.notFound d.id)
  modify (·.renameDashboard d.id d.name)
  modify (·.clearDashboard d.id)
  attempt (·.addPlacements (d.widgets.map (placement d.id)))

/-- Removes a dashboard.  Its widgets stay. -/
def deleteDashboard (id : String) : Writing Unit := do
  if !(← get).hasDashboard id then throw (.notFound id)
  modify (·.removeDashboard id)

end Store

end QueryBoard
