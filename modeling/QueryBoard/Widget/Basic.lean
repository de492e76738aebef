import QueryBoard.Json.Basic

/-!
# Widgets and dashboards

A widget has a type, free data of its own, and further widgets inside it.  A dashboard places
top-level widgets on a grid; where nested widgets go is up to the widget around them.
-/

set_option autoImplicit false

namespace QueryBoard

structure Widget where
  id : String := ""
  name : String
  kind : String
  children : List Widget := []
  props : Option Json := none
  query : Option Json := none
deriving Repr, Inhabited

namespace Widget

mutual

def count : Widget → Nat
  | ⟨_, _, _, children, _, _⟩ => countList children + 1

def countList : List Widget → Nat
  | [] => 0
  | w :: rest => w.count + countList rest

end

end Widget

/-- A rectangle on the grid of a dashboard. -/
structure Layout where
  x : UInt32 := 0
  y : UInt32 := 0
  w : UInt32 := 0
  h : UInt32 := 0
deriving DecidableEq, Repr, Inhabited

structure PlacedWidget where
  widget : Widget
  layout : Layout
deriving Repr, Inhabited

structure Dashboard where
  id : String := ""
  name : String
  widgets : List PlacedWidget := []
deriving Repr, Inhabited

end QueryBoard
