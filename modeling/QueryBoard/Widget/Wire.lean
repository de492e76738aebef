import QueryBoard.Json.Decode
import QueryBoard.Widget.Basic

/-!
# Widgets and dashboards as JSON

A placed widget is one flat object that holds the fields of the widget and of its layout.  It is
read twice, for the widget first, and has no array form; all other documents have one.
-/

set_option autoImplicit false

namespace QueryBoard

namespace Widget

/-- The fields read so far. -/
structure Slots where
  id : Option String := none
  name : Option String := none
  kind : Option String := none
  children : Option (List Widget) := none
  props : Option (Option Json) := none
  query : Option (Option Json) := none

def Slots.read (s : Slots) (entry : Document.Entry) : Decoded Slots :=
  match entry with
  | (some "id", d) => do return { s with id := ← Document.fill s.id Document.toText d }
  | (some "name", d) => do return { s with name := ← Document.fill s.name Document.toText d }
  | (some "type", d) => do return { s with kind := ← Document.fill s.kind Document.toText d }
  | (some "props", d) => do return { s with props := ← Document.fill s.props Document.toAny d }
  | (some "query", d) => do return { s with query := ← Document.fill s.query Document.toAny d }
  | entry => Document.skip s entry

def Slots.finish (s : Slots) : Decoded Widget := do
  return {
    id := s.id.getD ""
    name := ← Document.required "name" s.name
    kind := ← Document.required "type" s.kind
    children := s.children.getD []
    props := s.props.join
    query := s.query.join }

mutual

def ofDocument : Document → Decoded Widget
  | .obj entries => do (← readEntries {} entries).finish
  | .arr items => ofItems items
  | _ => .error .wrongShape

def readEntries : Slots → List (Option String × Document) → Decoded Slots
  | s, [] => .ok s
  | s, (key, d) :: rest => do
    let s ←
      if key = some "children" then
        match s.children with
        | some _ => throw .wrongShape
        | none => do pure { s with children := some (← ofDocumentChildren d) }
      else s.read (key, d)
    readEntries s rest

def ofItems : List Document → Decoded Widget
  | id :: name :: kind :: rest => do
    let id ← id.toText
    let name ← name.toText
    let kind ← kind.toText
    match rest with
    | [] => return { id, name, kind }
    | children :: rest => do
      let children ← ofDocumentChildren children
      let (props, query) ← Document.allItems (do
        let props ← Document.itemOr none Document.toAny
        let query ← Document.itemOr none Document.toAny
        return (props, query)) rest
      return { id, name, kind, children, props, query }
  | _ => .error .wrongShape

def ofDocumentChildren : Document → Decoded (List Widget)
  | .arr items => ofDocumentList items
  | _ => .error .wrongShape

def ofDocumentList : List Document → Decoded (List Widget)
  | [] => .ok []
  | d :: rest => do
    let w ← ofDocument d
    let ws ← ofDocumentList rest
    return w :: ws

end

def ofEntries (entries : List Document.Entry) : Decoded Widget := do
  (← readEntries {} entries).finish

mutual

def toJson : Widget → Json
  | ⟨id, name, kind, children, props, query⟩ =>
    .obj [("id", .str id), ("name", .str name), ("type", .str kind),
      ("children", .arr (toJsonList children)), ("props", props.getD .null),
      ("query", query.getD .null)]

def toJsonList : List Widget → List Json
  | [] => []
  | w :: rest => w.toJson :: toJsonList rest

end

end Widget

namespace Layout

structure Slots where
  x : Option UInt32 := none
  y : Option UInt32 := none
  w : Option UInt32 := none
  h : Option UInt32 := none

def Slots.read (s : Slots) (entry : Document.Entry) : Decoded Slots :=
  match entry with
  | (some "x", d) => do return { s with x := ← Document.fill s.x Document.toUInt32 d }
  | (some "y", d) => do return { s with y := ← Document.fill s.y Document.toUInt32 d }
  | (some "w", d) => do return { s with w := ← Document.fill s.w Document.toUInt32 d }
  | (some "h", d) => do return { s with h := ← Document.fill s.h Document.toUInt32 d }
  | entry => Document.skip s entry

def Slots.finish (s : Slots) : Decoded Layout := do
  return {
    x := ← Document.required "x" s.x
    y := ← Document.required "y" s.y
    w := ← Document.required "w" s.w
    h := ← Document.required "h" s.h }

def ofEntries (entries : List Document.Entry) : Decoded Layout := do
  (← entries.foldlM Slots.read {}).finish

def ofItems : List Document → Decoded Layout := Document.allItems do
  let x ← Document.item Document.toUInt32
  let y ← Document.item Document.toUInt32
  let w ← Document.item Document.toUInt32
  let h ← Document.item Document.toUInt32
  return { x, y, w, h }

def ofDocument : Document → Decoded Layout
  | .obj entries => ofEntries entries
  | .arr items => ofItems items
  | _ => .error .wrongShape

def toFields (l : Layout) : List (String × Json) :=
  [("x", .int l.x.toNat), ("y", .int l.y.toNat), ("w", .int l.w.toNat), ("h", .int l.h.toNat)]

def toJson (l : Layout) : Json := .obj l.toFields

end Layout

namespace PlacedWidget

def ofDocument : Document → Decoded PlacedWidget
  | .obj entries => do
    entries.forM (Document.keep ())
    let widget ← Widget.ofEntries entries
    let layout ← Layout.ofEntries entries
    return { widget, layout }
  | _ => .error .wrongShape

def toJson (p : PlacedWidget) : Json :=
  match p.widget.toJson with
  | .obj fields => .obj (fields ++ p.layout.toFields)
  | j => j

end PlacedWidget

namespace Dashboard

structure Slots where
  id : Option String := none
  name : Option String := none
  widgets : Option (List PlacedWidget) := none

def Slots.read (s : Slots) (entry : Document.Entry) : Decoded Slots :=
  match entry with
  | (some "id", d) => do return { s with id := ← Document.fill s.id Document.toText d }
  | (some "name", d) => do return { s with name := ← Document.fill s.name Document.toText d }
  | (some "widgets", d) => do
    let read := Document.toList PlacedWidget.ofDocument
    return { s with widgets := ← Document.fill s.widgets read d }
  | entry => Document.skip s entry

def Slots.finish (s : Slots) : Decoded Dashboard := do
  return {
    id := s.id.getD ""
    name := ← Document.required "name" s.name
    widgets := s.widgets.getD [] }

def ofItems : List Document → Decoded Dashboard := Document.allItems do
  let id ← Document.item Document.toText
  let name ← Document.item Document.toText
  let widgets ← Document.itemOr [] (Document.toList PlacedWidget.ofDocument)
  return { id, name, widgets }

def ofDocument : Document → Decoded Dashboard
  | .obj entries => do (← entries.foldlM Slots.read {}).finish
  | .arr items => ofItems items
  | _ => .error .wrongShape

def toJson (d : Dashboard) : Json :=
  .obj [("id", .str d.id), ("name", .str d.name),
    ("widgets", .arr (d.widgets.map PlacedWidget.toJson))]

end Dashboard

end QueryBoard
