import QueryBoard.Proofs.Hierarchy.Dashboards
import QueryBoard.Proofs.Store.Closure
import QueryBoard.Proofs.Store.Preservation
import QueryBoard.Store.Read

/-!
# Reading what runs have stored

After any run of calls the widgets and the dashboards can be read, if the documents that were stored
can: every stored widget is found once in the forest of widgets, and every dashboard once in the
list of dashboards.
-/

set_option autoImplicit false

namespace QueryBoard

open Hierarchy

/-! ## Documents -/

def Readable (text : String) : Prop := (Json.parse? text).isSome = true

theorem exists_readDocument {text : Option String} (readable : ∀ t, text = some t → Readable t) :
    ∃ d, readDocument text = .ok d := by
  cases text with
  | none => exact ⟨none, rfl⟩
  | some t =>
      obtain ⟨j, parsed⟩ := Option.isSome_iff_exists.mp (readable t rfl)
      exact ⟨some j.dedup, by rw [readDocument, parsed]⟩

namespace StoredWidget

theorem exists_read {r : StoredWidget}
    (readable : ∀ text, r.props = some text ∨ r.query = some text → Readable text) :
    ∃ row, r.read = .ok row := by
  obtain ⟨props, readProps⟩ := exists_readDocument fun t given => readable t (Or.inl given)
  obtain ⟨query, readQuery⟩ := exists_readDocument fun t given => readable t (Or.inr given)
  exact ⟨_, bind_eq_ok_iff.mpr ⟨props, readProps, bind_eq_ok_iff.mpr ⟨query, readQuery, rfl⟩⟩⟩

theorem read_ok (r : StoredWidget) (row : WidgetRow) (success : r.read = .ok row) :
    row.id = r.id ∧ row.parent = r.parent := by
  obtain ⟨props, _, rest⟩ := bind_eq_ok_iff.mp success
  obtain ⟨query, _, same⟩ := bind_eq_ok_iff.mp rest
  cases same
  exact ⟨rfl, rfl⟩

end StoredWidget

/-! ## Widgets -/

/-- Rows with distinct ids whose parents are among them and end somewhere are a forest. -/
theorem exists_buildWidgets {rows : List WidgetRow} (distinct : (rows.map fun r => r.id).Nodup)
    (known : ∀ r ∈ rows, ∀ p, r.parent = some p → p ∈ rows.map fun r => r.id)
    (grounded : ∀ r ∈ rows, Grounded (rows.map fun r => (r.id, r.parent)) r.id) :
    ∃ ws, buildWidgets rows = .ok ws := by
  have ids : (rows.map WidgetRow.node).map Node.id = rows.map fun r => r.id := by
    rw [List.map_map]
    rfl
  have all : firsts (rows.map WidgetRow.node) = rows.map WidgetRow.node :=
    firsts_eq_self (by rw [ids]; exact distinct)
  have ends : links (rows.map WidgetRow.node) = rows.map fun r => (r.id, r.parent) := by
    rw [links, List.map_map]
    rfl
  obtain ⟨a, ws, linked, folded⟩ := exists_foldRoots (rows.map WidgetRow.node) Widget.withChildren
    (by
      rw [all, ids]
      intro n member parent given
      obtain ⟨r, inside, rfl⟩ := List.mem_map.mp member
      exact known r inside parent given)
    (by
      rw [all, ends]
      intro n member
      obtain ⟨r, inside, rfl⟩ := List.mem_map.mp member
      exact grounded r inside)
  exact ⟨ws, bind_eq_ok_iff.mpr ⟨a, linked, folded⟩⟩

namespace Store

/-! ## Rows of dashboards -/

/-- What a row for a dashboard holds: a widget of the store or none, and numbers that can be
read. -/
structure Loadable (s : Store) (r : PlacedRow) : Prop where
  dashboard : r.dashboard ∈ s.dashboards
  widget : ∀ w, r.widget = some w → w ∈ s.widgets
  sides : ∀ n ∈ [r.x, r.y, r.w, r.h], 0 ≤ n.toInt ∧ n.toInt < UInt32.size

variable {supply : Nat → String} {texts : String → Prop} {s : Store}

theorem loadable_of_mem (sound : Sound supply texts s) {ds : List StoredDashboard}
    (known : ∀ d ∈ ds, d ∈ s.dashboards) : ∀ r ∈ s.dashboardRows ds, Loadable s r := by
  intro r member
  rcases mem_of_mem_closure _ member with member | member
  · obtain ⟨d, among, member⟩ := List.mem_flatMap.mp member
    obtain ⟨w, inside, rfl⟩ := List.mem_map.mp member
    refine ⟨known d among, fun w' same => ?_, by simp⟩
    cases same
    exact (List.mem_filter.mp inside).1
  · obtain ⟨d, among, member⟩ := List.mem_flatMap.mp member
    unfold placedRows at member
    split at member
    · rw [List.mem_singleton.mp member]
      exact ⟨known d among, by simp, by simp⟩
    · obtain ⟨p, inside, rfl⟩ := List.mem_map.mp member
      refine ⟨known d among, fun w found => List.mem_of_find?_eq_some found, ?_⟩
      exact sound.sides p (List.mem_filter.mp inside).1

theorem exists_row (s : Store) {d : StoredDashboard} (stored : d ∈ s.dashboards) :
    ∃ r ∈ s.dashboardRows s.dashboards, r.dashboard = d := by
  have placed : ∃ r ∈ s.placedRows d, r.dashboard = d := by
    unfold placedRows
    split
    · exact ⟨_, List.mem_singleton_self _, rfl⟩
    · next some =>
      cases listed : s.placements.filter (·.dashboard == d.id) with
      | nil => exact absurd listed some
      | cons p ps => exact ⟨_, List.mem_map_of_mem List.mem_cons_self, rfl⟩
  obtain ⟨r, member, same⟩ := placed
  exact ⟨r, mem_closure_of_mem _ (List.mem_flatMap.mpr ⟨d, stored, member⟩), same⟩

/-! ## Loading rows -/

theorem exists_side {n : Int64} (small : 0 ≤ n.toInt ∧ n.toInt < UInt32.size) (column : Nat) :
    ∃ side, PlacedRow.side column n = .ok side := by
  unfold PlacedRow.side
  rw [if_pos small]
  exact ⟨_, rfl⟩

theorem exists_load {r : PlacedRow} (loadable : Loadable s r) : ∃ l, r.load = .ok l := by
  obtain ⟨x, readX⟩ := exists_side (loadable.sides r.x (by simp)) 8
  obtain ⟨y, readY⟩ := exists_side (loadable.sides r.y (by simp)) 9
  obtain ⟨w, readW⟩ := exists_side (loadable.sides r.w (by simp)) 10
  obtain ⟨h, readH⟩ := exists_side (loadable.sides r.h (by simp)) 11
  have layout : r.layout = .ok ⟨x, y, w, h⟩ :=
    bind_eq_ok_iff.mpr ⟨x, readX, bind_eq_ok_iff.mpr ⟨y, readY,
      bind_eq_ok_iff.mpr ⟨w, readW, bind_eq_ok_iff.mpr ⟨h, readH, rfl⟩⟩⟩⟩
  exact ⟨_, bind_eq_ok_iff.mpr ⟨_, layout, rfl⟩⟩

theorem load_ok (r : PlacedRow) (l : LoadedRow) (success : r.load = .ok l) :
    l.dashboard = r.dashboard ∧
      l.widget = r.widget.getD { id := noWidgetId, name := "", kind := "" } := by
  obtain ⟨layout, _, same⟩ := bind_eq_ok_iff.mp success
  cases same
  exact ⟨rfl, rfl⟩

theorem read_loaded (l : LoadedRow) (r : DashboardRow) (success : l.read = .ok r) :
    r.dashboardId = l.dashboard.id ∧ r.widget.id = l.widget.id ∧
      r.widget.parent = l.widget.parent := by
  obtain ⟨row, read, same⟩ := bind_eq_ok_iff.mp success
  cases same
  exact ⟨rfl, l.widget.read_ok row read⟩

/-- The row of a dashboard without a widget does not count as one of its widgets. -/
theorem isNilUuid_noWidgetId : isNilUuid noWidgetId = true := by
  simp [isNilUuid]

/-- The rows of a query for all dashboards, read. -/
theorem exists_dashboardRows (sound : Sound supply Readable s) :
    ∃ loaded rows, (s.dashboardRows s.dashboards).mapM PlacedRow.load = .ok loaded ∧
      loaded.mapM LoadedRow.read = .ok rows ∧
      (∀ id, id ∈ rows.map (fun r => r.dashboardId) ↔ id ∈ s.dashboardIds) ∧
      ∀ r ∈ rows, isNilUuid r.widget.id = false →
        (r.widget.id, r.widget.parent) ∈ parentLinks s.widgets ∧
          Grounded (parentLinks s.widgets) r.widget.id := by
  have loadable := loadable_of_mem sound fun _ stored => stored
  obtain ⟨loaded, loads⟩ := exists_mapM fun r member => exists_load (loadable r member)
  have origin : ∀ l ∈ loaded, ∃ r, Loadable s r ∧
      l.widget = r.widget.getD { id := noWidgetId, name := "", kind := "" } := by
    intro l member
    obtain ⟨r, inside, load⟩ := exists_of_mem_mapM loads l member
    exact ⟨r, loadable r inside, (load_ok r l load).2⟩
  obtain ⟨rows, reads⟩ := exists_mapM (f := LoadedRow.read) (l := loaded) fun l member => by
    obtain ⟨r, can, widget⟩ := origin l member
    obtain ⟨row, read⟩ : ∃ row, l.widget.read = .ok row := by
      apply StoredWidget.exists_read
      cases stored : r.widget with
      | none => simp [widget, stored]
      | some w =>
          rw [widget, stored]
          exact sound.documents w (can.widget w stored)
    exact ⟨_, bind_eq_ok_iff.mpr ⟨row, read, rfl⟩⟩
  refine ⟨loaded, rows, loads, reads, fun id => ?_, fun r member real => ?_⟩
  · have ids : rows.map (fun r => r.dashboardId) =
        (s.dashboardRows s.dashboards).map fun r => r.dashboard.id := by
      rw [map_eq_of_mapM (g := fun l : LoadedRow => l.dashboard.id)
        (fun l r read => (read_loaded l r read).1) reads]
      exact map_eq_of_mapM (fun r l load => by rw [(load_ok r l load).1]) loads
    rw [ids, List.mem_map]
    constructor
    · rintro ⟨r, member, rfl⟩
      exact List.mem_map_of_mem (loadable r member).dashboard
    · intro member
      obtain ⟨d, stored, same⟩ := List.mem_map.mp member
      obtain ⟨r, inside, of⟩ := exists_row s stored
      exact ⟨r, inside, by rw [of, same]⟩
  · obtain ⟨l, inside, read⟩ := exists_of_mem_mapM reads r member
    obtain ⟨_, id, parent⟩ := read_loaded l r read
    obtain ⟨placed, can, widget⟩ := origin l inside
    cases stored : placed.widget with
    | none =>
        rw [id, widget, stored, Option.getD_none, isNilUuid_noWidgetId] at real
        cases real
    | some w =>
        rw [stored, Option.getD_some] at widget
        have kept := can.widget w stored
        rw [id, parent, widget]
        exact ⟨mem_parentLinks.mpr ⟨w, kept, rfl, rfl⟩, sound.wellFormed.chains w kept⟩

theorem exists_allDashboards (sound : Sound supply Readable s) :
    ∃ ds, s.allDashboards = .ok ds ∧ (ds.map fun d => d.id).Perm s.dashboardIds := by
  obtain ⟨loaded, rows, loads, reads, ids, known⟩ := exists_dashboardRows sound
  have built : ∃ ds, buildDashboards rows = .ok ds := by
    rw [buildDashboards_eq]
    refine exists_mapM fun first _ => ?_
    have real : ∀ r ∈ Dashboard.placements rows first.dashboardId,
        (r.widget.id, r.widget.parent) ∈ parentLinks s.widgets ∧
          Grounded (parentLinks s.widgets) r.widget.id := by
      intro r member
      obtain ⟨inside, placed⟩ := List.mem_filter.mp member
      simp only [Bool.and_eq_true, Bool.not_eq_true'] at placed
      exact known r inside placed.2
    exact Dashboard.exists_ofRows sound.wellFormed.nodup_links (fun r member => (real r member).1)
      (fun r member => (real r member).2) _ _
  obtain ⟨ds, built⟩ := built
  refine ⟨ds, ?_, ?_⟩
  · unfold allDashboards readDashboards
    refine bind_eq_ok_iff.mpr ⟨loaded, loads, bind_eq_ok_iff.mpr ⟨rows, reads, ?_⟩⟩
    rw [built]
    rfl
  · rw [buildDashboards_eq] at built
    have same : ds.map (fun d => d.id) =
        (firstsBy (fun r => r.dashboardId) rows).map fun r => r.dashboardId :=
      map_eq_of_mapM (fun r d success => Dashboard.ofRows_ok success) built
    rw [same]
    refine (List.perm_ext_iff_of_nodup (nodup_keys_firstsBy _ rows)
      sound.wellFormed.dashboards).mpr fun id => ?_
    rw [mem_keys_firstsBy, ids]

theorem exists_allWidgets (sound : Sound supply Readable s) :
    ∃ ws, s.allWidgets = .ok ws ∧ (Widget.idsList ws).Perm s.widgetIds := by
  obtain ⟨rows, reads⟩ := exists_mapM fun r member =>
    StoredWidget.exists_read (sound.documents r member)
  have ids : (rows.map fun r => r.id) = s.widgetIds :=
    map_eq_of_mapM (fun r row success => (r.read_ok row success).1) reads
  have ends : (rows.map fun r => (r.id, r.parent)) = parentLinks s.widgets :=
    map_eq_of_mapM (g := fun r : StoredWidget => (r.id, r.parent)) (fun r row success => by
      obtain ⟨id, parent⟩ := r.read_ok row success
      rw [id, parent]) reads
  have origin : ∀ row ∈ rows, ∃ r ∈ s.widgets, row.id = r.id ∧ row.parent = r.parent := by
    intro row member
    obtain ⟨r, inside, read⟩ := exists_of_mem_mapM reads row member
    exact ⟨r, inside, r.read_ok row read⟩
  obtain ⟨ws, built⟩ := exists_buildWidgets (by rw [ids]; exact sound.wellFormed.widgets)
    (by
      rw [ids]
      intro row member p given
      obtain ⟨r, inside, _, parent⟩ := origin row member
      exact sound.wellFormed.parents r inside p (parent ▸ given))
    (by
      rw [ends]
      intro row member
      obtain ⟨r, inside, id, _⟩ := origin row member
      rw [id]
      exact sound.wellFormed.chains r inside)
  refine ⟨ws, bind_eq_ok_iff.mpr ⟨rows, reads, by rw [built]; rfl⟩, ?_⟩
  have all := idsList_buildWidgets built
  rwa [ids, sound.wellFormed.widgets.dedup] at all

/-- Every run of calls on the empty store, also of calls that fail on their way, ends in a
well-formed store.  When the documents that were stored can be read, so can all widgets and all
dashboards, with every stored widget and every stored dashboard among them once. -/
theorem runs_wellFormed (supply : Nat → String) (fresh : Function.Injective supply)
    (calls : List Call) :
    WellFormed (run supply calls) ∧
      ((∀ c ∈ calls, ∀ j ∈ c.documents, Readable j.compact) →
        (∃ ws, (run supply calls).allWidgets = .ok ws ∧
          (Widget.idsList ws).Perm (run supply calls).widgetIds) ∧
        ∃ ds, (run supply calls).allDashboards = .ok ds ∧
          (ds.map fun d => d.id).Perm (run supply calls).dashboardIds) := by
  constructor
  · have sound : Sound supply (fun _ => True) (run supply calls) :=
      sound_run fresh calls fun _ _ _ _ => trivial
    exact sound.wellFormed
  · intro readable
    have sound := sound_run fresh calls readable
    exact ⟨exists_allWidgets sound, exists_allDashboards sound⟩

/-- Ids of a letter that is written once more each time. -/
def letters (k : Nat) : String := String.ofList (List.replicate (k + 1) 'a')

theorem letters_injective : Function.Injective letters := by
  intro j k same
  have lists := String.ofList_injective same
  simpa using congrArg List.length lists

/-- A widget with another one inside it, an edit that stops at a child of which there is none, and a
dashboard that is left without its placements because one of them has no widget. -/
def brokenCalls : List Call :=
  [.createWidget { name := "outer", kind := "row", props := some .null
                   children := [{ name := "inner", kind := "chart" }] },
    .editWidget { id := "a", name := "edited", kind := "row"
                  children := [{ name := "new", kind := "text" },
                    { id := "b", name := "none", kind := "text" }] },
    .createDashboard { name := "board", widgets := [⟨{ id := "b", name := "", kind := "" }, {}⟩] }]

theorem runs_wellFormed_brokenCalls :
    WellFormed (run letters brokenCalls) ∧
      (∃ ws, (run letters brokenCalls).allWidgets = .ok ws ∧
        (Widget.idsList ws).Perm ["a", "aa", "aaa"]) ∧
      ∃ ds, (run letters brokenCalls).allDashboards = .ok ds ∧
        (ds.map fun d => d.id).Perm ["aaaa"] := by
  have readable : ∀ c ∈ brokenCalls, ∀ j ∈ c.documents, Readable j.compact := by
    have null : Readable (Json.compact .null) := rfl
    simp [brokenCalls, Call.documents, Widget.documents, Widget.documentsList, null]
  obtain ⟨wellFormed, reads⟩ := runs_wellFormed letters letters_injective brokenCalls
  obtain ⟨⟨ws, widgets, all⟩, ds, dashboards, each⟩ := reads readable
  exact ⟨wellFormed, ⟨ws, widgets, all⟩, ds, dashboards, each⟩

end Store

end QueryBoard
