import QueryBoard.Proofs.Store.Dashboards

/-!
# One dashboard, all dashboards and one widget

The rows of all dashboards come out of one recursive query, in which rows of different dashboards
stand among each other.  A row gives rise only to rows of its own dashboard, so the query holds for
each dashboard the rows that it holds for this one alone, in the same order.  All dashboards are
therefore read at once as they are read one by one.

On a dashboard that places no widget twice and none below another one, every widget has one row, and
what follows from a row stands in the order of the store.  A widget that is shown on such a dashboard
is the widget that is read under its id.
-/

set_option autoImplicit false

namespace QueryBoard

open Relation (ReflTransGen TransGen)

/-! ## Documents that cannot be read -/

theorem readDocument_ok_or (text : Option String) :
    readDocument text = .ok (text.bind fun t => (Json.parse? t).map Json.dedup) ∨
      readDocument text = .error .document := by
  cases text with
  | none => exact Or.inl rfl
  | some t => cases parsed : Json.parse? t <;> simp [readDocument, parsed]

theorem StoredWidget.read_ok_or (r : StoredWidget) :
    r.read = .ok r.row ∨ r.read = .error .document := by
  rw [read]
  rcases readDocument_ok_or r.props with props | props
  · rcases readDocument_ok_or r.query with query | query
    · exact Or.inl (by rw [props, query]; rfl)
    · exact Or.inr (by rw [props, query]; rfl)
  · exact Or.inr (by rw [props]; rfl)

namespace PlacedRow

theorem read_ok_or (r : PlacedRow) : r.read = .ok r.row ∨ r.read = .error .document := by
  rw [PlacedRow.read, LoadedRow.read]
  rcases r.loaded.widget.read_ok_or with success | failed
  · exact Or.inl (by rw [success]; rfl)
  · exact Or.inr (by rw [failed]; rfl)

theorem read_error {r : PlacedRow} {e : StoreError} (failed : r.read = .error e) :
    e = .document := by
  rcases r.read_ok_or with read | read <;> rw [failed] at read <;> cases read
  rfl

theorem mapM_read_error {rows : List PlacedRow} {r : PlacedRow} (member : r ∈ rows)
    (failed : r.read = .error .document) : rows.mapM PlacedRow.read = .error .document :=
  mapM_eq_error (fun _ _ _ => read_error) member failed

theorem read_widget {r : PlacedRow} {w : StoredWidget} (found : r.widget = some w)
    (read : r.read = .ok r.row) : w.read = .ok w.row := by
  have widget : r.loaded.widget = w := by rw [loaded, found]; rfl
  rcases w.read_ok_or with success | failed
  · exact success
  · rw [PlacedRow.read, LoadedRow.read, widget, failed] at read
    cases read

end PlacedRow

namespace Store

variable {supply : Nat → String} {texts : String → Prop} {s : Store}

/-! ## The rows of one dashboard among those of all -/

theorem id_of_mem_placedRows (d : StoredDashboard) :
    ∀ r ∈ s.placedRows d, r.dashboard.id = d.id := by
  intro r member
  by_cases none : s.placementsOn d.id = []
  · rw [placedRows_of_none none, List.mem_singleton] at member
    rw [member]
  · rw [placedRows_of_some none] at member
    obtain ⟨p, _, rfl⟩ := List.mem_map.mp member
    rfl

theorem id_of_mem_nestedRows (d : StoredDashboard) :
    ∀ r ∈ s.nestedRows d, r.dashboard.id = d.id := by
  intro r member
  obtain ⟨w, _, rfl⟩ := List.mem_map.mp member
  rfl

theorem placedRows_ne_nil (d : StoredDashboard) : s.placedRows d ≠ [] := by
  by_cases none : s.placementsOn d.id = []
  · simp [placedRows_of_none none]
  · simpa [placedRows_of_some none] using none

theorem dashboardRows_eq (s : Store) (ds : List StoredDashboard) : s.dashboardRows ds =
    closure PlacedRow.follows (ds.flatMap s.nestedRows) (ds.flatMap s.placedRows) :=
  rfl

/-- Among the rows of dashboards are those of one as they are for this one alone. -/
theorem filter_dashboardRows (ds : List StoredDashboard) (id : String) :
    (s.dashboardRows ds).filter (fun r => r.dashboard.id == id) =
      s.dashboardRows (ds.filter fun d => d.id == id) := by
  have kept : ∀ a b : PlacedRow, PlacedRow.follows a b = true →
      (a.dashboard.id == id) = (b.dashboard.id == id) := by
    intro a b step
    rw [(follows_iff.mp step).1]
  rw [dashboardRows_eq, filter_closure_kind _ kept, filter_flatMap_key id_of_mem_nestedRows,
    filter_flatMap_key id_of_mem_placedRows, dashboardRows_eq]

/-- The rows name the dashboards in the order in which these are stored. -/
theorem eraseDups_ids_dashboardRows {ds : List StoredDashboard}
    (distinct : (ds.map fun d => d.id).Nodup) :
    ((s.dashboardRows ds).map fun r => r.dashboard.id).eraseDups = ds.map fun d => d.id := by
  obtain ⟨rest, whole, later⟩ :=
    closure_eq_append PlacedRow.follows (ds.flatMap s.nestedRows) (ds.flatMap s.placedRows)
  have first := eraseDups_flatMap_key (s.id_of_mem_placedRows) placedRows_ne_nil distinct
  have none : (rest.filter fun r => r.dashboard.id ∉
      (ds.flatMap s.placedRows).eraseDups.map fun r => r.dashboard.id) = [] := by
    rw [List.filter_eq_nil_iff]
    intro r member
    obtain ⟨d, listed, inside⟩ := List.mem_flatMap.mp (later r member).1
    have known : d.id ∈ ds.map fun d => d.id := List.mem_map_of_mem listed
    rw [← first, List.mem_eraseDups] at known
    obtain ⟨r', before, same⟩ := List.mem_map.mp known
    rw [id_of_mem_nestedRows d r inside]
    simp only [List.mem_map, List.mem_eraseDups, decide_not, Bool.not_eq_true',
      decide_eq_false_iff_not, not_not]
    exact ⟨r', before, same⟩
  rw [dashboardRows_eq, whole, eraseDups_map, firstsBy_append, none, firstsBy_eraseDups, ← first,
    eraseDups_map]
  simp [firstsBy]

/-! ## All dashboards -/

section

variable (sound : Sound supply texts s)
include sound

theorem allDashboards_eq : s.allDashboards =
    (s.dashboardRows s.dashboards).mapM PlacedRow.read >>= fun rows =>
      (buildDashboards rows).mapError .tree := by
  rw [allDashboards, mapM_load sound fun _ stored => stored, ok_bind, readDashboards, List.mapM_map]
  rfl

theorem dashboardRows_singleton_eq {d : StoredDashboard} (stored : d ∈ s.dashboards) :
    s.dashboardRows [d] =
      (s.dashboardRows s.dashboards).filter fun r => r.dashboard.id == d.id := by
  rw [filter_dashboardRows, filter_eq_singleton sound.wellFormed.dashboards stored]

/-- When all rows can be read, a dashboard is built from its own. -/
theorem dashboard_eq_buildDashboard
    (reads : ∀ r ∈ s.dashboardRows s.dashboards, r.read = .ok r.row) {id : String}
    (known : id ∈ s.dashboardIds) :
    s.dashboard id =
      (buildDashboard ((s.dashboardRows s.dashboards).map PlacedRow.row) id).mapError .ofTree := by
  obtain ⟨d, stored, rfl⟩ := List.mem_map.mp known
  have part := dashboardRows_singleton_eq sound stored
  have own : ∀ r ∈ s.dashboardRows [d], r.read = .ok r.row := by
    intro r member
    rw [part] at member
    exact reads r (List.mem_filter.mp member).1
  have rows : ((s.dashboardRows s.dashboards).map PlacedRow.row).filter
      (fun row => row.dashboardId == d.id) = (s.dashboardRows [d]).map PlacedRow.row := by
    rw [List.filter_map, part]
    rfl
  rw [dashboard_eq sound stored, mapM_eq_ok_map own, ok_bind, ← rows, buildDashboard_filter]

variable (proper : ∀ k, isNilUuid (supply k) = false)
include proper

/-- A stored dashboard is found, unless a document of its rows cannot be read. -/
theorem dashboard_ok_or {d : StoredDashboard} (stored : d ∈ s.dashboards) :
    (∀ r ∈ s.dashboardRows [d], r.read = .ok r.row) ∧
        (∃ d', Dashboard.ofRows d.id d.name (s.boardRows d) = .ok d' ∧ s.dashboard d.id = .ok d') ∨
      (∃ r ∈ s.dashboardRows [d], r.read = .error .document) ∧
        s.dashboard d.id = .error .document := by
  by_cases reads : ∀ r ∈ s.dashboardRows [d], r.read = .ok r.row
  · obtain ⟨d', built⟩ := exists_ofRows_boardRows sound proper d
    refine Or.inl ⟨reads, d', built, ?_⟩
    rw [dashboard_of_reads sound stored reads]
    exact mapError_eq_ok_iff.mpr built
  · push Not at reads
    obtain ⟨r, member, unread⟩ := reads
    have failed := r.read_ok_or.resolve_left unread
    refine Or.inr ⟨⟨r, member, failed⟩, ?_⟩
    rw [dashboard_eq sound stored, PlacedRow.mapM_read_error member failed]
    rfl

/-- All dashboards are the stored ones, each as it is found under its id. -/
theorem allDashboards_eq_mapM : s.allDashboards = s.dashboardIds.mapM s.dashboard := by
  by_cases reads : ∀ r ∈ s.dashboardRows s.dashboards, r.read = .ok r.row
  · have ids : (((s.dashboardRows s.dashboards).map PlacedRow.row).map
        fun row => row.dashboardId).eraseDups = s.dashboardIds := by
      rw [List.map_map]
      exact eraseDups_ids_dashboardRows sound.wellFormed.dashboards
    obtain ⟨ds, built⟩ : ∃ ds, s.dashboardIds.mapM
        (buildDashboard ((s.dashboardRows s.dashboards).map PlacedRow.row)) = .ok ds := by
      refine exists_mapM fun id known => ?_
      have same := dashboard_eq_buildDashboard sound reads known
      obtain ⟨d, stored, rfl⟩ := List.mem_map.mp known
      rcases dashboard_ok_or sound proper stored with ⟨_, d', _, found⟩ | ⟨⟨r, member, failed⟩, _⟩
      · exact ⟨d', mapError_eq_ok_iff.mp (same.symm.trans found)⟩
      · rw [dashboardRows_singleton_eq sound stored] at member
        rw [reads r (List.mem_filter.mp member).1] at failed
        cases failed
    rw [allDashboards_eq sound, mapM_eq_ok_map reads, ok_bind, buildDashboards_eq_mapM, ids,
      mapM_congr fun id known => dashboard_eq_buildDashboard sound reads known, mapM_mapError, built]
    rfl
  · push Not at reads
    obtain ⟨r, member, unread⟩ := reads
    have failed := r.read_ok_or.resolve_left unread
    have stored := (loadable_of_mem sound (fun _ stored => stored) r member).dashboard
    have own : r ∈ s.dashboardRows [r.dashboard] := by
      rw [dashboardRows_singleton_eq sound stored]
      exact List.mem_filter.mpr ⟨member, beq_self_eq_true _⟩
    have single : ∀ id ∈ s.dashboardIds, ∀ e, s.dashboard id = .error e → e = .document := by
      intro id known e error
      obtain ⟨d, stored, rfl⟩ := List.mem_map.mp known
      rcases dashboard_ok_or sound proper stored with ⟨_, _, _, found⟩ | ⟨_, found⟩ <;>
        rw [error] at found <;> cases found
      rfl
    have fault : s.dashboard r.dashboard.id = .error .document := by
      rcases dashboard_ok_or sound proper stored with ⟨reads, _⟩ | ⟨_, found⟩
      · exact absurd (reads r own) unread
      · exact found
    rw [allDashboards_eq sound, PlacedRow.mapM_read_error member failed,
      mapM_eq_error single (List.mem_map_of_mem stored) fault]
    rfl

end

/-! ## A dashboard without repetitions -/

section

variable (wellFormed : WellFormed s) {d : StoredDashboard} (some : s.placementsOn d.id ≠ [])
variable (distinct : ((s.placesOn d.id).map Prod.fst).Nodup)
variable (apart : ∀ p ∈ s.placesOn d.id, ∀ q ∈ s.placesOn d.id, ¬ s.Under p.1 q.1)

section

include wellFormed some

theorem exists_widget_of_mem {r : PlacedRow} (member : r ∈ s.dashboardRows [d]) :
    ∃ w ∈ s.widgets, r.widget = Option.some w ∧ s.OnBoard (s.placesOn d.id) w.id := by
  obtain ⟨rest, whole, later⟩ := dashboardRows_eq_append wellFormed some
  have found : ∃ w, r.widget = Option.some w := by
    rw [whole, List.mem_append, List.mem_eraseDups] at member
    rcases member with member | member
    · obtain ⟨p, listed, rfl⟩ := List.mem_map.mp member
      obtain ⟨w, _, found, _⟩ := placedRow_widget wellFormed listed
      exact ⟨w, found⟩
    · obtain ⟨w, _, rfl, _⟩ := later r member
      exact ⟨w, rfl⟩
  obtain ⟨w, found⟩ := found
  obtain ⟨stored, board⟩ := (onBoard_of_mem wellFormed member).2 w found
  exact ⟨w, stored, found, board⟩

include distinct

theorem nodup_ids_placedRows : ((s.placedRows d).map fun r => r.row.widget.id).Nodup := by
  have ids : (s.placedRows d).map (fun r => r.row.widget.id) = (s.placesOn d.id).map Prod.fst := by
    rw [placedRows_of_some some, placesOn, List.map_map, List.map_map]
    exact List.map_congr_left fun p placed => id_placedRow wellFormed placed
  rw [ids]
  exact distinct

include apart

/-- Every widget on the dashboard has one row. -/
theorem nodup_ids_dashboardRows : ((s.dashboardRows [d]).map fun r => r.row.widget.id).Nodup := by
  have first := nodup_ids_placedRows wellFormed some distinct
  obtain ⟨rest, whole, later⟩ := dashboardRows_eq_append wellFormed some
  have rows : (s.dashboardRows [d]).Nodup := by
    rw [dashboardRows_singleton]
    exact nodup_closure _ _ _
  rw [← placedRows_of_some some, eraseDups_of_nodup (List.Nodup.of_map _ first)] at whole
  rw [whole] at rows
  rw [whole, List.map_append, List.nodup_append]
  refine ⟨first, List.Nodup.map_on (fun r member r' member' same => ?_)
    (List.nodup_append.mp rows).2.1, ?_⟩
  · obtain ⟨w, stored, rfl, _⟩ := later r member
    obtain ⟨w', stored', rfl, _⟩ := later r' member'
    rw [wellFormed.row_unique stored stored' same]
  · rintro id before _ behind rfl
    obtain ⟨r, member, is⟩ := List.mem_map.mp before
    obtain ⟨r', member', rfl⟩ := List.mem_map.mp behind
    obtain ⟨w, _, rfl, q, listed, under⟩ := later r' member'
    rw [placedRows_of_some some] at member
    obtain ⟨p, placed, rfl⟩ := List.mem_map.mp member
    have is : p.widget = w.id := (id_placedRow wellFormed placed).symm.trans is
    rw [← is] at under
    exact apart p.place (List.mem_map_of_mem placed) q listed under

/-- What follows from a row of the dashboard stands in the order of the store. -/
theorem filter_follows {a : PlacedRow} (member : a ∈ s.dashboardRows [d]) :
    (s.dashboardRows [d]).filter (PlacedRow.follows a) =
      (s.nestedRows d).filter (PlacedRow.follows a) := by
  have rows := dashboardRows_singleton (s := s) d
  have once := nodup_ids_dashboardRows wellFormed some distinct apart
  have pool : (s.nestedRows d).Nodup := by
    refine List.Nodup.map (fun w w' same => ?_)
      ((List.Nodup.of_map _ wellFormed.widgets).filter _)
    simpa using same
  rw [rows] at member ⊢
  refine filter_closure PlacedRow.follows pool
    (List.Nodup.of_map _ (nodup_ids_placedRows wellFormed some distinct))
    (fun x visited y visited' r up up' => ?_) (fun q first x visited => ?_) member
  · rw [← rows] at visited visited'
    obtain ⟨_, v, w, found, below, parent⟩ := follows_iff.mp up
    obtain ⟨_, v', w', found', below', parent'⟩ := follows_iff.mp up'
    rw [below, Option.some.injEq] at below'
    rw [below', parent', Option.some.injEq] at parent
    refine List.inj_on_of_nodup_map once visited visited' ?_
    rw [PlacedRow.row_widget found, PlacedRow.row_widget found']
    exact parent.symm
  · by_contra step
    rw [← rows] at visited
    obtain ⟨_, v, w, found, below, parent⟩ := follows_iff.mp (by simpa using step)
    rw [placedRows_of_some some] at first
    obtain ⟨p, placed, rfl⟩ := List.mem_map.mp first
    obtain ⟨w', stored, widget, is⟩ := placedRow_widget wellFormed placed
    rw [widget, Option.some.injEq] at below
    subst below
    have board := ((onBoard_of_mem wellFormed visited).2 v found).2
    obtain ⟨q, listed, under⟩ := (under_iff wellFormed stored).mpr ⟨v.id, parent, board⟩
    rw [is] at under
    exact apart p.place (List.mem_map_of_mem placed) q listed under

/-- Below each widget the rows of the dashboard have what the store has there. -/
theorem map_id_childRows_dashboardRows {a : PlacedRow} {v : StoredWidget}
    (member : a ∈ s.dashboardRows [d]) (found : a.widget = Option.some v) :
    (childRows ((s.dashboardRows [d]).map fun r => r.row.widget) v.id).map (fun c => c.id) =
      (childRows (s.widgets.map StoredWidget.row) v.id).map fun c => c.id := by
  have same : ∀ r ∈ s.dashboardRows [d],
      (r.row.widget.parent == Option.some v.id) = PlacedRow.follows a r := by
    intro r inside
    obtain ⟨w, _, below, _⟩ := exists_widget_of_mem wellFormed some inside
    have board := (onBoard_of_mem wellFormed member).1.trans (onBoard_of_mem wellFormed inside).1.symm
    rw [PlacedRow.row_widget below, PlacedRow.follows, board, found, below]
    simp [StoredWidget.row]
  have stored : (s.nestedRows d).filter (PlacedRow.follows a) =
      (s.widgets.filter fun w => w.parent == Option.some v.id).map fun w =>
        { dashboard := d, widget := Option.some w } := by
    rw [nestedRows, List.filter_map, List.filter_filter]
    congr 1
    refine List.filter_congr fun w _ => ?_
    have board := (onBoard_of_mem wellFormed member).1
    rw [Function.comp_apply, PlacedRow.follows, board, found]
    cases given : w.parent <;> simp [given]
  have kept := (List.filter_congr same).trans (filter_follows wellFormed some distinct apart member)
  rw [stored] at kept
  rw [childRows, childRows, List.filter_map, List.filter_map, List.map_map, List.map_map]
  refine (congrArg (List.map _) kept).trans ?_
  rw [List.map_map]
  rfl

/-- The rows of the dashboard and those of the store say the same of a widget. -/
theorem readFrom_store {w : Widget}
    (read : w.ReadFrom ((s.dashboardRows [d]).map fun r => r.row.widget)) :
    w.ReadFrom (s.widgets.map StoredWidget.row) := by
  refine Widget.ReadFrom.congr (fun row member => ?_) w read fun row member _ => ?_
  · obtain ⟨r, inside, rfl⟩ := List.mem_map.mp member
    obtain ⟨v, stored, found, _⟩ := exists_widget_of_mem wellFormed some inside
    refine ⟨v.parent, ?_⟩
    rw [PlacedRow.row_widget found]
    exact List.mem_map_of_mem stored
  · obtain ⟨r, inside, rfl⟩ := List.mem_map.mp member
    obtain ⟨v, _, found, _⟩ := exists_widget_of_mem wellFormed some inside
    rw [PlacedRow.row_widget found]
    exact map_id_childRows_dashboardRows wellFormed some distinct apart inside found

end

end

/-- The documents of a widget on a dashboard can be read when those of the dashboard's rows can. -/
theorem read_of_onBoard (wellFormed : WellFormed s) {d : StoredDashboard}
    (reads : ∀ r ∈ s.dashboardRows [d], r.read = .ok r.row) {w : StoredWidget}
    (stored : w ∈ s.widgets) (board : s.OnBoard (s.placesOn d.id) w.id) : w.read = .ok w.row := by
  obtain ⟨r, member, _, w', found, is⟩ := hasRow_of_onBoard wellFormed board
  have other := ((onBoard_of_mem wellFormed member).2 w' found).1
  rw [← wellFormed.row_unique other stored is]
  exact PlacedRow.read_widget found (reads r member)

/-- A dashboard that places no widget twice and none below another one shows each of its places, and
there the widget that is read under its id. -/
theorem widget_of_dashboard (sound : Sound supply texts s)
    (proper : ∀ k, isNilUuid (supply k) = false) {id : String} (known : id ∈ s.dashboardIds)
    {d : Dashboard} (found : s.dashboard id = .ok d)
    (distinct : ((s.placesOn id).map Prod.fst).Nodup)
    (apart : ∀ p ∈ s.placesOn id, ∀ q ∈ s.placesOn id, ¬ s.Under p.1 q.1) :
    d.places = s.placesOn id ∧ ∀ p ∈ d.widgets, s.widget p.widget.id = .ok p.widget := by
  have wellFormed := sound.wellFormed
  obtain ⟨stored, listed, rfl⟩ := List.mem_map.mp known
  obtain ⟨reads, d', built, found'⟩ | ⟨_, failed⟩ := dashboard_ok_or sound proper listed
  · rw [found, Except.ok.injEq] at found'
    subst found'
    have places : d.places = s.placesOn stored.id := by
      rw [(Dashboard.ofRows_places built).2.1,
        places_boardRows wellFormed (sound.proper proper), shown_eq_self distinct apart]
    refine ⟨places, fun p shown => ?_⟩
    have listed : (p.widget.id, p.layout) ∈ s.placesOn stored.id := by
      rw [← places]
      exact List.mem_map_of_mem shown
    obtain ⟨q, placed, same⟩ := List.mem_map.mp listed
    have some : s.placementsOn stored.id ≠ [] := List.ne_nil_of_mem placed
    have is : p.widget.id = q.widget := (congrArg Prod.fst same).symm
    have known : p.widget.id ∈ s.widgetIds := by
      rw [is]
      exact (wellFormed.placements q (List.mem_filter.mp placed).1).2
    -- Both widgets are what the rows of the store say, and these say one thing of an id.
    obtain ⟨w, read, own, fromStore⟩ := exists_widget wellFormed known fun x below => by
      obtain ⟨r, inside, top⟩ := List.mem_map.mp known
      rw [← top] at below
      obtain ⟨kept, above⟩ := of_mem_widgetRows wellFormed inside below
      refine read_of_onBoard wellFormed reads kept ⟨_, listed, ?_⟩
      rw [← top]
      exact above.imp_left (congrArg StoredWidget.id)
    have once := nodup_ids_dashboardRows wellFormed some distinct apart
    have rows : s.boardRows stored = (s.dashboardRows [stored]).map PlacedRow.row :=
      boardRows_eq_map wellFormed (sound.proper proper) fun r member =>
        (exists_widget_of_mem wellFormed some member).imp fun _ both => both.2.1
    have fromBoard := Dashboard.readFrom_ofRows built
    rw [firstsBy_of_nodup _ (by rw [rows, List.map_map]; exact once), rows, List.map_map] at fromBoard
    have readFrom := readFrom_store wellFormed some distinct apart
      (Widget.readFromAll_iff.mp fromBoard p.widget (List.mem_map_of_mem shown))
    have rowIds : ((s.widgets.map StoredWidget.row).map fun r => r.id).Nodup := by
      rw [map_id_row]
      exact wellFormed.widgets
    rw [read, Widget.ReadFrom.unique rowIds w p.widget fromStore readFrom own]
  · rw [failed] at found
    cases found

theorem id_of_dashboard {id : String} {d : Dashboard} (found : s.dashboard id = .ok d) :
    d.id = id := by
  obtain ⟨_, _, read⟩ := bind_eq_ok_iff.mp found
  obtain ⟨rows, _, built⟩ := bind_eq_ok_iff.mp read
  exact id_of_buildDashboard (mapError_eq_ok_iff.mp built)

/-- In every store that calls have led to, the readers agree.  All dashboards are the stored ones in
order, each as it is read alone, with the same failure.  A dashboard that places no widget twice and
none below another one shows each of its places, with the widget that is read under its id. -/
theorem readers_agree (supply : Nat → String) (fresh : Function.Injective supply)
    (proper : ∀ k, isNilUuid (supply k) = false) (calls : List Call) :
    (run supply calls).allDashboards =
        (run supply calls).dashboardIds.mapM (run supply calls).dashboard ∧
      ((∀ c ∈ calls, ∀ j ∈ c.documents, Readable j.compact) →
        ∃ ds, (run supply calls).allDashboards = .ok ds) ∧
      (∀ ds, (run supply calls).allDashboards = .ok ds → ∀ id ∈ (run supply calls).dashboardIds,
        ∃ d, (run supply calls).dashboard id = .ok d ∧ (ds.filter fun d => d.id == id) = [d]) ∧
      ∀ id ∈ (run supply calls).dashboardIds, ∀ d, (run supply calls).dashboard id = .ok d →
        (((run supply calls).placesOn id).map Prod.fst).Nodup →
        (∀ p ∈ (run supply calls).placesOn id, ∀ q ∈ (run supply calls).placesOn id,
          ¬ (run supply calls).Under p.1 q.1) →
        d.places = (run supply calls).placesOn id ∧
          ∀ p ∈ d.widgets, (run supply calls).widget p.widget.id = .ok p.widget := by
  have sound : Sound supply (fun _ => True) (run supply calls) :=
    sound_run fresh calls fun _ _ _ _ => trivial
  have readable : (∀ c ∈ calls, ∀ j ∈ c.documents, Readable j.compact) →
      ∃ ds, (run supply calls).allDashboards = .ok ds := fun readable =>
    (exists_allDashboards (sound_run fresh calls readable)).imp fun _ both => both.1
  generalize run supply calls = s at sound readable ⊢
  have all := allDashboards_eq_mapM sound proper
  refine ⟨all, readable, fun ds read id known => ?_, fun id known d found distinct apart =>
    widget_of_dashboard sound proper known found distinct apart⟩
  rw [all] at read
  have ids : ds.map (fun d => d.id) = s.dashboardIds :=
    (map_eq_of_mapM (fun _ _ => id_of_dashboard) read).trans (List.map_id _)
  obtain ⟨d, member, rfl⟩ := List.mem_map.mp (ids.symm ▸ known)
  obtain ⟨id, _, found⟩ := exists_of_mem_mapM read d member
  refine ⟨d, id_of_dashboard found ▸ found, filter_eq_singleton ?_ member⟩
  rw [ids]
  exact sound.wellFormed.dashboards

/-- Two dashboards with the same widgets, of which the second places none twice and none below
another one. -/
def twoBoards : List Call :=
  boardCalls ++ [.createDashboard board,
    .createDashboard
      { name := "plain"
        widgets := [⟨{ id := "aaa", name := "", kind := "" }, { x := 1, w := 4 }⟩,
          ⟨{ id := "a", name := "", kind := "" }, { x := 3, w := 4 }⟩] }]

theorem readers_agree_twoBoards : ∃ ds d, (run letters twoBoards).allDashboards = .ok ds ∧
    (run letters twoBoards).dashboard "aaaaa" = .ok d ∧
    (ds.filter fun d => d.id == "aaaaa") = [d] ∧
    d.places = [("aaa", { x := 1, w := 4 }), ("a", { x := 3, w := 4 })] ∧
    ∀ p ∈ d.widgets, (run letters twoBoards).widget p.widget.id = .ok p.widget := by
  obtain ⟨_, succeeds, entries, widgets⟩ :=
    readers_agree letters letters_injective isNilUuid_letters twoBoards
  obtain ⟨ds, all⟩ := succeeds (by
    simp [twoBoards, boardCalls, Call.documents, Widget.documents, Widget.documentsList])
  have ids : (run letters twoBoards).dashboardIds = ["aaaa", "aaaaa"] := rfl
  have links : parentLinks (run letters twoBoards).widgets =
      [("a", none), ("aa", some "a"), ("aaa", none)] := rfl
  have places : (run letters twoBoards).placesOn "aaaaa" =
      [("aaa", { x := 1, w := 4 }), ("a", { x := 3, w := 4 })] := by
    decide +kernel
  obtain ⟨d, found, entry⟩ := entries ds all "aaaaa" (by simp [ids])
  obtain ⟨shown, same⟩ := widgets "aaaaa" (by simp [ids]) d found (by simp [places]) (by
    intro p member q _ under
    -- Neither of the placed widgets has a parent.
    obtain ⟨parent, link, _⟩ := TransGen.head'_iff.mp under
    rw [links] at link
    rw [places] at member
    rcases List.mem_cons.mp member with rfl | member
    · simp at link
    · obtain rfl := List.mem_singleton.mp member
      simp at link)
  exact ⟨ds, d, all, found, entry, shown.trans places, same⟩

end Store

end QueryBoard
