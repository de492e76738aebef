import QueryBoard.Proofs.Firsts
import QueryBoard.Proofs.Hierarchy.Subtree

/-!
# Dashboards out of rows

The rows of several dashboards may stand in any order among each other.  They are grouped by
dashboard while they are gone through once, and every dashboard is then put together from its own
rows.  What comes out is what each dashboard would be if its rows stood alone, and the only fault
that rows can have is that a widget of a dashboard is below itself.
-/

set_option autoImplicit false

namespace QueryBoard

open Hierarchy
open Relation (ReflTransGen TransGen)

/-! ## Ways up -/

/-- Of the first nodes one has an id, so an id has one parent at most. -/
theorem Hierarchy.parent_unique {α : Type} {rows : List (Node α)} (id : String) (p q : Option String)
    (left : (id, p) ∈ links (firsts rows)) (right : (id, q) ∈ links (firsts rows)) : p = q := by
  obtain ⟨n, member, rfl, rfl⟩ := mem_links.mp left
  obtain ⟨n', member', same, rfl⟩ := mem_links.mp right
  rw [List.inj_on_of_nodup_map (nodup_ids_firsts rows) member' member same]

/-- A way up that ends comes by no id twice. -/
theorem Hierarchy.Grounded.not_below_self {links : List (String × Option String)} {id : String}
    (single : ∀ i p q, (i, p) ∈ links → (i, q) ∈ links → p = q) (grounded : Grounded links id) :
    ¬ TransGen (fun i p => (i, some p) ∈ links) id id := by
  intro cycle
  obtain ⟨p, up, back⟩ := TransGen.head'_iff.mp cycle
  induction grounded generalizing p with
  | root top =>
      have none := single _ _ _ top up
      cases none
  | @under id parent link _ ih =>
      have same := Option.some.inj (single _ _ _ link up)
      subst same
      have around := TransGen.tail' back link
      obtain ⟨q, up', back'⟩ := TransGen.head'_iff.mp around
      exact ih around q up' back'

/-- Where no way up comes back to its start, every way up ends. -/
theorem Hierarchy.grounded_of_acyclic {links : List (String × Option String)}
    (known : ∀ i p, (i, some p) ∈ links → p ∈ links.map Prod.fst)
    (acyclic : ∀ i, ¬ TransGen (fun i p => (i, some p) ∈ links) i i) :
    ∀ i ∈ links.map Prod.fst, Grounded links i := by
  have irrefl : Std.Irrefl fun p i : {i // i ∈ links.map Prod.fst} =>
      TransGen (fun i p => (i, some p) ∈ links) i.1 p.1 :=
    ⟨fun i => acyclic i.1⟩
  have trans : IsTrans {i // i ∈ links.map Prod.fst} fun p i =>
      TransGen (fun i p => (i, some p) ∈ links) i.1 p.1 :=
    ⟨fun _ _ _ upper lower => lower.trans upper⟩
  have ends := Finite.wellFounded_of_trans_of_irrefl
    fun p i : {i // i ∈ links.map Prod.fst} => TransGen (fun i p => (i, some p) ∈ links) i.1 p.1
  intro i member
  induction h : (⟨i, member⟩ : {i // i ∈ links.map Prod.fst}) using ends.induction generalizing i with
  | h x ih =>
      subst h
      obtain ⟨link, inside, rfl⟩ := List.mem_map.mp member
      obtain ⟨i, parent⟩ := link
      cases parent with
      | none => exact Grounded.root inside
      | some p =>
          have above := known i p inside
          exact Grounded.under inside (ih ⟨p, above⟩ (TransGen.single inside) p above rfl)

/-! ## Groups of rows -/

namespace Dashboard

/-- The rows of one dashboard that hold a widget. -/
def placements (rows : List DashboardRow) (id : String) : List DashboardRow :=
  rows.filter fun r => r.dashboardId == id && !isNilUuid r.widget.id

theorem placements_filter (rows : List DashboardRow) (id : String) :
    placements (rows.filter fun r => r.dashboardId == id) id = placements rows id := by
  rw [placements, List.filter_filter]
  apply List.filter_congr
  intro r _
  cases r.dashboardId == id <;> simp

end Dashboard

namespace DashboardGroup

/-- The group of a dashboard when all rows have been met. -/
def whole (rows : List DashboardRow) (r : DashboardRow) : DashboardGroup :=
  ⟨r.dashboardId, r.dashboardName, (Dashboard.placements rows r.dashboardId).reverse⟩

theorem add_whole {rows : List DashboardRow} {first r : DashboardRow}
    (same : first.dashboardId = r.dashboardId) :
    (whole rows first).add r = whole (rows ++ [r]) first := by
  unfold add whole Dashboard.placements
  by_cases none : isNilUuid r.widget.id
  · simp [none]
  · simp [none, same]

theorem whole_append {rows : List DashboardRow} {first r : DashboardRow}
    (other : first.dashboardId ≠ r.dashboardId) : whole (rows ++ [r]) first = whole rows first := by
  simp [whole, Dashboard.placements, Ne.symm other]

theorem collect_of_new {r : DashboardRow} {groups : List DashboardGroup}
    (new : r.dashboardId ∉ groups.map id) :
    collect r groups = groups ++ [add { id := r.dashboardId, name := r.dashboardName } r] := by
  induction groups with
  | nil => rfl
  | cons g rest ih =>
      rw [List.map_cons, List.mem_cons, not_or] at new
      rw [collect, if_neg (Ne.symm new.1), ih new.2]
      rfl

theorem collect_of_known {r : DashboardRow} {groups : List DashboardGroup}
    (distinct : (groups.map id).Nodup) (known : r.dashboardId ∈ groups.map id) :
    collect r groups = groups.map fun g => if g.id = r.dashboardId then g.add r else g := by
  induction groups with
  | nil => cases known
  | cons g rest ih =>
      obtain ⟨apart, distinct⟩ := List.nodup_cons.mp distinct
      rw [collect, List.map_cons]
      by_cases same : g.id = r.dashboardId
      · rw [if_pos same, if_pos same]
        congr 1
        conv_lhs => rw [← List.map_id rest]
        refine List.map_congr_left fun g' member => ?_
        have other : g'.id ≠ r.dashboardId :=
          fun also => apart (same.trans also.symm ▸ List.mem_map_of_mem member)
        exact (if_neg other).symm
      · have later : r.dashboardId ∈ rest.map id :=
          (List.mem_cons.mp known).resolve_left (Ne.symm same)
        rw [if_neg same, if_neg same, ih distinct later]

/-- One pass over the rows finds for each dashboard, in the order of their first rows, the name in its
first row and all its rows that hold a widget. -/
theorem ofRows_eq (rows : List DashboardRow) :
    ofRows rows = (firstsBy (fun r => r.dashboardId) rows).map (whole rows) := by
  induction rows using List.reverseRecOn with
  | nil => rfl
  | append_singleton rows r ih =>
      have step : ofRows (rows ++ [r]) = collect r (ofRows rows) := by
        rw [ofRows, List.foldl_append]
        rfl
      have ids : ((firstsBy (fun r => r.dashboardId) rows).map (whole rows)).map id =
          (firstsBy (fun r => r.dashboardId) rows).map fun r => r.dashboardId := List.map_map
      have distinct := nodup_keys_firstsBy (fun r : DashboardRow => r.dashboardId) rows
      rw [step, ih, firstsBy_concat]
      by_cases known : r.dashboardId ∈ rows.map fun r => r.dashboardId
      · have listed : r.dashboardId ∈ ((firstsBy (fun r => r.dashboardId) rows).map (whole rows)).map id := by
          rw [ids, mem_keys_firstsBy]
          exact known
        rw [collect_of_known (by rw [ids]; exact distinct) listed, if_pos known, List.append_nil,
          List.map_map]
        refine List.map_congr_left fun first _ => ?_
        by_cases same : first.dashboardId = r.dashboardId
        · exact (if_pos same).trans (add_whole same)
        · exact (if_neg same).trans (whole_append same).symm
      · have new : r.dashboardId ∉ ((firstsBy (fun r => r.dashboardId) rows).map (whole rows)).map id := by
          rw [ids, mem_keys_firstsBy]
          exact known
        have none : Dashboard.placements rows r.dashboardId = [] := by
          rw [← Dashboard.placements_filter, filter_key_eq_nil known]
          rfl
        have start : whole rows r = { id := r.dashboardId, name := r.dashboardName } := by
          rw [whole, none, List.reverse_nil]
        rw [collect_of_new new, if_neg known, List.map_append, List.map_singleton, ← start,
          add_whole rfl]
        congr 1
        refine List.map_congr_left fun first member => (whole_append ?_).symm
        intro same
        exact known (same ▸ List.mem_map_of_mem (mem_of_mem_firstsBy _ member))

end DashboardGroup

/-- Every dashboard is put together from its own rows, under the name in the first of them. -/
theorem buildDashboards_eq (rows : List DashboardRow) :
    buildDashboards rows = (firstsBy (fun r => r.dashboardId) rows).mapM fun r =>
      Dashboard.ofRows r.dashboardId r.dashboardName (Dashboard.placements rows r.dashboardId) := by
  rw [buildDashboards, DashboardGroup.ofRows_eq, List.mapM_map]
  simp only [Function.comp_def, DashboardGroup.assemble, DashboardGroup.whole, List.reverse_reverse]

theorem buildDashboard_eq {rows : List DashboardRow} {r : DashboardRow}
    (first : r ∈ firstsBy (fun r => r.dashboardId) rows) :
    buildDashboard rows r.dashboardId =
      Dashboard.ofRows r.dashboardId r.dashboardName
        (Dashboard.placements rows r.dashboardId) := by
  have own : firstsBy (fun r => r.dashboardId) (rows.filter (·.dashboardId == r.dashboardId)) = [r] := by
    rw [firstsBy_filter (fun r : DashboardRow => r.dashboardId) (· == r.dashboardId)]
    exact filter_eq_singleton (nodup_keys_firstsBy _ rows) first
  rw [buildDashboard, buildDashboards_eq, own, List.mapM_cons, Dashboard.placements_filter]
  cases Dashboard.ofRows r.dashboardId r.dashboardName
    (Dashboard.placements rows r.dashboardId) <;> rfl

theorem buildDashboard_of_alone {id name : String} {rows : List DashboardRow} (some : rows ≠ [])
    (ids : ∀ r ∈ rows, r.dashboardId = id) (names : ∀ r ∈ rows, r.dashboardName = name) :
    buildDashboard rows id = Dashboard.ofRows id name (Dashboard.placements rows id) := by
  obtain ⟨r, rest, rfl⟩ := List.exists_cons_of_ne_nil some
  have first : r ∈ firstsBy (fun r => r.dashboardId) (r :: rest) := by
    rw [firstsBy_cons]
    exact List.mem_cons_self
  have built := buildDashboard_eq first
  rwa [ids r List.mem_cons_self, names r List.mem_cons_self] at built

theorem buildDashboard_of_none {rows : List DashboardRow} {id : String}
    (none : id ∉ rows.map fun r => r.dashboardId) : buildDashboard rows id = .error (.notFound id) := by
  rw [buildDashboard, filter_key_eq_nil none]
  rfl

/-- A dashboard is put together from its rows, or it has none and is not found. -/
theorem buildDashboard_cases (rows : List DashboardRow) (id : String) :
    (∃ r ∈ firstsBy (fun r => r.dashboardId) rows, r.dashboardId = id ∧
        buildDashboard rows id =
          Dashboard.ofRows id r.dashboardName (Dashboard.placements rows id)) ∨
      id ∉ rows.map (fun r => r.dashboardId) ∧ buildDashboard rows id = .error (.notFound id) := by
  by_cases known : id ∈ rows.map fun r => r.dashboardId
  · obtain ⟨r, first, rfl⟩ := exists_firstsBy known
    exact Or.inl ⟨r, first, rfl, buildDashboard_eq first⟩
  · exact Or.inr ⟨known, buildDashboard_of_none known⟩

theorem buildDashboard_filter (rows : List DashboardRow) (id : String) :
    buildDashboard (rows.filter fun r => r.dashboardId == id) id = buildDashboard rows id := by
  rw [buildDashboard, List.filter_filter, buildDashboard]
  simp only [Bool.and_self]

theorem buildDashboards_eq_mapM (rows : List DashboardRow) :
    buildDashboards rows =
      (rows.map fun r => r.dashboardId).eraseDups.mapM (buildDashboard rows) := by
  rw [buildDashboards_eq, eraseDups_map, List.mapM_map]
  refine mapM_congr fun r first => ?_
  exact (buildDashboard_eq first).symm

/-! ## One dashboard -/

/-- Puts widgets into a widget on a dashboard.  Their own layouts are lost. -/
def PlacedWidget.nest (p : PlacedWidget) (children : List PlacedWidget) : PlacedWidget :=
  { p with widget := p.widget.withChildren (children.map PlacedWidget.widget) }

namespace Dashboard

/-- The node of a dashboard row, under its parent if that is on the dashboard. -/
def node (present : List String) (r : DashboardRow) : Node PlacedWidget :=
  ⟨r.widget.id, r.widget.parent.filter (· ∈ present), ⟨r.widget.widget, r.layout⟩⟩

/-- The nodes of the rows of one dashboard. -/
def nodes (rows : List DashboardRow) : List (Node PlacedWidget) :=
  rows.map (node (rows.map fun r => r.widget.id))

theorem ids_nodes (rows : List DashboardRow) :
    (nodes rows).map Node.id = rows.map fun r => r.widget.id :=
  List.map_map

theorem firsts_nodes (rows : List DashboardRow) : firsts (nodes rows) =
    (firstsBy (fun r => r.widget.id) rows).map (node (rows.map fun r => r.widget.id)) :=
  firstsBy_map Node.id _ rows

theorem ofRows_ok {id name : String} {rows : List DashboardRow} {d : Dashboard}
    (success : ofRows id name rows = .ok d) : d.id = id := by
  obtain ⟨_, _, rest⟩ := bind_eq_ok_iff.mp success
  obtain ⟨_, _, same⟩ := bind_eq_ok_iff.mp rest
  cases same
  rfl

end Dashboard

theorem id_of_buildDashboard {rows : List DashboardRow} {id : String} {d : Dashboard}
    (built : buildDashboard rows id = .ok d) : d.id = id := by
  rcases buildDashboard_cases rows id with ⟨r, _, _, found⟩ | ⟨_, found⟩
  · exact Dashboard.ofRows_ok (found.symm.trans built)
  · cases found.symm.trans built

namespace Dashboard

/-- The widgets at the top level with their layouts. -/
def places (d : Dashboard) : List (String × Layout) :=
  d.widgets.map fun p => (p.widget.id, p.layout)

def widgetIds (d : Dashboard) : List String := Widget.idsList (d.widgets.map PlacedWidget.widget)

mutual

theorem widget_fold_nest : (t : Hierarchy.Tree (Node PlacedWidget)) →
    (t.fold Node.value PlacedWidget.nest).widget =
      t.fold (fun n => n.value.widget) Widget.withChildren
  | .node n ts => by
      rw [Tree.fold, Tree.fold, ← map_widget_foldList ts]
      rfl

theorem map_widget_foldList : (ts : List (Hierarchy.Tree (Node PlacedWidget))) →
    (Tree.foldList Node.value PlacedWidget.nest ts).map PlacedWidget.widget =
      Tree.foldList (fun n => n.value.widget) Widget.withChildren ts
  | [] => rfl
  | t :: ts => by
      rw [Tree.foldList, Tree.foldList, List.map_cons, widget_fold_nest t, map_widget_foldList ts]

end

/-- Whether the parent of a row's widget is not on the dashboard. -/
def isTop (rows : List DashboardRow) (row : DashboardRow) : Bool :=
  (node (rows.map fun r => r.widget.id) row).parent.isNone

theorem filter_firsts_nodes (rows : List DashboardRow) :
    ((firsts (nodes rows)).filter fun n => n.parent.isNone).map (fun n => (n.id, n.value.layout)) =
      ((firstsBy (fun r => r.widget.id) rows).filter (isTop rows)).map
        fun r => (r.widget.id, r.layout) := by
  rw [firsts_nodes, List.filter_map, List.map_map]
  rfl

theorem ofRows_forest {id name : String} {rows : List DashboardRow} {d : Dashboard}
    (success : ofRows id name rows = .ok d) :
    ∃ forest, IsForest (firsts (nodes rows)) forest ∧
      d = ⟨id, name, forest.map (Tree.fold Node.value PlacedWidget.nest)⟩ := by
  obtain ⟨a, link, rest⟩ := bind_eq_ok_iff.mp success
  obtain ⟨ws, folded, made⟩ := bind_eq_ok_iff.mp rest
  cases made
  obtain ⟨forest, isForest, rfl⟩ := (Nodes.linked_of_link link).foldRoots_forest folded
  have items : (Nodes.ofList (nodes rows)).items.toList = firsts (nodes rows) :=
    Nodes.toList_ofList _
  change IsForest (Nodes.ofList (nodes rows)).items.toList forest at isForest
  rw [items] at isForest
  exact ⟨forest, isForest, rfl⟩

theorem id_of_mem_nodes {rows : List DashboardRow} :
    ∀ n ∈ firsts (nodes rows), n.value.widget.id = n.id := by
  intro n member
  obtain ⟨r, _, rfl⟩ := List.mem_map.mp (mem_of_mem_firsts member)
  rfl

/-- Every widget is on the dashboard once. -/
theorem widgetIds_ofRows {id name : String} {rows : List DashboardRow} {d : Dashboard}
    (success : ofRows id name rows = .ok d) :
    d.widgetIds.Perm ((firstsBy (fun r => r.widget.id) rows).map fun r => r.widget.id) := by
  obtain ⟨forest, isForest, rfl⟩ := ofRows_forest success
  have widgets : widgetIds ⟨id, name, forest.map (Tree.fold Node.value PlacedWidget.nest)⟩ =
      (Tree.labelsList forest).map fun n => n.value.widget.id := by
    rw [widgetIds, ← Tree.foldList_eq, map_widget_foldList, Widget.idsList_foldList]
  have own : (firsts (nodes rows)).map (fun n => n.value.widget.id) =
      (firstsBy (fun r => r.widget.id) rows).map fun r => r.widget.id := by
    rw [firsts_nodes, List.map_map]
    rfl
  rw [widgets, ← own]
  exact isForest.once.map _

/-- At the top level are the first rows of the widgets whose parent is not on the dashboard. -/
theorem ofRows_places {id name : String} {rows : List DashboardRow} {d : Dashboard}
    (success : ofRows id name rows = .ok d) : d.name = name ∧
      d.places = ((firstsBy (fun r => r.widget.id) rows).filter (isTop rows)).map
        (fun r => (r.widget.id, r.layout)) ∧
      ∀ i ∈ rows.map (fun r => r.widget.id), i ∈ d.widgetIds := by
  have all := widgetIds_ofRows success
  obtain ⟨forest, isForest, rfl⟩ := ofRows_forest success
  refine ⟨rfl, ?_, fun i member => ?_⟩
  · have top : ∀ t : Hierarchy.Tree (Node PlacedWidget),
        ((t.fold Node.value PlacedWidget.nest).widget.id,
          (t.fold Node.value PlacedWidget.nest).layout) =
            (t.root.value.widget.id, t.root.value.layout) := by
      intro t
      cases t
      rfl
    have roots : ((firsts (nodes rows)).filter fun n => n.parent.isNone).map
        (fun n => (n.id, n.value.layout)) =
          (forest.map Tree.root).map fun n => (n.value.widget.id, n.value.layout) := by
      rw [isForest.roots]
      apply List.map_congr_left
      intro n member
      rw [id_of_mem_nodes n (List.mem_filter.mp member).1]
    rw [← filter_firsts_nodes, roots, places, List.map_map, List.map_map]
    exact List.map_congr_left fun t _ => top t
  · exact all.mem_iff.mpr ((mem_keys_firstsBy _).mpr member)

/-- The widget of a row, under its parent if that is on the dashboard. -/
def cutRow (present : List String) (r : DashboardRow) : WidgetRow :=
  { r.widget with parent := r.widget.parent.filter (· ∈ present) }

/-- What is in the widgets of a dashboard is what its rows say. -/
theorem readFrom_ofRows {id name : String} {rows : List DashboardRow} {d : Dashboard}
    (success : ofRows id name rows = .ok d) :
    Widget.ReadFromAll ((firstsBy (fun r => r.widget.id) rows).map DashboardRow.widget)
      (d.widgets.map PlacedWidget.widget) := by
  obtain ⟨forest, isForest, rfl⟩ := ofRows_forest success
  -- The same forest without layouts is one of rows of widgets.
  let bare (n : Node PlacedWidget) : Node Widget := ⟨n.id, n.parent, n.value.widget⟩
  let counted := firstsBy (fun r : DashboardRow => r.widget.id) rows
  let present := rows.map fun r => r.widget.id
  have nodes_ : (firsts (nodes rows)).map bare =
      (counted.map (cutRow present)).map WidgetRow.node := by
    rw [firsts_nodes, List.map_map, List.map_map]
    rfl
  have widgets : (forest.map (Tree.fold Node.value PlacedWidget.nest)).map PlacedWidget.widget =
      Tree.foldList Node.value Widget.withChildren (Tree.mapList bare forest) := by
    rw [← Tree.foldList_eq, map_widget_foldList, Tree.foldList_mapList]
  have follows : Tree.FollowsAll (childNodes ((counted.map (cutRow present)).map WidgetRow.node))
      (Tree.mapList bare forest) := by
    refine Tree.FollowsAll.mapList (fun n => ?_) forest isForest.children
    rw [childNodes, ← nodes_, List.filter_map]
    rfl
  have known : ∀ n ∈ Tree.labelsList (Tree.mapList bare forest),
      n ∈ (counted.map (cutRow present)).map WidgetRow.node := by
    rw [Tree.labelsList_mapList, ← nodes_]
    exact (isForest.once.map bare).subset
  have read := Widget.readFromAll_foldList (Tree.mapList bare forest) follows known
  rw [widgets]
  refine Widget.ReadFromAll.congr (fun r member => ?_) _ read fun r member _ => ?_
  · obtain ⟨row, inside, rfl⟩ := List.mem_map.mp member
    exact ⟨row.widget.parent, List.mem_map_of_mem inside⟩
  · obtain ⟨row, inside, rfl⟩ := List.mem_map.mp member
    have here : row.widget.id ∈ present := List.mem_map_of_mem (mem_of_mem_firstsBy _ inside)
    rw [childRows, childRows, List.filter_map, List.filter_map, List.map_map, List.map_map]
    congr 1
    refine List.filter_congr fun child _ => ?_
    by_cases under : child.widget.parent = some row.widget.id
    · simp [cutRow, under, here]
    · have apart : (child.widget.parent.filter (· ∈ present)) ≠ some row.widget.id :=
        fun same => under (Option.filter_eq_some_iff.mp same).1
      simp [cutRow, under, apart]

/-! ## Faults -/

/-- The fault of rows: the first widget from which no way up ends. -/
def Fault (rows : List DashboardRow) : TreeError → Prop :=
  First (StrayIn (firsts (nodes rows))) (firsts (nodes rows))

theorem ofRows_fails (id name : String) (rows : List DashboardRow) :
    FailsWith (ofRows id name rows) (Fault rows) := by
  have items : (Nodes.ofList (nodes rows)).items.toList = firsts (nodes rows) :=
    Nodes.toList_ofList _
  have clean : ∀ n ∈ (Nodes.ofList (nodes rows)).items.toList,
      ∀ e, ¬ DanglingIn (Nodes.ofList (nodes rows)).ids n e := by
    intro n member
    rw [none_danglingIn_iff]
    intro parent given
    rw [items] at member
    obtain ⟨r, _, rfl⟩ := List.mem_map.mp (mem_of_mem_firsts member)
    have present := (Option.filter_eq_some_iff.mp given).2
    rw [Nodes.mem_ids_ofList, ids_nodes]
    exact of_decide_eq_true present
  obtain ⟨a, link⟩ := (Nodes.link_fails _).ok_iff.mpr (none_first_iff.mpr clean)
  have folding := (Nodes.linked_of_link link).foldRoots_fails PlacedWidget.nest
  rw [items] at folding
  have made : ofRows id name rows =
      (fun widgets => (⟨id, name, widgets⟩ : Dashboard)) <$> a.foldRoots PlacedWidget.nest := by
    change ((Nodes.ofList (nodes rows)).link >>= fun a => do
      return (⟨id, name, ← a.foldRoots PlacedWidget.nest⟩ : Dashboard)) = _
    rw [link, ok_bind]
    rfl
  rw [made]
  exact folding.map _

/-- Cutting ways up short does no harm: where a way ends, a shorter one ends as well. -/
theorem grounded_nodes {ends : List (String × Option String)}
    (distinct : (ends.map Prod.fst).Nodup) {rows : List DashboardRow}
    (known : ∀ r ∈ rows, (r.widget.id, r.widget.parent) ∈ ends) {id : String}
    (grounded : Grounded ends id) :
    ∀ n ∈ firsts (nodes rows), n.id = id → Grounded (links (firsts (nodes rows))) id := by
  have single : ∀ {i : String} {p q : Option String}, (i, p) ∈ ends → (i, q) ∈ ends → p = q := by
    intro i p q left right
    have equal := List.inj_on_of_nodup_map distinct left right rfl
    exact congrArg Prod.snd equal
  induction grounded with
  | root top =>
      intro n member same
      obtain ⟨r, inside, rfl⟩ := List.mem_map.mp (mem_of_mem_firsts member)
      have is : r.widget.id = _ := same
      have none := single (is ▸ known r inside) top
      refine Grounded.root (mem_links.mpr ⟨_, member, same, ?_⟩)
      simp [node, none]
  | @under id parent up _ ih =>
      intro n member same
      obtain ⟨r, inside, rfl⟩ := List.mem_map.mp (mem_of_mem_firsts member)
      have is : r.widget.id = id := same
      have given := single (is ▸ known r inside) up
      by_cases present : parent ∈ rows.map fun r => r.widget.id
      · have listed : parent ∈ (nodes rows).map Node.id := (ids_nodes rows).symm ▸ present
        obtain ⟨m, first, is⟩ := List.mem_map.mp (mem_ids_firsts.mpr listed)
        refine Grounded.under (mem_links.mpr ⟨_, member, same, ?_⟩) (ih m first is)
        simp only [node, given, Option.filter_some, present, decide_true, if_true]
      · -- The parent is not on the dashboard, so the widget is at the top of it.
        refine Grounded.root (mem_links.mpr ⟨_, member, same, ?_⟩)
        simp only [node, given, Option.filter_some, present, decide_false, Bool.false_eq_true,
          if_false]

theorem exists_ofRows {ends : List (String × Option String)}
    (distinct : (ends.map Prod.fst).Nodup) {rows : List DashboardRow}
    (known : ∀ r ∈ rows, (r.widget.id, r.widget.parent) ∈ ends)
    (grounded : ∀ r ∈ rows, Grounded ends r.widget.id) (id name : String) :
    ∃ d, ofRows id name rows = .ok d := by
  refine (ofRows_fails id name rows).ok_iff.mpr (none_first_iff.mpr ?_)
  rintro n member e ⟨stray, _⟩
  obtain ⟨r, inside, rfl⟩ := List.mem_map.mp (mem_of_mem_firsts member)
  exact stray (grounded_nodes distinct known (grounded r inside) _ member rfl)

/-- Whether a widget is below itself, going by what rows say. -/
def Cyclic (rows : List DashboardRow) : Prop :=
  ∃ id, TransGen (fun i p => ∃ r ∈ rows, r.widget.id = i ∧ r.widget.parent = some p) id id

theorem mem_links_nodes {rows : List DashboardRow} {i p : String} :
    (i, some p) ∈ links (firsts (nodes rows)) ↔
      (∃ r ∈ firstsBy (fun r => r.widget.id) rows, r.widget.id = i ∧ r.widget.parent = some p) ∧
        p ∈ rows.map fun r => r.widget.id := by
  rw [mem_links, firsts_nodes]
  constructor
  · rintro ⟨n, member, rfl, up⟩
    obtain ⟨r, first, rfl⟩ := List.mem_map.mp member
    obtain ⟨given, present⟩ := Option.filter_eq_some_iff.mp up
    exact ⟨⟨r, first, rfl, given⟩, of_decide_eq_true present⟩
  · rintro ⟨⟨r, first, rfl, given⟩, present⟩
    exact ⟨_, List.mem_map_of_mem first, rfl,
      Option.filter_eq_some_iff.mpr ⟨given, decide_eq_true present⟩⟩

/-- Parents that are not on the dashboard are on no way that comes back. -/
theorem transGen_links {rows : List DashboardRow} {i j : String}
    (way : TransGen (fun i p => ∃ r ∈ firstsBy (fun r => r.widget.id) rows,
      r.widget.id = i ∧ r.widget.parent = some p) i j)
    (present : j ∈ rows.map fun r => r.widget.id) :
    TransGen (fun i p => (i, some p) ∈ links (firsts (nodes rows))) i j := by
  induction way using TransGen.head_induction_on with
  | single up => exact TransGen.single (mem_links_nodes.mpr ⟨up, present⟩)
  | head up rest ih =>
      refine TransGen.head (mem_links_nodes.mpr ⟨up, ?_⟩) ih
      obtain ⟨_, ⟨r, first, rfl, _⟩, _⟩ := TransGen.head'_iff.mp rest
      exact List.mem_map_of_mem (mem_of_mem_firstsBy _ first)

theorem cyclic_iff (rows : List DashboardRow) :
    Cyclic (firstsBy (fun r => r.widget.id) rows) ↔
      ∃ n ∈ firsts (nodes rows), ¬ Grounded (links (firsts (nodes rows))) n.id := by
  constructor
  · rintro ⟨i, cycle⟩
    obtain ⟨_, ⟨r, first, rfl, _⟩, _⟩ := TransGen.head'_iff.mp cycle
    have around := transGen_links cycle (List.mem_map_of_mem (mem_of_mem_firstsBy _ first))
    have member : node (rows.map fun r => r.widget.id) r ∈ firsts (nodes rows) := by
      rw [firsts_nodes]
      exact List.mem_map_of_mem first
    exact ⟨_, member, fun grounded => grounded.not_below_self parent_unique around⟩
  · rintro ⟨n, member, stray⟩
    by_contra none
    refine stray (grounded_of_acyclic (fun i p up => ?_) (fun i cycle => none ⟨i, ?_⟩) n.id ?_)
    · have ids : (links (firsts (nodes rows))).map Prod.fst = (firsts (nodes rows)).map Node.id :=
        List.map_map
      rw [ids, mem_ids_firsts, ids_nodes]
      exact (mem_links_nodes.mp up).2
    · exact TransGen.mono (fun _ _ up => (mem_links_nodes.mp up).1) _ _ cycle
    · exact List.mem_map_of_mem (mem_links.mpr ⟨n, member, rfl, rfl⟩)

theorem exists_fault_iff (rows : List DashboardRow) :
    (∃ e, Fault rows e) ↔ Cyclic (firstsBy (fun r => r.widget.id) rows) := by
  rw [cyclic_iff]
  constructor
  · rintro ⟨e, before, n, after, split, _, stray, _⟩
    exact ⟨n, by simp [split], stray⟩
  · rintro ⟨n, member, stray⟩
    by_contra none
    have clean := none_first_iff.mp (fun e first => none ⟨e, first⟩) n member
    exact clean (.cycle n.id) ⟨stray, rfl⟩

/-! ## What is rebuilt -/

/-- The rows of a dashboard that count: of each widget the first one. -/
def counted (rows : List DashboardRow) (id : String) : List DashboardRow :=
  firstsBy (fun r => r.widget.id) (placements rows id)

/-- Whether a dashboard is what its rows say: at its top level, in the order of the rows and each with
the layout of its row, the widgets whose parent is not on it, and every other widget once inside its
parent. -/
structure RebuiltFrom (rows : List DashboardRow) (id : String) (d : Dashboard) : Prop where
  own : d.id = id
  named : (rows.find? (·.dashboardId == id)).map (·.dashboardName) = some d.name
  top : d.places = ((counted rows id).filter (isTop (counted rows id))).map
    fun r => (r.widget.id, r.layout)
  nested : Widget.ReadFromAll ((counted rows id).map DashboardRow.widget)
    (d.widgets.map PlacedWidget.widget)
  once : d.widgetIds.Perm ((placements rows id).map fun r => r.widget.id).eraseDups

theorem isTop_counted (rows : List DashboardRow) (id : String) :
    isTop (counted rows id) = isTop (placements rows id) := by
  funext r
  have present (i : String) : i ∈ (counted rows id).map (fun r => r.widget.id) ↔
      i ∈ (placements rows id).map fun r => r.widget.id :=
    mem_keys_firstsBy _
  simp only [isTop, node, present]

theorem rebuiltFrom_ofRows {rows : List DashboardRow} {r : DashboardRow} {d : Dashboard}
    (first : r ∈ firstsBy (fun r => r.dashboardId) rows)
    (success : ofRows r.dashboardId r.dashboardName (placements rows r.dashboardId) = .ok d) :
    RebuiltFrom rows r.dashboardId d := by
  obtain ⟨name, places, _⟩ := ofRows_places success
  constructor
  · exact ofRows_ok success
  · rw [find?_of_mem_firstsBy _ first, name]
    rfl
  · rw [isTop_counted]
    exact places
  · exact readFrom_ofRows success
  · rw [eraseDups_map]
    exact widgetIds_ofRows success

end Dashboard

open Dashboard in
/-- The first dashboard that cannot be put together fails with its own fault. -/
theorem buildDashboards_fails (rows : List DashboardRow) :
    FailsWith (buildDashboards rows)
      (First (fun r => Fault (placements rows r.dashboardId))
        (firstsBy (fun r => r.dashboardId) rows)) := by
  have each (r : DashboardRow) := ofRows_fails r.dashboardId r.dashboardName
    (placements rows r.dashboardId)
  rw [buildDashboards_eq]
  exact FailsWith.mapM each _

namespace Dashboard

theorem known_of_cyclic {rows : List DashboardRow} {id : String} (cyclic : Cyclic (counted rows id)) :
    id ∈ rows.map fun r => r.dashboardId := by
  obtain ⟨i, around⟩ := cyclic
  obtain ⟨_, ⟨r, first, _⟩, _⟩ := TransGen.head'_iff.mp around
  obtain ⟨inside, own⟩ := List.mem_filter.mp (mem_of_mem_firstsBy _ first)
  exact List.mem_map.mpr ⟨r, inside, by simpa using (Bool.and_eq_true_iff.mp own).1⟩

theorem exists_ofRows_iff {rows : List DashboardRow} {id : String} (name : String) :
    (∃ d, ofRows id name (placements rows id) = .ok d) ↔ ¬ Cyclic (counted rows id) := by
  rw [(ofRows_fails _ _ _).ok_iff, counted, ← exists_fault_iff, not_exists]

end Dashboard

open Dashboard

theorem eq_cycle_of_buildDashboards {rows : List DashboardRow} {e : TreeError}
    (failed : buildDashboards rows = .error e) : ∃ id, e = .cycle id := by
  obtain ⟨_, _, _, _, _, _, n, _, _, _, _, rfl⟩ := (buildDashboards_fails rows e).mp failed
  exact ⟨n.id, rfl⟩

theorem exists_buildDashboards_iff (rows : List DashboardRow) :
    (∃ ds, buildDashboards rows = .ok ds) ↔ ∀ id, ¬ Cyclic (counted rows id) := by
  rw [(buildDashboards_fails rows).ok_iff, none_first_iff]
  constructor
  · intro clean id cyclic
    obtain ⟨r, first, rfl⟩ := exists_firstsBy (known_of_cyclic cyclic)
    obtain ⟨e, fault⟩ := (exists_fault_iff _).mpr cyclic
    exact clean r first e fault
  · intro acyclic r _ e fault
    exact acyclic r.dashboardId ((exists_fault_iff _).mp ⟨e, fault⟩)

theorem buildDashboards_eq_cycle_iff (rows : List DashboardRow) :
    (∃ id, buildDashboards rows = .error (.cycle id)) ↔ ∃ id, Cyclic (counted rows id) := by
  rw [← not_iff_not, not_exists (p := fun id => Cyclic (counted rows id)),
    ← exists_buildDashboards_iff]
  cases built : buildDashboards rows with
  | ok ds => simp
  | error e =>
      obtain ⟨id, rfl⟩ := eq_cycle_of_buildDashboards built
      simp

theorem buildDashboard_eq_notFound_iff {rows : List DashboardRow} {id : String} :
    buildDashboard rows id = .error (.notFound id) ↔ id ∉ rows.map fun r => r.dashboardId := by
  refine ⟨fun failed known => ?_, buildDashboard_of_none⟩
  rcases buildDashboard_cases rows id with ⟨r, _, _, found⟩ | ⟨none, _⟩
  · -- Only a cycle is a fault of rows that there are.
    obtain ⟨_, _, _, _, _, _, other⟩ := (ofRows_fails _ _ _ _).mp (found.symm.trans failed)
    cases other
  · exact none known

theorem exists_buildDashboard_iff {rows : List DashboardRow} {id : String} :
    (∃ d, buildDashboard rows id = .ok d) ↔
      id ∈ rows.map (fun r => r.dashboardId) ∧ ¬ Cyclic (counted rows id) := by
  rcases buildDashboard_cases rows id with ⟨r, first, own, found⟩ | ⟨none, found⟩
  · have known : id ∈ rows.map fun r => r.dashboardId :=
      own ▸ List.mem_map_of_mem (mem_of_mem_firstsBy _ first)
    rw [found, exists_ofRows_iff]
    exact (and_iff_right known).symm
  · rw [found]
    simp [none]

theorem rebuiltFrom_of_buildDashboard {rows : List DashboardRow} {id : String} {d : Dashboard}
    (built : buildDashboard rows id = .ok d) : RebuiltFrom rows id d := by
  rcases buildDashboard_cases rows id with ⟨r, first, rfl, found⟩ | ⟨_, found⟩
  · exact rebuiltFrom_ofRows first (found.symm.trans built)
  · cases found.symm.trans built

/-- Dashboards are rebuilt one by one: each in the order in which they first appear, from nothing but
its own rows, and every failure is that of a dashboard with a widget below itself. -/
theorem dashboards_rebuilt (rows : List DashboardRow) :
    buildDashboards rows =
        (rows.map fun r => r.dashboardId).eraseDups.mapM (buildDashboard rows) ∧
      (∀ e, buildDashboards rows = .error e → ∃ id, e = .cycle id) ∧
      ((∃ id, buildDashboards rows = .error (.cycle id)) ↔ ∃ id, Cyclic (counted rows id)) ∧
      ∀ id,
        (∀ rows' : List DashboardRow,
          rows'.filter (·.dashboardId == id) = rows.filter (·.dashboardId == id) →
            buildDashboard rows' id = buildDashboard rows id) ∧
        (buildDashboard rows id = .error (.notFound id) ↔ id ∉ rows.map fun r => r.dashboardId) ∧
        ((∃ d, buildDashboard rows id = .ok d) ↔
          id ∈ rows.map (fun r => r.dashboardId) ∧ ¬ Cyclic (counted rows id)) ∧
        ∀ d, buildDashboard rows id = .ok d → RebuiltFrom rows id d := by
  refine ⟨buildDashboards_eq_mapM rows, fun e => eq_cycle_of_buildDashboards,
    buildDashboards_eq_cycle_iff rows, fun id => ⟨fun rows' same => ?_,
      buildDashboard_eq_notFound_iff, exists_buildDashboard_iff,
      fun d => rebuiltFrom_of_buildDashboard⟩⟩
  rw [buildDashboard, same, ← buildDashboard]

/-- Two dashboards, one without a widget; of the other the name changes, and the parent of a widget. -/
def interleaved : List DashboardRow :=
  [⟨"x", "X", { id := "b", name := "B", parent := some "a" }, { x := 1 }⟩,
    ⟨"y", "Y", { id := noWidgetId, name := "" }, {}⟩,
    ⟨"x", "renamed", { id := "a", name := "A" }, { x := 2 }⟩,
    ⟨"x", "X", { id := "b", name := "B" }, { x := 3 }⟩]

theorem counted_interleaved : Dashboard.counted interleaved "x" =
    [⟨"x", "X", { id := "b", name := "B", parent := some "a" }, { x := 1 }⟩,
      ⟨"x", "renamed", { id := "a", name := "A" }, { x := 2 }⟩] ∧
    Dashboard.counted interleaved "y" = [] := by
  have a : isNilUuid "a" = false := by decide +kernel
  have b : isNilUuid "b" = false := by decide +kernel
  have none : isNilUuid noWidgetId = true := by decide +kernel
  constructor <;>
    simp [Dashboard.counted, Dashboard.placements, interleaved, firstsBy, List.eraseDupsBy_cons, a, b,
      none]

theorem dashboards_rebuilt_interleaved :
    ∃ d d', buildDashboards interleaved = .ok [d, d'] ∧
      Dashboard.RebuiltFrom interleaved "x" d ∧ Dashboard.RebuiltFrom interleaved "y" d' ∧
      d.name = "X" ∧ d.places = [("a", { x := 2 })] ∧ d'.name = "Y" ∧ d'.places = [] := by
  obtain ⟨all, _, _, one⟩ := dashboards_rebuilt interleaved
  obtain ⟨x, y⟩ := counted_interleaved
  obtain ⟨_, _, found, rebuilt⟩ := one "x"
  obtain ⟨_, _, found', rebuilt'⟩ := one "y"
  obtain ⟨d, built⟩ := found.mpr ⟨by simp [interleaved], by
    rw [x]
    rintro ⟨i, cycle⟩
    obtain ⟨_, first, _⟩ := TransGen.head'_iff.mp cycle
    obtain ⟨_, _, last⟩ := TransGen.tail'_iff.mp cycle
    -- The only way up is from `b` to `a`.
    obtain ⟨rfl, _⟩ : i = "b" ∧ _ = "a" := by simpa [eq_comm] using first
    simp at last⟩
  obtain ⟨d', built'⟩ := found'.mpr ⟨by simp [interleaved], by
    rw [y]
    rintro ⟨i, cycle⟩
    obtain ⟨_, ⟨_, member, _⟩, _⟩ := TransGen.head'_iff.mp cycle
    cases member⟩
  have first := rebuilt d built
  have second := rebuilt' d' built'
  refine ⟨d, d', ?_, first, second, ?_, ?_, ?_, ?_⟩
  · have ids : (interleaved.map fun r => r.dashboardId).eraseDups = ["x", "y"] := by decide +kernel
    rw [all, ids]
    simp only [List.mapM_cons, List.mapM_nil, built, built', ok_bind]
    rfl
  · simpa [interleaved] using first.named.symm
  · rw [first.top, x]
    rfl
  · simpa [interleaved] using second.named.symm
  · rw [second.top, y]
    rfl

end QueryBoard
