import QueryBoard.Proofs.Firsts
import QueryBoard.Proofs.Hierarchy.Dashboards
import QueryBoard.Proofs.Hierarchy.Extraction

/-!
# One widget out of rows

For one widget the rows are linked without the parent of its row, so its node is at the top and on
no cycle.  Reading it fails with the first other row whose parent has no row, else only if no row
has its id; it holds the rows that descend from it, whatever the other rows are.

Where all rows can be put together, no way up comes back to its start.  Then the row of the widget
hangs on none of the rows below it, and leaving its parent out makes no difference to what is read.
-/

set_option autoImplicit false

namespace QueryBoard

open Hierarchy
open Relation (ReflTransGen TransGen)

/-! ## Rows and their nodes -/

/-- The row with an id loses its parent. -/
def WidgetRow.cut (id : String) (r : WidgetRow) : WidgetRow :=
  { r with parent := if r.id = id then none else r.parent }

/-- The nodes of rows, the one with an id without parent. -/
def cutNodes (rows : List WidgetRow) (id : String) : Nodes Widget :=
  Nodes.ofList ((rows.map (WidgetRow.cut id)).map WidgetRow.node)

theorem buildWidget_eq (rows : List WidgetRow) (id : String) :
    buildWidget rows id =
      (cutNodes rows id).link >>= fun a => a.foldSubtree id Widget.withChildren := by
  rw [cutNodes, List.map_map]
  rfl

/-- The first row of every id, the one with a given id without parent. -/
def cutFirsts (rows : List WidgetRow) (id : String) : List WidgetRow :=
  (firstsBy (fun r => r.id) rows).map (WidgetRow.cut id)

theorem map_id_cutFirsts (rows : List WidgetRow) (id : String) :
    (cutFirsts rows id).map (fun r => r.id) = (firstsBy (fun r => r.id) rows).map fun r => r.id := by
  rw [cutFirsts, List.map_map]
  rfl

section

variable {rows : List WidgetRow} {id : String}

theorem toList_cutNodes :
    (cutNodes rows id).items.toList = (cutFirsts rows id).map WidgetRow.node := by
  rw [cutNodes, Nodes.toList_ofList, cutFirsts, List.map_map, List.map_map]
  exact firstsBy_map Node.id (WidgetRow.node ∘ WidgetRow.cut id) rows

theorem mem_ids_cutNodes {i : String} :
    i ∈ (cutNodes rows id).ids ↔ i ∈ rows.map fun r => r.id := by
  rw [cutNodes, Nodes.mem_ids_ofList, List.map_map, List.map_map]
  rfl

/-- The node that is read is there if a row is, and has no parent. -/
theorem exists_cutNode (known : id ∈ rows.map fun r => r.id) :
    ∃ i, ((cutNodes rows id).node i).id = id ∧ ((cutNodes rows id).node i).parent = none := by
  obtain ⟨r, first, own⟩ := exists_firstsBy known
  have member : (r.cut id).node ∈ (cutNodes rows id).items.toList := by
    rw [toList_cutNodes]
    exact List.mem_map_of_mem (List.mem_map_of_mem first)
  obtain ⟨i, is⟩ := Nodes.exists_node member
  exact ⟨i, by rw [is]; exact own, by rw [is]; simp [WidgetRow.node, WidgetRow.cut, own]⟩

end

/-! ## Faults -/

/-- A row with another id than the given one whose parent has no row. -/
def DanglingBeside (id : String) (ids : List String) (r : WidgetRow) (e : TreeError) : Prop :=
  r.id ≠ id ∧ ∃ parent, r.parent = some parent ∧ parent ∉ ids ∧ e = .danglingParent r.id parent

theorem none_danglingBeside_iff {id : String} {ids : List String} {rs : List WidgetRow} :
    (∀ e, ¬ First (DanglingBeside id ids) rs e) ↔
      ∀ r ∈ rs, r.id ≠ id → ∀ p, r.parent = some p → p ∈ ids := by
  rw [none_first_iff]
  constructor
  · intro clean r member other p given
    by_contra missing
    exact clean r member _ ⟨other, p, given, missing, rfl⟩
  · rintro known r member e ⟨other, p, given, missing, _⟩
    exact missing (known r member other p given)

theorem danglingIn_cut {id : String} {ids : List String} {r : WidgetRow} {e : TreeError} :
    DanglingIn ids (r.cut id).node e ↔ DanglingBeside id ids r e := by
  by_cases own : r.id = id
  · simp [DanglingIn, DanglingBeside, WidgetRow.node, WidgetRow.cut, own]
  · simp [DanglingIn, DanglingBeside, WidgetRow.node, WidgetRow.cut, own]

theorem link_cutNodes_fails (rows : List WidgetRow) (id : String) :
    FailsWith (cutNodes rows id).link
      (First (DanglingBeside id (rows.map fun r => r.id)) (firstsBy (fun r => r.id) rows)) := by
  have same : (fun r : WidgetRow => DanglingIn (cutNodes rows id).ids (r.cut id).node) =
      DanglingBeside id (rows.map fun r => r.id) := by
    funext r e
    rw [danglingIn_cut]
    simp only [DanglingBeside, mem_ids_cutNodes]
  refine (cutNodes rows id).link_fails.congr fun e => ?_
  rw [toList_cutNodes, cutFirsts, First.map_iff, First.map_iff, same]

/-- Reading a widget fails with the first other row whose parent has no row, else for want of a row
with its id. -/
theorem buildWidget_fails (rows : List WidgetRow) (id : String) :
    FailsWith (buildWidget rows id) fun e =>
      First (DanglingBeside id (rows.map fun r => r.id)) (firstsBy (fun r => r.id) rows) e ∨
        (∀ e', ¬ First (DanglingBeside id (rows.map fun r => r.id))
          (firstsBy (fun r => r.id) rows) e') ∧
        id ∉ rows.map (fun r => r.id) ∧ e = .notFound id := by
  rw [buildWidget_eq]
  refine (link_cutNodes_fails rows id).bind fun a link => ?_
  have linked := Nodes.linked_of_link link
  by_cases known : id ∈ rows.map fun r => r.id
  · obtain ⟨i, own, top⟩ := exists_cutNode known
    obtain ⟨t, _, folded⟩ := linked.foldSubtree_top Widget.withChildren top
    rw [own] at folded
    rw [folded]
    exact (FailsWith.ok _).congr fun e => by simp [known]
  · have unknown : id ∉ (cutNodes rows id).ids := fun member => known (mem_ids_cutNodes.mp member)
    rw [linked.foldSubtree_unknown Widget.withChildren unknown]
    exact (FailsWith.error _).congr fun e => by simp [known]

/-! ## The widget that is read -/

/-- What is read under an id holds the first rows that descend from it. -/
theorem spans_of_buildWidget {rows : List WidgetRow} {id : String} {w : Widget}
    (success : buildWidget rows id = .ok w) : w.Spans (cutFirsts rows id) id := by
  rw [buildWidget_eq] at success
  obtain ⟨a, link, folded⟩ := bind_eq_ok_iff.mp success
  have linked := Nodes.linked_of_link link
  by_cases known : id ∈ rows.map fun r => r.id
  · obtain ⟨i, own, top⟩ := exists_cutNode known
    obtain ⟨t, isSubtree, same⟩ := linked.foldSubtree_top Widget.withChildren top
    rw [own, toList_cutNodes] at isSubtree
    rw [own, folded] at same
    cases same
    exact Widget.spans_fold isSubtree
  · have unknown : id ∉ (cutNodes rows id).ids := fun member => known (mem_ids_cutNodes.mp member)
    rw [linked.foldSubtree_unknown Widget.withChildren unknown] at folded
    cases folded

/-- The widget with an id is found, if the parents of all other rows are there. -/
theorem exists_buildWidget (rows : List WidgetRow) (id : String)
    (member : id ∈ rows.map fun r => r.id)
    (known : ∀ r ∈ firstsBy (fun r => r.id) rows, r.id ≠ id → ∀ p, r.parent = some p →
      p ∈ rows.map fun r => r.id) :
    ∃ w, buildWidget rows id = .ok w ∧ w.Spans (cutFirsts rows id) id := by
  obtain ⟨w, built⟩ := (buildWidget_fails rows id).ok_iff.mpr <| by
    rintro e (dangling | ⟨_, missing, _⟩)
    · exact none_danglingBeside_iff.mpr known e dangling
    · exact missing member
  exact ⟨w, built, spans_of_buildWidget built⟩

theorem names_cutFirsts {rows : List WidgetRow} {id i parent : String} :
    Names ((cutFirsts rows id).map WidgetRow.node) i parent ↔
      i ≠ id ∧ Names ((firstsBy (fun r => r.id) rows).map WidgetRow.node) i parent := by
  simp only [Names, mem_links, cutFirsts, List.map_map, List.mem_map, Function.comp_apply,
    exists_exists_and_eq_and]
  constructor
  · rintro ⟨r, first, rfl, given⟩
    by_cases own : r.id = id
    · simp [WidgetRow.node, WidgetRow.cut, own] at given
    · exact ⟨own, r, first, rfl, by simpa [WidgetRow.node, WidgetRow.cut, own] using given⟩
  · rintro ⟨other, r, first, rfl, given⟩
    have apart : r.id ≠ id := other
    exact ⟨r, first, rfl, by simpa [WidgetRow.node, WidgetRow.cut, apart] using given⟩

/-- The rows that descend from an id are the same when its row has lost its parent. -/
theorem descends_cutFirsts {rows : List WidgetRow} {id i : String} :
    ReflTransGen (Names ((cutFirsts rows id).map WidgetRow.node)) i id ↔
      ReflTransGen (Names ((firstsBy (fun r => r.id) rows).map WidgetRow.node)) i id :=
  ⟨reach_first fun _ _ _ up => (names_cutFirsts.mp up).2,
    reach_first fun _ _ apart up => names_cutFirsts.mpr ⟨apart, up⟩⟩

/-- Where an id is not its own ancestor, leaving out the parent of its row makes no difference. -/
theorem readFrom_firsts {rows : List WidgetRow} {id : String} {w : Widget}
    (acyclic : ¬ TransGen (Names ((firstsBy (fun r => r.id) rows).map WidgetRow.node)) id id)
    (spans : w.Spans (cutFirsts rows id) id) : w.ReadFrom (firstsBy (fun r => r.id) rows) := by
  refine Widget.ReadFrom.congr (fun r member => ?_) w spans.read fun r member inside => ?_
  · obtain ⟨own, first, rfl⟩ := List.mem_map.mp member
    exact ⟨own.parent, first⟩
  · obtain ⟨_, descends⟩ := (spans.holds r.id).mp inside
    rw [descends_cutFirsts] at descends
    rw [childRows, childRows, cutFirsts, List.filter_map, List.map_map]
    refine congrArg (List.map fun c : WidgetRow => c.id) (List.filter_congr fun c first => ?_)
    by_cases own : c.id = id
    · have apart : c.parent ≠ some r.id := fun up => acyclic
        (TransGen.head' (mem_links.mpr ⟨c.node, List.mem_map_of_mem first, own, up⟩) descends)
      simp [WidgetRow.cut, own, apart]
    · simp [WidgetRow.cut, own]

/-! ## The same widget among all -/

theorem firsts_nodes_eq (rows : List WidgetRow) :
    firsts (rows.map WidgetRow.node) = (firstsBy (fun r => r.id) rows).map WidgetRow.node :=
  firstsBy_map Node.id WidgetRow.node rows

theorem buildWidgets_firsts (rows : List WidgetRow) :
    buildWidgets (firstsBy (fun r => r.id) rows) = buildWidgets rows := by
  have same : Nodes.ofList ((firstsBy (fun r => r.id) rows).map WidgetRow.node) =
      Nodes.ofList (rows.map WidgetRow.node) := by
    rw [← firsts_nodes_eq, Nodes.ofList_firsts]
  exact congrArg (fun ns : Nodes Widget => ns.link >>= fun a => a.foldRoots Widget.withChildren) same

/-- Where rows have distinct ids, the widget that is read from them under an id is the one with this
id in the forest of all of them. -/
theorem filter_buildWidgets {rows : List WidgetRow} {ws : List Widget} {w : Widget}
    (distinct : (rows.map fun r => r.id).Nodup) (built : buildWidgets rows = .ok ws)
    (known : w.id ∈ rows.map fun r => r.id) (read : w.ReadFrom rows) :
    ((Widget.nodesList ws).filter fun v => v.id == w.id) = [w] := by
  have listed : (Widget.idsList ws).Perm (rows.map fun r => r.id) := by
    have perm := idsList_buildWidgets built
    rwa [distinct.dedup] at perm
  have occurs : w.id ∈ (Widget.nodesList ws).map fun v => v.id := by
    rw [Widget.map_id_nodesList]
    exact listed.symm.subset known
  obtain ⟨v, inside, same⟩ := List.mem_map.mp occurs
  have once : ((Widget.nodesList ws).map fun v => v.id).Nodup := by
    rw [Widget.map_id_nodesList]
    exact listed.nodup_iff.mpr distinct
  have equal : v = w := Widget.ReadFrom.unique distinct v w
    (Widget.ReadFromAll.nodesList ws (readFromAll_buildWidgets distinct built) v inside) read same
  rw [← equal]
  exact filter_eq_singleton once inside

/-- Rows that can be put together have all parents, and none of their ids is its own ancestor. -/
theorem known_and_acyclic {rows : List WidgetRow} {ws : List Widget}
    (built : buildWidgets rows = .ok ws) :
    (∀ r ∈ firstsBy (fun r => r.id) rows, ∀ p, r.parent = some p → p ∈ rows.map fun r => r.id) ∧
      ∀ id ∈ rows.map fun r => r.id,
        ¬ TransGen (Names ((firstsBy (fun r => r.id) rows).map WidgetRow.node)) id id := by
  obtain ⟨a, link, folded⟩ := bind_eq_ok_iff.mp built
  have items : (Nodes.ofList (rows.map WidgetRow.node)).items.toList =
      (firstsBy (fun r => r.id) rows).map WidgetRow.node :=
    (Nodes.toList_ofList _).trans (firsts_nodes_eq rows)
  have clean := none_first_iff.mp ((Nodes.link_fails _).ok_iff.mp ⟨a, link⟩)
  have grounded := (Nodes.linked_of_link link).grounded_of_foldRoots folded
  constructor
  · intro r first p given
    have known := none_danglingIn_iff.mp (clean r.node (items ▸ List.mem_map_of_mem first)) p given
    rwa [Nodes.mem_ids_ofList, List.map_map] at known
  · intro id member cycle
    obtain ⟨r, first, rfl⟩ := exists_firstsBy member
    have ends := grounded r.node (items ▸ List.mem_map_of_mem first)
    rw [Nodes.toList_ofList] at ends
    rw [← firsts_nodes_eq] at cycle
    exact ends.not_below_self parent_unique cycle

/-- Where all rows can be put together, the widget that is read under an id is the one that stands
under it in the forest. -/
theorem exists_same_widget {rows : List WidgetRow} {ws : List Widget} {id : String}
    (built : buildWidgets rows = .ok ws) (member : id ∈ rows.map fun r => r.id) :
    ∃ w, buildWidget rows id = .ok w ∧
      ((Widget.nodesList ws).filter fun v => v.id == id) = [w] := by
  obtain ⟨known, acyclic⟩ := known_and_acyclic built
  obtain ⟨w, found, spans⟩ := exists_buildWidget rows id member fun r first _ => known r first
  have listed : w.id ∈ (firstsBy (fun r => r.id) rows).map fun r => r.id := by
    rw [spans.top]
    exact (mem_keys_firstsBy _).mpr member
  have only := filter_buildWidgets (nodup_keys_firstsBy _ rows)
    ((buildWidgets_firsts rows).trans built) listed (readFrom_firsts (acyclic id member) spans)
  rw [spans.top] at only
  exact ⟨w, found, only⟩

/-- One widget is put together out of any rows: reading fails with the first other row whose parent
has no row, else only if no row has the id, and gives all rows that descend from the id, each once
and children in the order of their rows.  No cycle makes it fail.  It is the widget that stands
under the id among all widgets, whenever these can be put together. -/
theorem singleWidget_exact (rows : List WidgetRow) (id : String) :
    (∀ e, buildWidget rows id = .error e ↔
      First (DanglingBeside id (rows.map fun r => r.id)) (firstsBy (fun r => r.id) rows) e ∨
        (∀ e', ¬ First (DanglingBeside id (rows.map fun r => r.id))
          (firstsBy (fun r => r.id) rows) e') ∧
        id ∉ rows.map (fun r => r.id) ∧ e = .notFound id) ∧
    (∀ other, buildWidget rows id ≠ .error (.cycle other)) ∧
    ((∀ e, ¬ First (DanglingBeside id (rows.map fun r => r.id)) (firstsBy (fun r => r.id) rows) e) →
      id ∈ rows.map (fun r => r.id) →
      ∃ w, buildWidget rows id = .ok w ∧ w.id = id ∧ w.ReadFrom (cutFirsts rows id) ∧ w.ids.Nodup ∧
        ∀ i, i ∈ w.ids ↔ i ∈ rows.map (fun r => r.id) ∧
          ReflTransGen (Names ((firstsBy (fun r => r.id) rows).map WidgetRow.node)) i id) ∧
    ∀ ws, buildWidgets rows = .ok ws → id ∈ rows.map (fun r => r.id) →
      ∃ w, buildWidget rows id = .ok w ∧
        ((Widget.nodesList ws).filter fun v => v.id == id) = [w] := by
  have fails := buildWidget_fails rows id
  refine ⟨fails, fun other failed => ?_, fun clean member => ?_, fun ws built member =>
    exists_same_widget built member⟩
  · rcases (fails _).mp failed with ⟨_, _, _, _, _, fault⟩ | ⟨_, _, fault⟩
    · obtain ⟨_, _, _, _, same⟩ := fault
      cases same
    · cases fault
  · obtain ⟨w, built, spans⟩ :=
      exists_buildWidget rows id member (none_danglingBeside_iff.mp clean)
    refine ⟨w, built, spans.top, spans.read, spans.once, fun i => ?_⟩
    rw [spans.holds, map_id_cutFirsts, mem_keys_firstsBy, descends_cutFirsts]

/-- Two widgets around each other, one of them with a second row, and one below them. -/
def aroundEachOther : List WidgetRow :=
  [{ id := "a", name := "A", parent := some "b" }, { id := "c", name := "C", parent := some "b" },
    { id := "b", name := "B", parent := some "a" }, { id := "b", name := "D" }]

theorem firstsBy_aroundEachOther : firstsBy (fun r => r.id) aroundEachOther =
    [{ id := "a", name := "A", parent := some "b" }, { id := "c", name := "C", parent := some "b" },
      { id := "b", name := "B", parent := some "a" }] := by
  simp [aroundEachOther, firstsBy, List.eraseDupsBy_cons]

theorem singleWidget_exact_aroundEachOther :
    (∃ w, buildWidget aroundEachOther "a" = .ok w ∧ w.id = "a" ∧ "c" ∈ w.ids) ∧
    ∃ ws w, buildWidgets childFirst = .ok ws ∧ buildWidget childFirst "b" = .ok w ∧
      ((Widget.nodesList ws).filter fun v => v.id == "b") = [w] := by
  constructor
  · obtain ⟨w, built, own, _, _, holds⟩ := (singleWidget_exact aroundEachOther "a").2.2.1
      (none_danglingBeside_iff.mpr fun r first _ parent given => by
        rw [firstsBy_aroundEachOther] at first
        simp only [List.mem_cons, List.not_mem_nil, or_false] at first
        rcases first with rfl | rfl | rfl <;> cases given <;> simp [aroundEachOther])
      (by simp [aroundEachOther])
    have up (i p : String) : Names ((firstsBy (fun r => r.id) aroundEachOther).map WidgetRow.node)
        i p ↔ (i, some p) ∈ [("a", some "b"), ("c", some "b"), ("b", some "a")] := by
      rw [Names, firstsBy_aroundEachOther]
      rfl
    refine ⟨w, built, own, (holds "c").mpr ⟨by simp [aroundEachOther], ?_⟩⟩
    exact .head ((up "c" "b").mpr (by simp)) (.single ((up "b" "a").mpr (by simp)))
  · have first := firsts_childFirst
    have top : Grounded (links (firsts (childFirst.map WidgetRow.node))) "a" := by
      rw [first]
      exact Grounded.root (by simp [links])
    obtain ⟨a, ws, link, folded⟩ := exists_foldRoots (childFirst.map WidgetRow.node)
      Widget.withChildren (by rw [first]; simp [childFirst, WidgetRow.node]) (by
        rw [first] at top ⊢
        simp only [List.forall_mem_cons, List.not_mem_nil, false_implies, implies_true, and_true]
        exact ⟨Grounded.under (by simp [links]) top, top⟩)
    have built : buildWidgets childFirst = .ok ws := bind_eq_ok_iff.mpr ⟨a, link, folded⟩
    obtain ⟨w, found, same⟩ := (singleWidget_exact childFirst "b").2.2.2 ws built
      (by simp [childFirst])
    exact ⟨ws, w, built, found, same⟩

end QueryBoard
