import QueryBoard.Proofs.Hierarchy.Reconstruction

/-!
# The tree below one node

Folding from one node gives the fold of the tree below it, whatever else hangs on other nodes, as
long as the node is not below itself.

A widget is `ReadFrom` rows when it and all that is in it stand in the rows, each with the children
that name it as parent.  Rows with distinct ids leave no choice, so whatever is read from them under
an id is the same widget.
-/

set_option autoImplicit false

namespace QueryBoard.Hierarchy

open Relation (ReflTransGen TransGen)

variable {α β ι : Type}

/-- The nodes that name a node as parent. -/
def childNodes (nodes : List (Node α)) (n : Node α) : List (Node α) :=
  nodes.filter fun m => m.parent == some n.id

/-- Whether a node with an id names another id as parent. -/
def Names (nodes : List (Node α)) (id parent : String) : Prop := (id, some parent) ∈ links nodes

/-- The tree of an id: below every node those that name it as parent in order, in all what comes
to the id when going from parent to parent, and every node once. -/
structure IsSubtree (nodes : List (Node α)) (id : String) (t : Tree (Node α)) : Prop where
  root : t.root.id = id
  children : t.Follows (childNodes nodes)
  holds : ∀ n, n ∈ t.labels ↔ n ∈ nodes ∧ ReflTransGen (Names nodes) n.id id
  once : (t.labels.map Node.id).Nodup

namespace Nodes

variable {ns : Nodes α}

theorem exists_node {n : Node α} (member : n ∈ ns.items.toList) : ∃ i, ns.node i = n := by
  rw [toList_eq_map] at member
  obtain ⟨i, _, is⟩ := List.mem_map.mp member
  exact ⟨i, is⟩

theorem below_iff_names {i j : Fin ns.size} :
    Below ns.below i j ↔ Names ns.items.toList (ns.node i).id (ns.node j).id := by
  rw [Below, mem_below_iff, Names, mem_links]
  constructor
  · exact fun parent => ⟨ns.node i, node_mem i, rfl, parent⟩
  · rintro ⟨n, member, same, parent⟩
    obtain ⟨k, rfl⟩ := exists_node member
    rwa [index_unique same] at parent

theorem names_of_below {i j : Fin ns.size} (below : ReflTransGen (Below ns.below) i j) :
    ReflTransGen (Names ns.items.toList) (ns.node i).id (ns.node j).id :=
  below.lift (fun i => (ns.node i).id) fun _ _ => below_iff_names.mp

/-- What comes to the id of a node has a node itself. -/
theorem exists_below_of_names {id : String} {j : Fin ns.size}
    (above : ReflTransGen (Names ns.items.toList) id (ns.node j).id) :
    ∃ i : Fin ns.size, (ns.node i).id = id ∧ ReflTransGen (Below ns.below) i j := by
  induction above using ReflTransGen.head_induction_on with
  | refl => exact ⟨j, rfl, ReflTransGen.refl⟩
  | @head id parent up _ ih =>
      obtain ⟨k, same, below⟩ := ih
      obtain ⟨n, member, is, _⟩ := mem_links.mp up
      obtain ⟨i, rfl⟩ := exists_node member
      rw [← is, ← same] at up
      exact ⟨i, is, below.head (below_iff_names.mpr up)⟩

end Nodes

namespace Linked

variable {ns : Nodes α} {a : Arena α ns.size}

theorem index?_eq (linked : Linked ns a) (i : Fin ns.size) :
    a.links.index? (ns.node i).id = some i := by
  unfold Links.index?
  cases found : (List.finRange ns.size).find? fun j => a.links.idOf j == (ns.node i).id with
  | none =>
      have absent := List.find?_eq_none.mp found i (List.mem_finRange i)
      rw [linked.ids] at absent
      simp at absent
  | some j =>
      have same := List.find?_some found
      rw [linked.ids, beq_iff_eq] at same
      rw [Nodes.index_unique same]

/-- The fold of a node that is not on a cycle is that of the tree below it. -/
theorem foldSubtree_tree (linked : Linked ns a) (build : α → List β → β) (i : Fin ns.size)
    (acyclic : ¬ TransGen (Below ns.below) i i) :
    ∃ t : Tree (Node α), IsSubtree ns.items.toList (ns.node i).id t ∧
      a.foldSubtree (ns.node i).id build = .ok (t.fold Node.value build) := by
  obtain ⟨t, top, follows⟩ := Tree.exists_tree Nodes.singleParents i acyclic
  have distinct : t.labels.Nodup := Tree.nodup_labels Nodes.singleParents t follows (by rwa [top])
  have all : a.values.Holds (fun j => (ns.node j).value) t.labels := fun j _ => linked.values j
  have folded := a.links.materialize_tree build (fun j : Fin ns.size => (ns.node j).value)
    (linked.below_eq ▸ follows) distinct all
  refine ⟨t.map ns.node, ⟨by rw [Tree.root_map, top], ?_, fun n => ?_, ?_⟩, ?_⟩
  · refine Tree.Follows.map (fun j => ?_) t follows
    rw [Nodes.below, Nodes.childrenOf, childNodes]
    conv_rhs => rw [Nodes.toList_eq_map, List.filter_map]
    rfl
  · rw [Tree.labels_map, List.mem_map]
    constructor
    · rintro ⟨j, member, rfl⟩
      rw [Tree.mem_labels_iff t follows, top] at member
      exact ⟨Nodes.node_mem j, Nodes.names_of_below member⟩
    · rintro ⟨member, above⟩
      obtain ⟨j, same, below⟩ := Nodes.exists_below_of_names above
      obtain ⟨k, rfl⟩ := Nodes.exists_node member
      rw [Nodes.index_unique same] at below
      exact ⟨k, (Tree.mem_labels_iff t follows).mpr (top ▸ below), rfl⟩
  · rw [Tree.labels_map, List.map_map]
    exact distinct.map fun j k same => Nodes.index_unique same
  · unfold Arena.foldSubtree
    rw [linked.index?_eq, Tree.fold_map, ← top]
    simp only [folded]
    rfl

/-- The tree below a node without parent is folded, whatever the other nodes are. -/
theorem foldSubtree_top (linked : Linked ns a) (build : α → List β → β) {i : Fin ns.size}
    (top : (ns.node i).parent = none) :
    ∃ t : Tree (Node α), IsSubtree ns.items.toList (ns.node i).id t ∧
      a.foldSubtree (ns.node i).id build = .ok (t.fold Node.value build) := by
  refine linked.foldSubtree_tree build i fun cycle => ?_
  obtain ⟨k, up, _⟩ := TransGen.head'_iff.mp cycle
  have parent := Nodes.mem_below_iff.mp up
  rw [top] at parent
  cases parent

end Linked

end Hierarchy

open Hierarchy

open Relation (ReflTransGen)

/-! ## Widgets -/

/-- The rows that name an id as parent. -/
def childRows (rows : List WidgetRow) (id : String) : List WidgetRow :=
  rows.filter fun r => r.parent == some id

namespace Widget

mutual

/-- Whether a widget is what rows say. -/
def ReadFrom (rows : List WidgetRow) : Widget → Prop
  | ⟨id, name, kind, children, props, query⟩ =>
    (∃ parent, ⟨id, name, kind, props, query, parent⟩ ∈ rows) ∧
      children.map (fun w => w.id) = (childRows rows id).map (fun r => r.id) ∧
      ReadFromAll rows children

def ReadFromAll (rows : List WidgetRow) : List Widget → Prop
  | [] => True
  | w :: rest => w.ReadFrom rows ∧ ReadFromAll rows rest

end

mutual

/-- A widget and all that is in it. -/
def nodes : Widget → List Widget
  | ⟨id, name, kind, children, props, query⟩ =>
    ⟨id, name, kind, children, props, query⟩ :: nodesList children

def nodesList : List Widget → List Widget
  | [] => []
  | w :: rest => w.nodes ++ nodesList rest

end

mutual

theorem map_id_nodes : (w : Widget) → w.nodes.map (fun v => v.id) = w.ids
  | ⟨id, _, _, children, _, _⟩ => by
      rw [nodes, ids, List.map_cons, map_id_nodesList children]

theorem map_id_nodesList : (ws : List Widget) → (nodesList ws).map (fun v => v.id) = idsList ws
  | [] => rfl
  | w :: rest => by
      rw [nodesList, idsList, List.map_append, map_id_nodes w, map_id_nodesList rest]

end

section

variable {rows rows' : List WidgetRow}

theorem readFromAll_iff {ws : List Widget} :
    ReadFromAll rows ws ↔ ∀ w ∈ ws, w.ReadFrom rows := by
  induction ws with
  | nil => simp [ReadFromAll]
  | cons w ws ih => rw [ReadFromAll, ih, List.forall_mem_cons]

mutual

/-- What is inside of a widget is read from the same rows. -/
theorem ReadFrom.nodes : (w : Widget) → w.ReadFrom rows → ∀ v ∈ w.nodes, v.ReadFrom rows
  | ⟨id, name, kind, children, props, query⟩, read, v, member => by
      rw [Widget.nodes, List.mem_cons] at member
      rcases member with rfl | member
      · exact read
      · exact ReadFromAll.nodesList children read.2.2 v member

theorem ReadFromAll.nodesList : (ws : List Widget) → ReadFromAll rows ws →
    ∀ v ∈ Widget.nodesList ws, v.ReadFrom rows
  | [], _, v, member => by cases member
  | w :: rest, ⟨first, all⟩, v, member => by
      rw [Widget.nodesList, List.mem_append] at member
      rcases member with member | member
      · exact ReadFrom.nodes w first v member
      · exact ReadFromAll.nodesList rest all v member

end

mutual

theorem ReadFrom.unique (distinct : (rows.map fun r => r.id).Nodup) : (w v : Widget) →
    w.ReadFrom rows → v.ReadFrom rows → w.id = v.id → w = v
  | ⟨_, _, _, children, _, _⟩, ⟨_, _, _, children', _, _⟩, ⟨⟨_, own⟩, ids, below⟩,
    ⟨⟨_, own'⟩, ids', below'⟩, same => by
      have row := List.inj_on_of_nodup_map distinct own own' same
      cases row
      rw [ReadFromAll.unique distinct children children' below below' (ids.trans ids'.symm)]

theorem ReadFromAll.unique (distinct : (rows.map fun r => r.id).Nodup) : (ws vs : List Widget) →
    ReadFromAll rows ws → ReadFromAll rows vs →
    ws.map (fun w => w.id) = vs.map (fun v => v.id) → ws = vs
  | [], [], _, _, _ => rfl
  | [], v :: vs, _, _, same => by cases same
  | w :: ws, [], _, _, same => by cases same
  | w :: ws, v :: vs, ⟨first, all⟩, ⟨first', all'⟩, same => by
      rw [List.map_cons, List.map_cons, List.cons.injEq] at same
      rw [ReadFrom.unique distinct w v first first' same.1,
        ReadFromAll.unique distinct ws vs all all' same.2]

end

mutual

/-- Other rows serve as well when they have the same widgets below each id in a widget. -/
theorem ReadFrom.congr (own : ∀ r ∈ rows, ∃ parent, { r with parent } ∈ rows') :
    (w : Widget) → w.ReadFrom rows →
    (∀ r ∈ rows, r.id ∈ w.ids → (childRows rows r.id).map (fun c => c.id) =
      (childRows rows' r.id).map fun c => c.id) → w.ReadFrom rows'
  | ⟨_, _, _, children, _, _⟩, ⟨⟨_, member⟩, same, all⟩, below =>
      ⟨own _ member, same.trans (below _ member (by simp [ids])),
        ReadFromAll.congr own children all fun r stands inside =>
          below r stands (by simp [ids, inside])⟩

theorem ReadFromAll.congr (own : ∀ r ∈ rows, ∃ parent, { r with parent } ∈ rows') :
    (ws : List Widget) → ReadFromAll rows ws →
    (∀ r ∈ rows, r.id ∈ idsList ws → (childRows rows r.id).map (fun c => c.id) =
      (childRows rows' r.id).map fun c => c.id) → ReadFromAll rows' ws
  | [], _, _ => trivial
  | w :: rest, ⟨first, all⟩, below =>
      ⟨ReadFrom.congr own w first fun r stands inside =>
          below r stands (by simp [idsList, inside]),
        ReadFromAll.congr own rest all fun r stands inside =>
          below r stands (by simp [idsList, inside])⟩

end

/-! ## What the readers build -/

theorem childNodes_node (rows : List WidgetRow) (r : WidgetRow) :
    childNodes (rows.map WidgetRow.node) r.node = (childRows rows r.id).map WidgetRow.node := by
  rw [childNodes, childRows, List.filter_map]
  rfl

theorem id_fold (t : Hierarchy.Tree (Node Widget)) :
    (t.fold Node.value withChildren).id = t.root.value.id := by
  cases t
  rfl

mutual

/-- The fold of a tree of rows is read from them. -/
theorem readFrom_fold : (t : Hierarchy.Tree (Node Widget)) →
    t.Follows (childNodes (rows.map WidgetRow.node)) →
    (∀ n ∈ t.labels, n ∈ rows.map WidgetRow.node) →
    (t.fold Node.value withChildren).ReadFrom rows
  | .node n ts, ⟨roots, all⟩, known => by
      obtain ⟨r, member, rfl⟩ := List.mem_map.mp (known n (by simp [Tree.labels]))
      have inner : ∀ m ∈ Tree.labelsList ts, m ∈ rows.map WidgetRow.node :=
        fun m inside => known m (by simp [Tree.labels, inside])
      have below := readFromAll_foldList ts all inner
      rw [Tree.fold]
      refine ⟨⟨r.parent, member⟩, ?_, below⟩
      have ids : (Tree.foldList Node.value withChildren ts).map (fun w => w.id) =
          (ts.map Tree.root).map fun m => m.value.id := by
        rw [Tree.foldList_eq, List.map_map, List.map_map]
        exact List.map_congr_left fun t _ => id_fold t
      rw [ids, roots, childNodes_node, List.map_map]
      rfl

theorem readFromAll_foldList : (ts : List (Hierarchy.Tree (Node Widget))) →
    Tree.FollowsAll (childNodes (rows.map WidgetRow.node)) ts →
    (∀ n ∈ Tree.labelsList ts, n ∈ rows.map WidgetRow.node) →
    ReadFromAll rows (Tree.foldList Node.value withChildren ts)
  | [], _, _ => trivial
  | t :: ts, ⟨first, all⟩, known =>
      ⟨readFrom_fold t first fun n inside => known n (by simp [Tree.labelsList, inside]),
        readFromAll_foldList ts all fun n inside => known n (by simp [Tree.labelsList, inside])⟩

end

end

/-- The widget with an id as rows have it: read from them, with all of them that come to the id
when going from parent to parent, each once. -/
structure Spans (rows : List WidgetRow) (id : String) (w : Widget) : Prop where
  top : w.id = id
  read : w.ReadFrom rows
  once : w.ids.Nodup
  holds : ∀ i, i ∈ w.ids ↔
    i ∈ rows.map (fun r => r.id) ∧ ReflTransGen (Names (rows.map WidgetRow.node)) i id

theorem spans_fold {rows : List WidgetRow} {id : String} {t : Hierarchy.Tree (Node Widget)}
    (isSubtree : IsSubtree (rows.map WidgetRow.node) id t) :
    Spans rows id (t.fold Node.value withChildren) := by
  have inside : ∀ n ∈ t.labels, n ∈ rows.map WidgetRow.node :=
    fun n label => ((isSubtree.holds n).mp label).1
  have own : ∀ n ∈ rows.map WidgetRow.node, n.value.id = n.id := by
    intro n member
    obtain ⟨r, _, rfl⟩ := List.mem_map.mp member
    rfl
  have ids : (t.fold Node.value withChildren).ids = t.labels.map Node.id := by
    rw [ids_fold]
    exact List.map_congr_left fun n label => own n (inside n label)
  refine ⟨?_, readFrom_fold t isSubtree.children inside, ids ▸ isSubtree.once, fun i => ?_⟩
  · rw [id_fold, own _ (inside _ t.root_mem_labels), isSubtree.root]
  · rw [ids, List.mem_map]
    constructor
    · rintro ⟨n, label, rfl⟩
      obtain ⟨member, above⟩ := (isSubtree.holds n).mp label
      obtain ⟨r, listed, rfl⟩ := List.mem_map.mp member
      exact ⟨List.mem_map_of_mem listed, above⟩
    · rintro ⟨listed, above⟩
      obtain ⟨r, member, rfl⟩ := List.mem_map.mp listed
      exact ⟨r.node, (isSubtree.holds _).mpr ⟨List.mem_map_of_mem member, above⟩, rfl⟩

end Widget

theorem firsts_node {rows : List WidgetRow} (distinct : (rows.map fun r => r.id).Nodup) :
    firsts (rows.map WidgetRow.node) = rows.map WidgetRow.node := by
  apply firsts_eq_self
  rw [List.map_map]
  exact distinct

theorem readFromAll_buildWidgets {rows : List WidgetRow} {ws : List Widget}
    (distinct : (rows.map fun r => r.id).Nodup) (success : buildWidgets rows = .ok ws) :
    Widget.ReadFromAll rows ws := by
  obtain ⟨forest, isForest, rfl⟩ := buildWidgets_forest success
  rw [firsts_node distinct] at isForest
  rw [← Tree.foldList_eq]
  exact Widget.readFromAll_foldList forest isForest.children fun n member =>
    isForest.once.subset member

end QueryBoard
