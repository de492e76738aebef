import QueryBoard.Proofs.Hierarchy.Fold
import QueryBoard.Proofs.Hierarchy.Nodes
import QueryBoard.Widget.Rows
import Mathlib.Data.Fintype.EquivFin
import Mathlib.Data.List.Dedup

/-!
# Hierarchies are rebuilt exactly

Nodes whose parents all exist are a forest, up to those that no root is above.  Folding gives the
fold of that forest when it holds every node, and otherwise fails with the first node outside it.
-/

set_option autoImplicit false

namespace QueryBoard

namespace Hierarchy

open Relation (ReflTransGen TransGen)

variable {α β : Type}

namespace Nodes

variable (ns : Nodes α)

def below (i : Fin ns.size) : List (Fin ns.size) := ns.childrenOf (ns.node i).id

variable {ns}

theorem mem_below_iff {i j : Fin ns.size} :
    j ∈ ns.below i ↔ (ns.node j).parent = some (ns.node i).id := by
  simp [below, childrenOf]

theorem index_unique {i j : Fin ns.size} (same : (ns.node i).id = (ns.node j).id) : i = j := by
  have equal : (ns.items.toList.map Node.id).get ⟨i.val, by simp⟩ =
      (ns.items.toList.map Node.id).get ⟨j.val, by simp⟩ := by simpa [node] using same
  have index := ns.distinct.get_inj_iff.mp equal
  exact Fin.ext (Fin.mk.inj index)

theorem singleParents : SingleParents ns.below where
  single := by
    intro i i' j left right
    rw [mem_below_iff] at left right
    rw [left, Option.some.injEq] at right
    exact index_unique right
  distinct := fun _ => (List.nodup_finRange _).filter _

theorem toList_eq_map : ns.items.toList = (List.finRange ns.size).map ns.node := by
  apply List.ext_getElem <;> simp [node]

theorem node_mem (i : Fin ns.size) : ns.node i ∈ ns.items.toList := by
  rw [toList_eq_map]
  exact List.mem_map_of_mem (List.mem_finRange i)

/-- A node is grounded when some node without parent is above it. -/
theorem grounded_iff {i : Fin ns.size} : Grounded (links ns.items.toList) (ns.node i).id ↔
    ∃ r, ReflTransGen (Below ns.below) i r ∧ (ns.node r).parent = none := by
  constructor
  · intro grounded
    -- The induction is on ids, so it cannot speak of the index of the node.
    have general : ∀ id, Grounded (links ns.items.toList) id → ∃ j : Fin ns.size,
        (ns.node j).id = id ∧
          ∃ r, ReflTransGen (Below ns.below) j r ∧ (ns.node r).parent = none := by
      intro id grounded
      induction grounded with
      | root member =>
          obtain ⟨n, inside, same, top⟩ := mem_links.mp member
          rw [toList_eq_map] at inside
          obtain ⟨j, _, rfl⟩ := List.mem_map.mp inside
          exact ⟨j, same, j, ReflTransGen.refl, top⟩
      | under member _ ih =>
          obtain ⟨n, inside, same, up⟩ := mem_links.mp member
          rw [toList_eq_map] at inside
          obtain ⟨j, _, rfl⟩ := List.mem_map.mp inside
          obtain ⟨k, parent, r, above, top⟩ := ih
          refine ⟨j, same, r, above.head ?_, top⟩
          rw [Below, mem_below_iff, up, parent]
    obtain ⟨j, same, above⟩ := general _ grounded
    rw [index_unique same] at above
    exact above
  · rintro ⟨r, above, top⟩
    have member (j : Fin ns.size) :
        ((ns.node j).id, (ns.node j).parent) ∈ links ns.items.toList :=
      mem_links.mpr ⟨ns.node j, node_mem j, rfl, rfl⟩
    induction above using ReflTransGen.head_induction_on with
    | refl => exact Grounded.root (top ▸ member r)
    | @head j k up _ ih =>
        have parent := mem_below_iff.mp up
        exact Grounded.under (parent ▸ member j) ih

/-- The trees of the nodes without parent hold every grounded node once, and no other. -/
theorem exists_indexForest (ns : Nodes α) : ∃ ts : List (Tree (Fin ns.size)),
    ts.map Tree.root = ns.rootList ∧ Tree.FollowsAll ns.below ts ∧ (Tree.labelsList ts).Nodup ∧
      ∀ i, i ∈ Tree.labelsList ts ↔ Grounded (links ns.items.toList) (ns.node i).id := by
  have top : ∀ r ∈ ns.rootList, ∀ k, r ∉ ns.below k := by
    intro r root k under
    have none : (ns.node r).parent = none := by simpa [rootList] using root
    rw [mem_below_iff, none] at under
    cases under
  have acyclic : ∀ r ∈ ns.rootList, ¬ TransGen (Below ns.below) r r := by
    intro r root cycle
    obtain ⟨k, up, _⟩ := TransGen.head'_iff.mp cycle
    exact top r root k up
  obtain ⟨ts, roots, follows⟩ := Tree.exists_forest fun r root =>
    Tree.exists_tree singleParents r (acyclic r root)
  refine ⟨ts, roots, follows, ?_, ?_⟩
  · apply Tree.nodup_labelsList singleParents ts follows <;> rw [roots]
    · exact (List.nodup_finRange _).filter _
    · exact acyclic
    · intro r root r' _ above
      rcases above.cases_head with same | ⟨k, up, _⟩
      · exact same
      · exact absurd up (top r root k)
  · intro i
    rw [Tree.mem_labelsList_iff ts follows, roots, grounded_iff]
    constructor
    · rintro ⟨r, root, above⟩
      exact ⟨r, above, by simpa [rootList] using root⟩
    · rintro ⟨r, above, none⟩
      exact ⟨r, by simpa [rootList] using none, above⟩

end Nodes

/-! ## Folding all roots -/

/-- The forest of nodes: the nodes without parent in order, below every node those that name it as
parent in order, and every node once. -/
structure IsForest (nodes : List (Node α)) (forest : List (Tree (Node α))) : Prop where
  roots : forest.map Tree.root = nodes.filter fun n => n.parent.isNone
  children : Tree.FollowsAll (fun n => nodes.filter fun m => m.parent == some n.id) forest
  once : (Tree.labelsList forest).Perm nodes

/-- A node that is on a cycle, or below one. -/
def StrayIn (nodes : List (Node α)) (n : Node α) (e : TreeError) : Prop :=
  ¬ Grounded (links nodes) n.id ∧ e = .cycle n.id

theorem none_strayIn_iff {nodes : List (Node α)} {n : Node α} :
    (∀ e, ¬ StrayIn nodes n e) ↔ Grounded (links nodes) n.id := by
  constructor
  · intro clean
    by_contra stray
    exact clean _ ⟨stray, rfl⟩
  · rintro grounded e ⟨stray, _⟩
    exact stray grounded

namespace Linked

variable {ns : Nodes α} {a : Arena α ns.size}

theorem below_eq (linked : Linked ns a) : a.links.below = ns.below :=
  funext linked.children

theorem foldRoots_eq (linked : Linked ns a) (build : α → List β → β)
    {ts : List (Tree (Fin ns.size))} (roots : ts.map Tree.root = ns.rootList)
    (follows : Tree.FollowsAll ns.below ts) (distinct : (Tree.labelsList ts).Nodup) :
    a.foldRoots build =
      match (List.finRange ns.size).find? fun i => i ∉ Tree.labelsList ts with
      | some i => .error (TreeError.cycle (ns.node i).id)
      | none => .ok (Tree.foldList (fun i : Fin ns.size => (ns.node i).value) build ts) := by
  have all : a.values.Holds (fun i => (ns.node i).value) (Tree.labelsList ts) :=
    fun i _ => linked.values i
  have built := a.links.materializeAll_forest build (fun i : Fin ns.size => (ns.node i).value)
    (linked.below_eq ▸ follows) distinct all
  -- A value is left over exactly where no tree has claimed it.
  have left : (fun i : Fin ns.size => ((a.values.clear (Tree.labelsList ts)).at? i).isSome) =
      fun i => decide (i ∉ Tree.labelsList ts) := by
    funext i
    rw [Values.at?_clear, linked.values]
    by_cases member : i ∈ Tree.labelsList ts <;> simp [member]
  unfold Arena.foldRoots
  rw [linked.roots, ← roots, built]
  simp only [bind, Except.bind, left]
  cases (List.finRange ns.size).find? fun i => decide (i ∉ Tree.labelsList ts) with
  | none => rfl
  | some i =>
      simp only [linked.ids]
      rfl

/-- Folding fails with the first node that no root is above. -/
theorem foldRoots_fails (linked : Linked ns a) (build : α → List β → β) :
    FailsWith (a.foldRoots build) (First (StrayIn ns.items.toList) ns.items.toList) := by
  obtain ⟨ts, roots, follows, distinct, holds⟩ := Nodes.exists_indexForest ns
  rw [linked.foldRoots_eq build roots follows distinct]
  cases found : (List.finRange ns.size).find? fun i => i ∉ Tree.labelsList ts with
  | some i =>
      obtain ⟨outside, before, after, split, inside⟩ := List.find?_eq_some_iff_append.mp found
      have first : First (StrayIn ns.items.toList) ns.items.toList (.cycle (ns.node i).id) := by
        refine ⟨before.map ns.node, ns.node i, after.map ns.node, ?_, ?_,
          ?_, rfl⟩
        · conv_lhs => rw [Nodes.toList_eq_map, split, List.map_append, List.map_cons]
        · intro n member e stray
          obtain ⟨j, earlier, rfl⟩ := List.mem_map.mp member
          have covered := inside j earlier
          simp only [Bool.not_eq_true', decide_eq_false_iff_not, not_not] at covered
          exact stray.1 ((holds j).mp covered)
        · intro grounded
          simp only [decide_eq_true_eq] at outside
          exact outside ((holds i).mpr grounded)
      refine FailsWith.error_of first fun e other => First.unique ?_ other first
      rintro n e e' ⟨_, rfl⟩ ⟨_, rfl⟩
      rfl
  | none =>
      refine (FailsWith.ok _).congr fun e => ⟨False.elim, ?_⟩
      rintro ⟨before, n, after, split, _, stray, _⟩
      have member : n ∈ ns.items.toList := by simp [split]
      rw [Nodes.toList_eq_map] at member
      obtain ⟨j, _, rfl⟩ := List.mem_map.mp member
      have covered := List.find?_eq_none.mp found j (List.mem_finRange j)
      simp only [decide_eq_true_eq, not_not] at covered
      exact stray ((holds j).mp covered)

theorem grounded_of_foldRoots (linked : Linked ns a) {build : α → List β → β} {bs : List β}
    (success : a.foldRoots build = .ok bs) :
    ∀ n ∈ ns.items.toList, Grounded (links ns.items.toList) n.id := by
  intro n member
  have found := (linked.foldRoots_fails build).ok_iff.mp ⟨bs, success⟩
  exact none_strayIn_iff.mp (none_first_iff.mp found n member)

/-- What folding gives is the fold of the forest of all nodes. -/
theorem foldRoots_forest (linked : Linked ns a) {build : α → List β → β} {bs : List β}
    (success : a.foldRoots build = .ok bs) :
    ∃ forest, IsForest ns.items.toList forest ∧ bs = forest.map (Tree.fold Node.value build) := by
  obtain ⟨ts, roots, follows, distinct, holds⟩ := Nodes.exists_indexForest ns
  have all : ∀ i, i ∈ Tree.labelsList ts := fun i =>
    (holds i).mpr (linked.grounded_of_foldRoots success _ (Nodes.node_mem i))
  have built := linked.foldRoots_eq build roots follows distinct
  have none : ((List.finRange ns.size).find? fun i => i ∉ Tree.labelsList ts) = none := by
    rw [List.find?_eq_none]
    intro i _
    simp [all i]
  rw [none, success] at built
  cases built
  refine ⟨Tree.mapList ns.node ts, ⟨?_, ?_, ?_⟩, ?_⟩
  · rw [Tree.map_root_mapList, roots, Nodes.toList_eq_map, List.filter_map]
    rfl
  · refine Tree.FollowsAll.mapList (fun i => ?_) ts follows
    rw [Nodes.below, Nodes.childrenOf]
    conv_rhs => rw [Nodes.toList_eq_map, List.filter_map]
    rfl
  · rw [Tree.labelsList_mapList]
    conv_rhs => rw [Nodes.toList_eq_map]
    refine List.Perm.map _ ((List.perm_ext_iff_of_nodup distinct (List.nodup_finRange _)).mpr ?_)
    intro i
    simp [all i]
  · rw [← Tree.foldList_eq, Tree.foldList_mapList]

end Linked

end Hierarchy

/-! ## Widgets -/

open Hierarchy

/-- Nodes with known parents of which every one is grounded can be linked and folded. -/
theorem Hierarchy.exists_foldRoots {α β : Type} (rows : List (Node α)) (build : α → List β → β)
    (known : ∀ n ∈ firsts rows, ∀ parent, n.parent = some parent → parent ∈ rows.map Node.id)
    (grounded : ∀ n ∈ firsts rows, Grounded (links (firsts rows)) n.id) :
    ∃ a bs, (Nodes.ofList rows).link = .ok a ∧ a.foldRoots build = .ok bs := by
  rw [← Nodes.toList_ofList] at known grounded
  obtain ⟨a, linked⟩ := (Nodes.ofList rows).link_fails.ok_iff.mpr (none_first_iff.mpr fun n member =>
    none_danglingIn_iff.mpr fun parent given => Nodes.mem_ids_ofList.mpr (known n member parent given))
  obtain ⟨bs, folded⟩ := ((Nodes.linked_of_link linked).foldRoots_fails build).ok_iff.mpr
    (none_first_iff.mpr fun n member => none_strayIn_iff.mpr (grounded n member))
  exact ⟨a, bs, linked, folded⟩

namespace Widget

mutual

/-- The ids of a widget and of all that is in it. -/
def ids : Widget → List String
  | ⟨id, _, _, children, _, _⟩ => id :: idsList children

def idsList : List Widget → List String
  | [] => []
  | w :: rest => w.ids ++ idsList rest

end

mutual

theorem length_ids : (w : Widget) → w.ids.length = w.count
  | ⟨_, _, _, children, _, _⟩ => by rw [ids, count, List.length_cons, length_idsList children]

theorem length_idsList : (ws : List Widget) → (idsList ws).length = countList ws
  | [] => rfl
  | w :: rest => by
      rw [idsList, countList, List.length_append, length_ids w, length_idsList rest]

end

mutual

theorem ids_fold {ι : Type} (widget : ι → Widget) :
    (t : Hierarchy.Tree ι) → (t.fold widget withChildren).ids = t.labels.map fun i => (widget i).id
  | .node i ts => by
      rw [Tree.fold, Tree.labels, withChildren, ids, List.map_cons, idsList_foldList widget ts]

theorem idsList_foldList {ι : Type} (widget : ι → Widget) : (ts : List (Hierarchy.Tree ι)) →
    idsList (Tree.foldList widget withChildren ts) =
      (Tree.labelsList ts).map fun i => (widget i).id
  | [] => rfl
  | t :: ts => by
      rw [Tree.foldList, Tree.labelsList, idsList, List.map_append, ids_fold widget t,
        idsList_foldList widget ts]

end

end Widget

def WidgetRow.node (r : WidgetRow) : Node Widget := ⟨r.id, r.parent, r.widget⟩

theorem buildWidgets_forest {rows : List WidgetRow} {widgets : List Widget}
    (success : buildWidgets rows = .ok widgets) :
    ∃ forest, IsForest (firsts (rows.map WidgetRow.node)) forest ∧
      widgets = forest.map (Tree.fold Node.value Widget.withChildren) := by
  obtain ⟨a, linked, folded⟩ := bind_eq_ok_iff.mp success
  have forest := (Nodes.linked_of_link linked).foldRoots_forest folded
  rwa [Nodes.toList_ofList] at forest

/-- Every id of a row is that of one widget, and no other id is. -/
theorem idsList_buildWidgets {rows : List WidgetRow} {widgets : List Widget}
    (success : buildWidgets rows = .ok widgets) :
    (Widget.idsList widgets).Perm (rows.map fun r => r.id).dedup := by
  obtain ⟨forest, isForest, same⟩ := buildWidgets_forest success
  have own : (firsts (rows.map WidgetRow.node)).map (fun n => n.value.id) =
      (firsts (rows.map WidgetRow.node)).map Node.id := by
    apply List.map_congr_left
    intro n member
    obtain ⟨r, _, rfl⟩ := List.mem_map.mp (mem_of_mem_firsts member)
    rfl
  have ids : ((firsts (rows.map WidgetRow.node)).map Node.id).Perm
      (rows.map fun r => r.id).dedup := by
    refine (List.perm_ext_iff_of_nodup (nodup_ids_firsts _) (List.nodup_dedup _)).mpr fun id => ?_
    rw [mem_ids_firsts, List.mem_dedup, List.map_map]
    rfl
  rw [same, ← Tree.foldList_eq, Widget.idsList_foldList]
  exact ((isForest.once.map _).trans (List.Perm.of_eq own)).trans ids

/-! ## The whole reconstruction -/

/-- Linking and folding give exactly the forest of the first nodes of every id, and fail with the
first of them that cannot be part of it. -/
theorem reconstruction_exact :
    (∀ (α : Type) (rows : List (Node α)),
      (∀ e, (Nodes.ofList rows).link = .error e ↔
        First (DanglingIn (rows.map Node.id)) (firsts rows) e) ∧
      ((∃ a, (Nodes.ofList rows).link = .ok a) ↔
        ∀ n ∈ firsts rows, ∀ parent, n.parent = some parent → parent ∈ rows.map Node.id) ∧
      ∀ (β : Type) (build : α → List β → β) (a : Arena α (Nodes.ofList rows).size),
        (Nodes.ofList rows).link = .ok a →
          (∀ e, a.foldRoots build = .error e ↔ First (StrayIn (firsts rows)) (firsts rows) e) ∧
          ((∃ bs, a.foldRoots build = .ok bs) ↔
            ∀ n ∈ firsts rows, Grounded (links (firsts rows)) n.id) ∧
          ∀ bs, a.foldRoots build = .ok bs → ∃ forest, IsForest (firsts rows) forest ∧
            bs = forest.map (Tree.fold Node.value build)) ∧
    ∀ (rows : List WidgetRow) (widgets : List Widget), buildWidgets rows = .ok widgets →
      Widget.countList widgets = (rows.map fun r => r.id).dedup.length := by
  refine ⟨fun α rows => ?_, fun rows widgets success => ?_⟩
  swap
  · rw [← Widget.length_idsList, (idsList_buildWidgets success).length_eq]
  have collected := Nodes.toList_ofList rows
  have known : (DanglingIn (Nodes.ofList rows).ids : Node α → TreeError → Prop) =
      DanglingIn (rows.map Node.id) := by
    funext n e
    simp only [DanglingIn, Nodes.mem_ids_ofList]
  have linking := (Nodes.ofList rows).link_fails
  rw [known, collected] at linking
  refine ⟨linking, ?_, ?_⟩
  · rw [linking.ok_iff, none_first_iff]
    exact forall₂_congr fun n _ => none_danglingIn_iff
  · intro β build a success
    have linked := Nodes.linked_of_link success
    have folding := linked.foldRoots_fails build
    rw [collected] at folding
    refine ⟨folding, ?_, ?_⟩
    · rw [folding.ok_iff, none_first_iff]
      exact forall₂_congr fun n _ => none_strayIn_iff
    · intro bs folded
      have forest := linked.foldRoots_forest folded
      rwa [collected] at forest

/-- A child before its parent, and a second row of the child. -/
def childFirst : List WidgetRow :=
  [{ id := "b", name := "B", parent := some "a" }, { id := "a", name := "A" },
    { id := "b", name := "C" }]

theorem firsts_childFirst : firsts (childFirst.map WidgetRow.node) =
    [⟨"b", some "a", { id := "b", name := "B", kind := "" }⟩,
      ⟨"a", none, { id := "a", name := "A", kind := "" }⟩] := by
  simp [childFirst, firsts, List.eraseDupsBy_cons, WidgetRow.node, WidgetRow.widget]

theorem reconstruction_exact_childFirst : ∃ widgets, buildWidgets childFirst = .ok widgets ∧
    (∃ forest, IsForest (firsts (childFirst.map WidgetRow.node)) forest ∧
      widgets = forest.map (Tree.fold Node.value Widget.withChildren)) ∧
    Widget.countList widgets = 2 := by
  obtain ⟨_, linking, folding⟩ := reconstruction_exact.1 Widget (childFirst.map WidgetRow.node)
  obtain ⟨a, linked⟩ := linking.mpr (by
    rw [firsts_childFirst]
    simp [childFirst, WidgetRow.node])
  obtain ⟨_, succeeds, forest⟩ := folding Widget Widget.withChildren a linked
  obtain ⟨widgets, folded⟩ := succeeds.mpr (by
    rw [firsts_childFirst]
    have top : Grounded (links (firsts (childFirst.map WidgetRow.node))) "a" := by
      rw [firsts_childFirst]
      exact Grounded.root (by simp [links])
    rw [firsts_childFirst] at top
    simp only [List.forall_mem_cons, List.not_mem_nil, false_implies, implies_true, and_true]
    exact ⟨Grounded.under (by simp [links]) top, top⟩)
  have built : buildWidgets childFirst = .ok widgets := bind_eq_ok_iff.mpr ⟨a, linked, folded⟩
  refine ⟨widgets, built, forest widgets folded, ?_⟩
  rw [reconstruction_exact.2 childFirst widgets built]
  rfl

end QueryBoard
