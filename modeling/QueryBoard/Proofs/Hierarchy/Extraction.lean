import QueryBoard.Proofs.Hierarchy.Subtree

/-!
# Extracting the tree of one id

Whatever cycles the links have, the walk from a node can come to no node twice but to that node
itself: every other node that it opens is the child of one node only, and this node is opened once.
So it fails on a node that is its own ancestor, at the child that the node is of a node below it,
and on no other.

Where the first node is left out as a child, what is below it is a tree.  The walk follows this
tree up to the node that has the first one as a child.
-/

set_option autoImplicit false

namespace QueryBoard.Hierarchy

open Relation (ReflTransGen TransGen)

variable {α β ι : Type}

/-! ## Leaving out a child -/

/-- What comes to a node comes to it for the first time, without the steps on from there. -/
theorem reach_first {R S : ι → ι → Prop} {r i : ι} (kept : ∀ i k, i ≠ r → R i k → S i k)
    (way : ReflTransGen R i r) : ReflTransGen S i r := by
  induction way using ReflTransGen.head_induction_on with
  | refl => exact ReflTransGen.refl
  | @head i k up _ ih =>
      by_cases same : i = r
      · rw [same]
      · exact ih.head (kept i k same up)

section

variable [DecidableEq ι] {children : ι → List ι}

/-- The children of every node without one of them. -/
def childrenWithout (children : ι → List ι) (r i : ι) : List ι :=
  (children i).filter fun j => j ≠ r

theorem mem_childrenWithout {r i j : ι} :
    j ∈ childrenWithout children r i ↔ j ∈ children i ∧ j ≠ r := by
  simp [childrenWithout]

theorem SingleParents.without (parents : SingleParents children) (r : ι) :
    SingleParents (childrenWithout children r) where
  single := fun left right =>
    parents.single (mem_childrenWithout.mp left).1 (mem_childrenWithout.mp right).1
  distinct := fun i => (parents.distinct i).filter _

theorem not_below_without (r i : ι) : ¬ TransGen (Below (childrenWithout children r)) r i := by
  intro above
  obtain ⟨k, up, _⟩ := TransGen.head'_iff.mp above
  exact (mem_childrenWithout.mp up).2 rfl

theorem below_without {r i : ι} (below : ReflTransGen (Below children) i r) :
    ReflTransGen (Below (childrenWithout children r)) i r :=
  reach_first (fun _ _ apart child => mem_childrenWithout.mpr ⟨child, apart⟩) below

namespace Tree

mutual

/-- Where the child is not missed, leaving it out makes no difference. -/
theorem Follows.of_without {r : ι} : (t : Tree ι) → t.Follows (childrenWithout children r) →
    (∀ j ∈ t.labels, r ∉ children j) → t.Follows children
  | node i ts, ⟨roots, all⟩, absent => by
      have own : childrenWithout children r i = children i := by
        rw [childrenWithout, List.filter_eq_self]
        intro j child
        exact decide_eq_true fun same => absent i (by simp [labels]) (same ▸ child)
      exact ⟨roots.trans own,
        FollowsAll.of_without ts all fun j member => absent j (by simp [labels, member])⟩

theorem FollowsAll.of_without {r : ι} : (ts : List (Tree ι)) →
    FollowsAll (childrenWithout children r) ts → (∀ j ∈ labelsList ts, r ∉ children j) →
    FollowsAll children ts
  | [], _, _ => trivial
  | t :: ts, ⟨first, rest⟩, absent =>
      ⟨Follows.of_without t first fun j member => absent j (by simp [labelsList, member]),
        FollowsAll.of_without ts rest fun j member => absent j (by simp [labelsList, member])⟩

end

end Tree

end

/-! ## The walk from a node on a cycle -/

namespace Links

variable {n : Nat} (l : Links n) (build : α → List β → β) (value : Fin n → α)

mutual

/-- A tree among the children still to visit is not left when a node of it has a claimed child. -/
theorem finish_tree_cycle {r : Fin n} : (t : Tree (Fin n)) →
    t.Follows (childrenWithout l.below r) → t.labels.Nodup →
    ∀ (values : Values α n), values.Holds value t.labels → values.at? r = none →
    (∃ j ∈ t.labels, r ∈ l.below j) →
    ∀ (v : α) (pending : List (Fin n)) (built : List β) (around : List (Frame α β n)),
      l.finish build values ⟨v, t.root :: pending, built⟩ around = .error (.cycle (l.idOf r))
  | .node i ts, ⟨roots, all⟩, distinct, values, holds, claimed, closes, v, pending, built,
    around => by
      have found : values.at? i = some (value i) := holds i (by simp [Tree.labels])
      have still : (values.clear [i]).at? r = none := by
        rw [Values.at?_clear, claimed, ite_self]
      have inside : r ∈ l.below i ∨ ∃ j ∈ Tree.labelsList ts, r ∈ l.below j := by
        simpa [Tree.labels] using closes
      have children := finish_trees_cycle ts (l.below i) roots.symm all
        (List.nodup_cons.mp distinct).2 (values.clear [i]) (holds.below distinct) still inside
        (value i) [] [] (⟨v, pending, built⟩ :: around)
      rw [List.append_nil] at children
      rw [Tree.root, l.finish_of_at? build found, children]

/-- The children of a node are the roots of trees, but for the claimed one among them. -/
theorem finish_trees_cycle {r : Fin n} : (ts : List (Tree (Fin n))) → (is : List (Fin n)) →
    (is.filter fun j => j ≠ r) = ts.map Tree.root →
    Tree.FollowsAll (childrenWithout l.below r) ts → (Tree.labelsList ts).Nodup →
    ∀ (values : Values α n), values.Holds value (Tree.labelsList ts) → values.at? r = none →
    (r ∈ is ∨ ∃ j ∈ Tree.labelsList ts, r ∈ l.below j) →
    ∀ (v : α) (pending : List (Fin n)) (built : List β) (around : List (Frame α β n)),
      l.finish build values ⟨v, is ++ pending, built⟩ around = .error (.cycle (l.idOf r))
  | [], [], _, _, _, _, _, _, closes, _, _, _, _ => by
      simp [Tree.labelsList] at closes
  | t :: ts, [], roots, _, _, _, _, _, _, _, _, _, _ => by cases roots
  | ts, i :: is, roots, all, distinct, values, holds, claimed, closes, v, pending, built,
    around => by
      by_cases same : i = r
      · rw [same, List.cons_append]
        exact l.finish_of_claimed build claimed v _ built around
      · rw [List.filter_cons_of_pos (by simpa using same)] at roots
        cases ts with
        | nil => cases roots
        | cons t ts =>
            obtain ⟨rfl, others⟩ := List.cons.inj roots
            obtain ⟨first, rest⟩ := all
            obtain ⟨distinctFirst, distinctRest, _⟩ := List.nodup_append.mp distinct
            rw [List.cons_append]
            by_cases closed : ∃ j ∈ t.labels, r ∈ l.below j
            · exact finish_tree_cycle t first distinctFirst values holds.first claimed closed v _
                built around
            · have whole := Tree.Follows.of_without t first fun j member child =>
                closed ⟨j, member, child⟩
              have still : (values.clear t.labels).at? r = none := by
                rw [Values.at?_clear, claimed, ite_self]
              have later : r ∈ is ∨ ∃ j ∈ Tree.labelsList ts, r ∈ l.below j := by
                rcases closes with member | ⟨j, member, child⟩
                · exact Or.inl (List.mem_of_ne_of_mem (Ne.symm same) member)
                · rcases List.mem_append.mp member with member | member
                  · exact absurd ⟨j, member, child⟩ closed
                  · exact Or.inr ⟨j, member, child⟩
              rw [l.finish_tree build value t whole distinctFirst values holds.first]
              exact finish_trees_cycle ts is others rest distinctRest _ (holds.rest distinct) still
                later v pending _ around

end

/-- From a node on a cycle the walk comes back to it. -/
theorem materialize_cycle (parents : SingleParents l.below) {r : Fin n}
    (cycle : TransGen (Below l.below) r r) {values : Values α n}
    (holds : ∀ i, values.at? i = some (value i)) :
    l.materialize build values r = .error (.cycle (l.idOf r)) := by
  obtain ⟨t, top, follows⟩ := Tree.exists_tree (parents.without r) r (not_below_without r r)
  have distinct : t.labels.Nodup :=
    Tree.nodup_labels (parents.without r) t follows (by rw [top]; exact not_below_without r r)
  obtain ⟨k, child, below⟩ := TransGen.head'_iff.mp cycle
  have closes : ∃ j ∈ t.labels, r ∈ l.below j :=
    ⟨k, (Tree.mem_labels_iff t follows).mpr (by rw [top]; exact below_without below), child⟩
  cases t with
  | node i ts =>
      obtain rfl : i = r := top
      obtain ⟨roots, all⟩ := follows
      have every : values.Holds value (Tree.node i ts).labels := fun j _ => holds j
      have claimed : (values.clear [i]).at? i = none := by simp [Values.at?_clear]
      have children := l.finish_trees_cycle build value ts (l.below i) roots.symm all
        (List.nodup_cons.mp distinct).2 _ (every.below distinct) claimed
        (by simpa [Tree.labels] using closes) (value i) [] [] []
      rw [List.append_nil] at children
      rw [l.materialize_of_at? build (holds i), children]

end Links

namespace Linked

variable {ns : Nodes α} {a : Arena α ns.size}

theorem index?_eq_none (linked : Linked ns a) {id : String} (unknown : id ∉ ns.ids) :
    a.links.index? id = none := by
  rw [Links.index?, List.find?_eq_none]
  intro i _ same
  rw [linked.ids, beq_iff_eq] at same
  exact unknown (same ▸ List.mem_map_of_mem (Nodes.node_mem i))

theorem foldSubtree_unknown (linked : Linked ns a) (build : α → List β → β) {id : String}
    (unknown : id ∉ ns.ids) : a.foldSubtree id build = .error (.notFound id) := by
  unfold Arena.foldSubtree
  rw [linked.index?_eq_none unknown]
  rfl

theorem foldSubtree_cycle (linked : Linked ns a) (build : α → List β → β) {i : Fin ns.size}
    (cycle : TransGen (Below ns.below) i i) :
    a.foldSubtree (ns.node i).id build = .error (.cycle (ns.node i).id) := by
  have failed := a.links.materialize_cycle build (fun j => (ns.node j).value)
    (linked.below_eq ▸ Nodes.singleParents) (linked.below_eq ▸ cycle) linked.values
  unfold Arena.foldSubtree
  rw [linked.index?_eq, ← linked.ids]
  simp only [failed]
  rfl

end Linked

/-- A node is below itself when its id is its own proper ancestor. -/
theorem Nodes.below_self_iff {ns : Nodes α} {i : Fin ns.size} : TransGen (Below ns.below) i i ↔
    TransGen (Names ns.items.toList) (ns.node i).id (ns.node i).id := by
  rw [TransGen.head'_iff, TransGen.head'_iff]
  constructor
  · rintro ⟨k, up, below⟩
    exact ⟨(ns.node k).id, below_iff_names.mp up, names_of_below below⟩
  · rintro ⟨parent, up, above⟩
    obtain ⟨k, rfl, below⟩ := exists_below_of_names above
    exact ⟨k, below_iff_names.mpr up, below⟩

/-- Extracting from linked nodes fails on an id that no node has and on an id that is its own proper
ancestor, naming it, and gives the fold of the tree of any other id, whatever the other nodes are. -/
theorem extraction_exact {α β : Type} (rows : List (Node α))
    (a : Arena α (Nodes.ofList rows).size) (link : (Nodes.ofList rows).link = .ok a)
    (id : String) (build : α → List β → β) :
    (∀ e, a.foldSubtree id build = .error e ↔
      (id ∉ rows.map Node.id ∧ e = .notFound id) ∨
        (TransGen (Names (firsts rows)) id id ∧ e = .cycle id)) ∧
    (id ∈ rows.map Node.id → ¬ TransGen (Names (firsts rows)) id id →
      ∃ t, IsSubtree (firsts rows) id t ∧
        a.foldSubtree id build = .ok (t.fold Node.value build)) := by
  have linked := Nodes.linked_of_link link
  rw [← Nodes.toList_ofList]
  have known : id ∈ rows.map Node.id ↔ id ∈ (Nodes.ofList rows).ids := Nodes.mem_ids_ofList.symm
  rw [known]
  by_cases member : id ∈ (Nodes.ofList rows).ids
  · obtain ⟨n, inside, rfl⟩ := List.mem_map.mp member
    obtain ⟨i, rfl⟩ := Nodes.exists_node inside
    rw [← Nodes.below_self_iff]
    by_cases cycle : TransGen (Below (Nodes.ofList rows).below) i i
    · rw [linked.foldSubtree_cycle build cycle]
      refine ⟨fun e => ?_, fun _ acyclic => absurd cycle acyclic⟩
      simp [member, cycle, eq_comm]
    · obtain ⟨t, isSubtree, folded⟩ := linked.foldSubtree_tree build i cycle
      refine ⟨fun e => ?_, fun _ _ => ⟨t, isSubtree, folded⟩⟩
      simp [folded, member, cycle]
  · have acyclic : ¬ TransGen (Names (Nodes.ofList rows).items.toList) id id := by
      intro cycle
      obtain ⟨parent, up, _⟩ := TransGen.head'_iff.mp cycle
      obtain ⟨n, inside, same, _⟩ := mem_links.mp up
      exact member (List.mem_map.mpr ⟨n, inside, same⟩)
    rw [linked.foldSubtree_unknown build member]
    refine ⟨fun e => ?_, fun inside => absurd inside member⟩
    simp [member, acyclic, eq_comm]

/-- A node with a child beside a cycle that has a node below it. -/
def besideCycle : List (Node Nat) :=
  [⟨"c", some "d", 3⟩, ⟨"b", some "a", 2⟩, ⟨"a", none, 1⟩, ⟨"d", some "c", 4⟩, ⟨"e", some "c", 5⟩,
    ⟨"b", none, 6⟩]

theorem firsts_besideCycle : firsts besideCycle =
    [⟨"c", some "d", 3⟩, ⟨"b", some "a", 2⟩, ⟨"a", none, 1⟩, ⟨"d", some "c", 4⟩,
      ⟨"e", some "c", 5⟩] := by
  simp [besideCycle, firsts, List.eraseDupsBy_cons]

theorem extraction_exact_besideCycle : ∃ a, (Nodes.ofList besideCycle).link = .ok a ∧
    a.foldSubtree "c" (fun v (built : List (List Nat)) => v :: built.flatten) =
      .error (.cycle "c") ∧
    a.foldSubtree "x" (fun v (built : List (List Nat)) => v :: built.flatten) =
      .error (.notFound "x") ∧
    ∃ t, IsSubtree (firsts besideCycle) "e" t ∧
      a.foldSubtree "e" (fun v (built : List (List Nat)) => v :: built.flatten) =
        .ok (t.fold Node.value fun v built => v :: built.flatten) := by
  obtain ⟨a, link⟩ := (Nodes.ofList besideCycle).link_fails.ok_iff.mpr
    (none_first_iff.mpr fun n member => none_danglingIn_iff.mpr fun parent given => by
      rw [Nodes.toList_ofList, firsts_besideCycle] at member
      rw [Nodes.mem_ids_ofList]
      simp only [List.mem_cons, List.not_mem_nil, or_false] at member
      rcases member with rfl | rfl | rfl | rfl | rfl <;> cases given <;> simp [besideCycle])
  have extracted (id : String) := extraction_exact besideCycle a link id
    fun v (built : List (List Nat)) => v :: built.flatten
  have names (id parent : String) : Names (firsts besideCycle) id parent ↔
      (id, some parent) ∈ [("c", some "d"), ("b", some "a"), ("a", none), ("d", some "c"),
        ("e", some "c")] := by
    rw [Names, firsts_besideCycle]
    rfl
  have around : TransGen (Names (firsts besideCycle)) "c" "c" :=
    (TransGen.single ((names "d" "c").mpr (by simp))).head ((names "c" "d").mpr (by simp))
  have below : ¬ TransGen (Names (firsts besideCycle)) "e" "e" := by
    intro cycle
    obtain ⟨k, _, up⟩ := TransGen.tail'_iff.mp cycle
    simp [names] at up
  exact ⟨a, link, ((extracted "c").1 _).mpr (Or.inr ⟨around, rfl⟩),
    ((extracted "x").1 _).mpr (Or.inl ⟨by simp [besideCycle], rfl⟩),
    (extracted "e").2 (by simp [besideCycle]) below⟩

end QueryBoard.Hierarchy
