import Mathlib.Data.Fintype.Card
import Mathlib.Data.List.Nodup
import Mathlib.Logic.Relation

/-!
# Trees over nodes with children

What is below a node that is not on a cycle is a tree, and no node occurs in it twice: every node
is the child of one other at most.  The trees of several nodes have nothing in common when none of
these nodes is below another one.
-/

set_option autoImplicit false

namespace QueryBoard.Hierarchy

open Relation (ReflTransGen TransGen)

/-- A tree, the children of every label in order. -/
inductive Tree (ι : Type) where
  | node (label : ι) (children : List (Tree ι))

namespace Tree

variable {ι κ α β : Type}

def root : Tree ι → ι
  | node i _ => i

mutual

/-- The labels of a tree, each before those below it. -/
def labels : Tree ι → List ι
  | node i ts => i :: labelsList ts

def labelsList : List (Tree ι) → List ι
  | [] => []
  | t :: ts => t.labels ++ labelsList ts

end

mutual

/-- Builds a result for every label out of its value and the results of its children. -/
def fold (value : ι → α) (build : α → List β → β) : Tree ι → β
  | node i ts => build (value i) (foldList value build ts)

def foldList (value : ι → α) (build : α → List β → β) : List (Tree ι) → List β
  | [] => []
  | t :: ts => t.fold value build :: foldList value build ts

end

mutual

/-- Whether every label has exactly the given children below it. -/
def Follows (children : ι → List ι) : Tree ι → Prop
  | node i ts => ts.map root = children i ∧ FollowsAll children ts

def FollowsAll (children : ι → List ι) : List (Tree ι) → Prop
  | [] => True
  | t :: ts => t.Follows children ∧ FollowsAll children ts

end

mutual

def map (f : ι → κ) : Tree ι → Tree κ
  | node i ts => node (f i) (mapList f ts)

def mapList (f : ι → κ) : List (Tree ι) → List (Tree κ)
  | [] => []
  | t :: ts => t.map f :: mapList f ts

end

theorem foldList_eq (value : ι → α) (build : α → List β → β) (ts : List (Tree ι)) :
    foldList value build ts = ts.map (fold value build) := by
  induction ts with
  | nil => rfl
  | cons t ts ih => rw [foldList, List.map_cons, ih]

theorem root_mem_labels (t : Tree ι) : t.root ∈ t.labels := by
  cases t
  simp [root, labels]

/-! ## Other labels -/

theorem root_map (f : ι → κ) (t : Tree ι) : (t.map f).root = f t.root := by
  cases t
  rfl

theorem map_root_mapList (f : ι → κ) (ts : List (Tree ι)) :
    (mapList f ts).map root = (ts.map root).map f := by
  induction ts with
  | nil => rfl
  | cons t ts ih => simp only [mapList, List.map_cons, ih, root_map]

mutual

theorem labels_map (f : ι → κ) : (t : Tree ι) → (t.map f).labels = t.labels.map f
  | node i ts => by rw [map, labels, labels, List.map_cons, labelsList_mapList f ts]

theorem labelsList_mapList (f : ι → κ) :
    (ts : List (Tree ι)) → labelsList (mapList f ts) = (labelsList ts).map f
  | [] => rfl
  | t :: ts => by
      rw [mapList, labelsList, labelsList, List.map_append, labels_map f t, labelsList_mapList f ts]

end

mutual

theorem fold_map (f : ι → κ) (value : κ → α) (build : α → List β → β) :
    (t : Tree ι) → (t.map f).fold value build = t.fold (fun i => value (f i)) build
  | node i ts => by rw [map, fold, fold, foldList_mapList f value build ts]

theorem foldList_mapList (f : ι → κ) (value : κ → α) (build : α → List β → β) :
    (ts : List (Tree ι)) →
      foldList value build (mapList f ts) = foldList (fun i => value (f i)) build ts
  | [] => rfl
  | t :: ts => by
      rw [mapList, foldList, foldList, fold_map f value build t, foldList_mapList f value build ts]

end

section

variable {f : ι → κ} {children : ι → List ι} {children' : κ → List κ}

mutual

theorem Follows.map (same : ∀ i, (children i).map f = children' (f i)) :
    (t : Tree ι) → t.Follows children → (t.map f).Follows children'
  | node i ts, ⟨roots, below⟩ => by
      refine ⟨?_, FollowsAll.mapList same ts below⟩
      rw [map_root_mapList, roots, same]

theorem FollowsAll.mapList (same : ∀ i, (children i).map f = children' (f i)) :
    (ts : List (Tree ι)) → FollowsAll children ts → FollowsAll children' (mapList f ts)
  | [], _ => trivial
  | t :: ts, ⟨first, rest⟩ => ⟨Follows.map same t first, FollowsAll.mapList same ts rest⟩

end

end

end Tree

/-! ## Nodes with one parent at most -/

variable {ι : Type} {children : ι → List ι}

/-- Whether one node is right below another one. -/
def Below (children : ι → List ι) (j i : ι) : Prop := j ∈ children i

/-- No node is a child twice. -/
structure SingleParents (children : ι → List ι) : Prop where
  single : ∀ {i i' j : ι}, j ∈ children i → j ∈ children i' → i = i'
  distinct : ∀ i, (children i).Nodup

namespace SingleParents

/-- Of two nodes above a node one is above the other. -/
theorem comparable (parents : SingleParents children) {x i j : ι}
    (left : ReflTransGen (Below children) x i) (right : ReflTransGen (Below children) x j) :
    ReflTransGen (Below children) i j ∨ ReflTransGen (Below children) j i :=
  ReflTransGen.total_of_right_unique (fun _ _ _ up up' => parents.single up up') left right

/-- A child of a node that is not on a cycle is on none either. -/
theorem acyclic_child (parents : SingleParents children) {i j : ι} (child : j ∈ children i)
    (acyclic : ¬ TransGen (Below children) i i) : ¬ TransGen (Below children) j j := by
  intro cycle
  obtain ⟨k, up, back⟩ := TransGen.head'_iff.mp cycle
  have same : i = k := parents.single child up
  rw [← same] at back
  exact acyclic (TransGen.tail' back child)

/-- A child of a node that is not on a cycle is below no other child. -/
theorem child_below_child (parents : SingleParents children) {i j k : ι} (left : j ∈ children i)
    (right : k ∈ children i) (acyclic : ¬ TransGen (Below children) i i)
    (below : ReflTransGen (Below children) j k) : j = k := by
  rcases below.cases_head with same | ⟨m, up, rest⟩
  · exact same
  · have same : i = m := parents.single left up
    rw [← same] at rest
    exact absurd (TransGen.tail' rest right) acyclic

end SingleParents

namespace Tree

/-! ## The tree of a node -/

theorem exists_forest {is : List ι} (each : ∀ i ∈ is, ∃ t : Tree ι, t.root = i ∧ t.Follows children) :
    ∃ ts : List (Tree ι), ts.map root = is ∧ FollowsAll children ts := by
  induction is with
  | nil => exact ⟨[], rfl, trivial⟩
  | cons i is ih =>
      obtain ⟨t, top, follows⟩ := each i (by simp)
      obtain ⟨ts, roots, all⟩ := ih fun j member => each j (by simp [member])
      exact ⟨t :: ts, by rw [List.map_cons, top, roots], follows, all⟩

/-- Going down from nodes that are not on a cycle comes to an end. -/
theorem wellFounded_below [Finite ι] (children : ι → List ι) :
    WellFounded fun j i =>
      ¬ TransGen (Below children) i i ∧ TransGen (Below children) j i := by
  have irrefl : Std.Irrefl fun j i =>
      ¬ TransGen (Below children) i i ∧ TransGen (Below children) j i :=
    ⟨fun _ cycle => cycle.1 cycle.2⟩
  have trans : IsTrans ι fun j i =>
      ¬ TransGen (Below children) i i ∧ TransGen (Below children) j i :=
    ⟨fun _ _ _ lower upper => ⟨upper.1, lower.2.trans upper.2⟩⟩
  exact Finite.wellFounded_of_trans_of_irrefl _

theorem exists_tree [Finite ι] (parents : SingleParents children) (i : ι)
    (acyclic : ¬ TransGen (Below children) i i) :
    ∃ t : Tree ι, t.root = i ∧ t.Follows children := by
  induction i using (wellFounded_below children).induction with
  | h i ih =>
      have each : ∀ j ∈ children i, ∃ t : Tree ι, t.root = j ∧ t.Follows children := by
        intro j child
        exact ih j ⟨acyclic, TransGen.single child⟩ (parents.acyclic_child child acyclic)
      obtain ⟨ts, roots, all⟩ := exists_forest each
      exact ⟨node i ts, rfl, roots, all⟩

mutual

theorem mem_labels_iff {x : ι} : (t : Tree ι) → t.Follows children →
    (x ∈ t.labels ↔ ReflTransGen (Below children) x t.root)
  | node i ts, ⟨roots, all⟩ => by
      rw [labels, List.mem_cons, mem_labelsList_iff ts all, roots, root]
      constructor
      · rintro (rfl | ⟨j, child, below⟩)
        · exact ReflTransGen.refl
        · exact below.tail child
      · intro below
        rcases below.cases_tail with same | ⟨j, below, child⟩
        · exact Or.inl same.symm
        · exact Or.inr ⟨j, child, below⟩

theorem mem_labelsList_iff {x : ι} : (ts : List (Tree ι)) → FollowsAll children ts →
    (x ∈ labelsList ts ↔ ∃ r ∈ ts.map root, ReflTransGen (Below children) x r)
  | [], _ => by simp [labelsList]
  | t :: ts, ⟨first, rest⟩ => by
      rw [labelsList, List.mem_append, mem_labels_iff t first, mem_labelsList_iff ts rest]
      simp

end

mutual

/-- No label occurs twice in the tree of a node that is not on a cycle. -/
theorem nodup_labels (parents : SingleParents children) : (t : Tree ι) → t.Follows children →
    ¬ TransGen (Below children) t.root t.root → t.labels.Nodup
  | node i ts, ⟨roots, all⟩, acyclic => by
      rw [root] at acyclic
      rw [labels, List.nodup_cons, mem_labelsList_iff ts all, roots]
      constructor
      · rintro ⟨j, child, below⟩
        exact acyclic (TransGen.tail' below child)
      · apply nodup_labelsList parents ts all <;> rw [roots]
        · exact parents.distinct i
        · intro j child
          exact parents.acyclic_child child acyclic
        · intro j child k child'
          exact parents.child_below_child child child' acyclic

theorem nodup_labelsList (parents : SingleParents children) : (ts : List (Tree ι)) →
    FollowsAll children ts → (ts.map root).Nodup →
    (∀ r ∈ ts.map root, ¬ TransGen (Below children) r r) →
    (∀ r ∈ ts.map root, ∀ r' ∈ ts.map root, ReflTransGen (Below children) r r' → r = r') →
    (labelsList ts).Nodup
  | [], _, _, _, _ => List.nodup_nil
  | t :: ts, ⟨first, rest⟩, distinct, acyclic, apart => by
      rw [List.map_cons, List.nodup_cons] at distinct
      rw [labelsList, List.nodup_append]
      refine ⟨nodup_labels parents t first (acyclic _ (by simp)), ?_, ?_⟩
      · apply nodup_labelsList parents ts rest distinct.2
        · exact fun r member => acyclic r (by simp [member])
        · exact fun r member r' member' => apart r (by simp [member]) r' (by simp [member'])
      · -- A label of both would have one root above the other.
        intro x left y right same
        subst same
        rw [mem_labels_iff t first] at left
        obtain ⟨r, member, below⟩ := (mem_labelsList_iff ts rest).mp right
        have equal : t.root = r := by
          rcases parents.comparable left below with up | up
          · exact apart _ (by simp) r (by simp [member]) up
          · exact (apart r (by simp [member]) _ (by simp) up).symm
        rw [equal] at distinct
        exact distinct.1 member

end

end Tree

end QueryBoard.Hierarchy
