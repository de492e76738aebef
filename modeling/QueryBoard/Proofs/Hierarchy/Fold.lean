import QueryBoard.Hierarchy.Arena
import QueryBoard.Proofs.Hierarchy.Forest

/-!
# Folding with a stack is folding a tree

Where the links below a node form a tree, and no value of it has been claimed, the walk over the
links gives the fold of that tree and claims its values and no others.
-/

set_option autoImplicit false

namespace QueryBoard.Hierarchy

variable {α β : Type} {n : Nat}

/-! ## Claimed values -/

namespace Values

/-- The values that are left when those at some indexes are claimed. -/
def clear (values : Values α n) (is : List (Fin n)) : Values α n :=
  is.foldl without values

theorem clear_cons (values : Values α n) (i : Fin n) (is : List (Fin n)) :
    values.clear (i :: is) = (values.without i).clear is := rfl

theorem clear_append (values : Values α n) (is js : List (Fin n)) :
    values.clear (is ++ js) = (values.clear is).clear js := List.foldl_append

theorem at?_without (values : Values α n) (j i : Fin n) :
    (values.without j).at? i = if j = i then none else values.at? i := by
  unfold at? without
  simp only [Fin.getElem_fin, Vector.getElem_set, Fin.ext_iff]

theorem at?_clear (values : Values α n) (is : List (Fin n)) (i : Fin n) :
    (values.clear is).at? i = if i ∈ is then none else values.at? i := by
  induction is generalizing values with
  | nil => simp [clear]
  | cons j is ih =>
      rw [clear_cons, ih, at?_without]
      by_cases same : j = i
      · simp [same]
      · have apart : i ≠ j := fun equal => same equal.symm
        simp [same, apart]

def Holds (values : Values α n) (value : Fin n → α) (is : List (Fin n)) : Prop :=
  ∀ i ∈ is, values.at? i = some (value i)

theorem Holds.clear {values : Values α n} {value : Fin n → α} {is js : List (Fin n)}
    (holds : values.Holds value is) (apart : ∀ i ∈ is, i ∉ js) :
    (values.clear js).Holds value is := by
  intro i member
  rw [at?_clear, if_neg (apart i member)]
  exact holds i member

theorem Holds.below {values : Values α n} {value : Fin n → α} {i : Fin n} {ts : List (Tree (Fin n))}
    (holds : values.Holds value (Tree.node i ts).labels)
    (distinct : (Tree.node i ts).labels.Nodup) :
    (values.clear [i]).Holds value (Tree.labelsList ts) := by
  refine Holds.clear (fun j member => holds j (by simp [Tree.labels, member])) ?_
  intro j member single
  rw [List.mem_singleton.mp single] at member
  exact (List.nodup_cons.mp distinct).1 member

theorem Holds.first {values : Values α n} {value : Fin n → α} {t : Tree (Fin n)}
    {ts : List (Tree (Fin n))} (holds : values.Holds value (Tree.labelsList (t :: ts))) :
    values.Holds value t.labels :=
  fun i member => holds i (by simp [Tree.labelsList, member])

theorem Holds.rest {values : Values α n} {value : Fin n → α} {t : Tree (Fin n)}
    {ts : List (Tree (Fin n))} (holds : values.Holds value (Tree.labelsList (t :: ts)))
    (distinct : (Tree.labelsList (t :: ts)).Nodup) :
    (values.clear t.labels).Holds value (Tree.labelsList ts) := by
  refine Holds.clear (fun i member => holds i (by simp [Tree.labelsList, member])) ?_
  intro i member first
  exact (List.nodup_append.mp distinct).2.2 i first i member rfl

theorem claim_of_at? {values : Values α n} {i : Fin n} {v : α} (found : values.at? i = some v) :
    values.claim i = some (v, values.clear [i]) := by
  unfold claim
  rw [found]
  rfl

end Values

/-! ## One node -/

namespace Links

variable (l : Links n) (build : α → List β → β)

theorem openNode_of_at? {values : Values α n} {i : Fin n} {v : α} (found : values.at? i = some v) :
    (l.openNode values i : Except TreeError (Frame α β n × Values α n)) =
      .ok (⟨v, l.below i, []⟩, values.clear [i]) := by
  unfold openNode
  rw [Values.claim_of_at? found]

theorem openNode_of_claimed {values : Values α n} {i : Fin n} (claimed : values.at? i = none) :
    (l.openNode values i : Except TreeError (Frame α β n × Values α n)) =
      .error (.cycle (l.idOf i)) := by
  unfold openNode Values.claim
  rw [claimed]

/-- The frame of a node is on the stack while its children are folded. -/
theorem finish_of_at? {values : Values α n} {i : Fin n} {w : α} (found : values.at? i = some w)
    (v : α) (pending : List (Fin n)) (built : List β) (around : List (Frame α β n)) :
    l.finish build values ⟨v, i :: pending, built⟩ around =
      l.finish build (values.clear [i]) ⟨w, l.below i, []⟩ (⟨v, pending, built⟩ :: around) := by
  have opened := l.openNode_of_at? (β := β) found
  rw [finish]
  split
  · next child rest success =>
      rw [opened] at success
      cases success
      rfl
  · next e failure =>
      rw [opened] at failure
      cases failure

theorem finish_of_claimed {values : Values α n} {i : Fin n} (claimed : values.at? i = none)
    (v : α) (pending : List (Fin n)) (built : List β) (around : List (Frame α β n)) :
    l.finish build values ⟨v, i :: pending, built⟩ around = .error (.cycle (l.idOf i)) := by
  have failed := l.openNode_of_claimed (β := β) claimed
  rw [finish]
  split
  · next child rest success =>
      rw [failed] at success
      cases success
  · next e failure =>
      rw [failed] at failure
      cases failure
      rfl

theorem materialize_of_at? {values : Values α n} {i : Fin n} {v : α}
    (found : values.at? i = some v) : l.materialize build values i =
      l.finish build (values.clear [i]) ⟨v, l.below i, []⟩ [] := by
  unfold materialize
  rw [l.openNode_of_at? found]
  rfl

/-! ## One tree -/

variable (value : Fin n → α)

mutual

/-- A tree among the children still to visit is folded first. -/
theorem finish_tree : (t : Tree (Fin n)) → t.Follows l.below → t.labels.Nodup →
    ∀ (values : Values α n), values.Holds value t.labels →
    ∀ (v : α) (pending : List (Fin n)) (built : List β) (around : List (Frame α β n)),
      l.finish build values ⟨v, t.root :: pending, built⟩ around =
        l.finish build (values.clear t.labels) ⟨v, pending, t.fold value build :: built⟩ around
  | .node i ts, ⟨roots, all⟩, distinct, values, holds, v, pending, built, around => by
      have found : values.at? i = some (value i) := holds i (by simp [Tree.labels])
      have children := finish_trees ts all (List.nodup_cons.mp distinct).2 (values.clear [i])
        (holds.below distinct) (value i) [] [] (⟨v, pending, built⟩ :: around)
      rw [roots, List.append_nil, List.append_nil] at children
      rw [Tree.root, l.finish_of_at? build found, children, finish, List.reverse_reverse]
      rfl

theorem finish_trees : (ts : List (Tree (Fin n))) → Tree.FollowsAll l.below ts →
    (Tree.labelsList ts).Nodup →
    ∀ (values : Values α n), values.Holds value (Tree.labelsList ts) →
    ∀ (v : α) (pending : List (Fin n)) (built : List β) (around : List (Frame α β n)),
      l.finish build values ⟨v, ts.map Tree.root ++ pending, built⟩ around =
        l.finish build (values.clear (Tree.labelsList ts))
          ⟨v, pending, (Tree.foldList value build ts).reverse ++ built⟩ around
  | [], _, _, values, _, v, pending, built, around => rfl
  | t :: ts, ⟨first, all⟩, distinct, values, holds, v, pending, built, around => by
      obtain ⟨distinctFirst, distinctRest, _⟩ := List.nodup_append.mp distinct
      rw [List.map_cons, List.cons_append,
        finish_tree t first distinctFirst values holds.first v _ built around,
        finish_trees ts all distinctRest _ (holds.rest distinct) v pending _ around,
        ← Values.clear_append,
        Tree.foldList, List.reverse_cons, List.append_assoc]
      rfl

end

theorem materialize_tree {t : Tree (Fin n)} (follows : t.Follows l.below) (distinct : t.labels.Nodup)
    {values : Values α n} (holds : values.Holds value t.labels) :
    l.materialize build values t.root = .ok (t.fold value build, values.clear t.labels) := by
  cases t with
  | node i ts =>
      obtain ⟨roots, all⟩ := follows
      have found : values.at? i = some (value i) := holds i (by simp [Tree.labels])
      have children := l.finish_trees build value ts all (List.nodup_cons.mp distinct).2 _
        (holds.below distinct) (value i) [] [] []
      rw [roots, List.append_nil, List.append_nil] at children
      rw [Tree.root, l.materialize_of_at? build found, children, finish, List.reverse_reverse]
      rfl

/-- The results of subtrees without a common node are the folds of their trees. -/
theorem materializeAll_forest {ts : List (Tree (Fin n))} (follows : Tree.FollowsAll l.below ts)
    (distinct : (Tree.labelsList ts).Nodup) {values : Values α n}
    (holds : values.Holds value (Tree.labelsList ts)) :
    l.materializeAll build values (ts.map Tree.root) =
      .ok (Tree.foldList value build ts, values.clear (Tree.labelsList ts)) := by
  induction ts generalizing values with
  | nil => rfl
  | cons t ts ih =>
      obtain ⟨first, all⟩ := follows
      obtain ⟨distinctFirst, distinctRest, _⟩ := List.nodup_append.mp distinct
      have one := l.materialize_tree build value first distinctFirst holds.first
      have more := ih all distinctRest (holds.rest distinct)
      rw [List.map_cons, materializeAll, one]
      simp only [bind, Except.bind, more]
      rw [Tree.foldList, Tree.labelsList, Values.clear_append]
      rfl

end Links

end QueryBoard.Hierarchy
