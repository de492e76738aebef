import QueryBoard.Proofs.Hierarchy.Fold

/-!
# Walks over any links

The links below a node may lead back to it or meet again, and some values may have been claimed
before.  A walk still ends: every step opens an unclaimed node, closes an open one, or comes to a
claimed one, which is the last step.  A walk that gives a result has gone over a tree, has built a
result for every node of it after those of its children, and has claimed these nodes only.
-/

set_option autoImplicit false

namespace QueryBoard.Hierarchy

open Relation (ReflTransGen)

variable {α β : Type} {n : Nat}

/-! ## Subtrees in post-order -/

namespace Tree

variable {ι : Type}

mutual

/-- The subtrees of a tree, each after those below it. -/
def postorder : Tree ι → List (Tree ι)
  | node i ts => postorderList ts ++ [node i ts]

def postorderList : List (Tree ι) → List (Tree ι)
  | [] => []
  | t :: ts => t.postorder ++ postorderList ts

end

/-- What the result of a tree is built out of. -/
def parts (value : ι → α) (build : α → List β → β) : Tree ι → α × List β
  | node i ts => (value i, foldList value build ts)

mutual

theorem postorder_perm : (t : Tree ι) → (t.postorder.map root).Perm t.labels
  | node i ts => by
      rw [postorder, labels, List.map_append]
      exact List.perm_append_comm.trans (.cons i (postorderList_perm ts))

theorem postorderList_perm : (ts : List (Tree ι)) →
    ((postorderList ts).map root).Perm (labelsList ts)
  | [] => .nil
  | t :: ts => by
      rw [postorderList, labelsList, List.map_append]
      exact (postorder_perm t).append (postorderList_perm ts)

end

end Tree

/-! ## Steps -/

/-- What happens in a step: a node is opened, a claimed node is met, or the result of a node is
built. -/
inductive Event (α β : Type) (n : Nat) where
  | opens (i : Fin n)
  | meets (i : Fin n)
  | builds (v : α) (results : List β)

def Event.call? : Event α β n → Option (α × List β)
  | .builds v results => some (v, results)
  | .opens _ | .meets _ => none

inductive Walk (α β : Type) (n : Nat) where
  | start (values : Values α n) (root : Fin n)
  | within (values : Values α n) (current : Frame α β n) (around : List (Frame α β n))
  | done (result : β) (values : Values α n)
  | cycle (i : Fin n)

namespace Walk

/-- An upper bound of the steps still to come: every unclaimed node may be opened and closed, and
every open one is to be closed. -/
def size : Walk α β n → Nat
  | start values _ => 2 * values.unclaimed + 1
  | within values _ around => 2 * values.unclaimed + around.length + 1
  | done _ _ | cycle _ => 0

end Walk

namespace Links

variable (l : Links n) (build : α → List β → β)

/-- The next step, none at the end of a walk. -/
def next? : Walk α β n → Option (Event α β n × Walk α β n)
  | .start values root =>
    match values.at? root with
    | some v => some (.opens root, .within (values.without root) ⟨v, l.below root, []⟩ [])
    | none => some (.meets root, .cycle root)
  | .within values ⟨v, i :: pending, built⟩ around =>
    match values.at? i with
    | some w =>
      some (.opens i,
        .within (values.without i) ⟨w, l.below i, []⟩ (⟨v, pending, built⟩ :: around))
    | none => some (.meets i, .cycle i)
  | .within values ⟨v, [], built⟩ (⟨w, pending, earlier⟩ :: around) =>
    some (.builds v built.reverse,
      .within values ⟨w, pending, build v built.reverse :: earlier⟩ around)
  | .within values ⟨v, [], built⟩ [] =>
    some (.builds v built.reverse, .done (build v built.reverse) values)
  | .done _ _ | .cycle _ => none

inductive Steps : Walk α β n → List (Event α β n) → Walk α β n → Prop where
  | refl {w : Walk α β n} : Steps w [] w
  | step {w w' w'' : Walk α β n} {e : Event α β n} {events : List (Event α β n)} :
      l.next? build w = some (e, w') → Steps w' events w'' → Steps w (e :: events) w''

/-- What the computation gives from a walk on. -/
def outcome : Walk α β n → Except TreeError (β × Values α n)
  | .start values root => l.materialize build values root
  | .within values current around => l.finish build values current around
  | .done result values => .ok (result, values)
  | .cycle i => .error (.cycle (l.idOf i))

end Links

namespace Values

theorem unclaimed_clear_lt {values : Values α n} {i : Fin n} {v : α}
    (found : values.at? i = some v) : (values.clear [i]).unclaimed < values.unclaimed :=
  unclaimed_claim (claim_of_at? found)

theorem unclaimed_clear_le (values : Values α n) (is : List (Fin n)) :
    (values.clear is).unclaimed ≤ values.unclaimed := by
  induction is generalizing values with
  | nil => exact Nat.le_refl _
  | cons i is ih =>
      refine (ih (values.without i)).trans ?_
      unfold unclaimed without
      rw [Vector.countP_set]
      simp only [Option.isSome_none, Bool.false_eq_true, if_false]
      omega

end Values

namespace Links

section

variable (l : Links n) (build : α → List β → β)

theorem next?_start {values : Values α n} {root : Fin n} {v : α}
    (found : values.at? root = some v) : l.next? build (.start values root) =
      some (.opens root, .within (values.clear [root]) ⟨v, l.below root, []⟩ []) := by
  rw [next?, found]
  rfl

theorem next?_open {values : Values α n} {i : Fin n} {w : α} (found : values.at? i = some w)
    (v : α) (pending : List (Fin n)) (built : List β) (around : List (Frame α β n)) :
    l.next? build (.within values ⟨v, i :: pending, built⟩ around) = some (.opens i,
      .within (values.clear [i]) ⟨w, l.below i, []⟩ (⟨v, pending, built⟩ :: around)) := by
  rw [next?, found]
  rfl

theorem next?_meet {values : Values α n} {i : Fin n} (claimed : values.at? i = none)
    (v : α) (pending : List (Fin n)) (built : List β) (around : List (Frame α β n)) :
    l.next? build (.within values ⟨v, i :: pending, built⟩ around) = some (.meets i, .cycle i) := by
  rw [next?, claimed]

end

variable {l : Links n} {build : α → List β → β}

/-- Every step brings the end nearer and leaves the outcome as it is. -/
theorem next?_advances {w w' : Walk α β n} {e : Event α β n}
    (next : l.next? build w = some (e, w')) :
    w'.size < w.size ∧ l.outcome build w = l.outcome build w' := by
  unfold next? at next
  split at next
  · next values root =>
      split at next
      · next v found =>
          cases next
          have fewer : (values.without root).unclaimed < values.unclaimed :=
            Values.unclaimed_clear_lt found
          refine ⟨?_, l.materialize_of_at? build found⟩
          simp only [Walk.size, List.length_nil]
          omega
      · next claimed =>
          cases next
          refine ⟨Nat.zero_lt_succ _, ?_⟩
          rw [outcome, materialize, l.openNode_of_claimed claimed]
          rfl
  · next values v i pending built around =>
      split at next
      · next w found =>
          cases next
          have fewer : (values.without i).unclaimed < values.unclaimed :=
            Values.unclaimed_clear_lt found
          refine ⟨?_, l.finish_of_at? build found v pending built around⟩
          simp only [Walk.size, List.length_cons]
          omega
      · next claimed =>
          cases next
          exact ⟨Nat.zero_lt_succ _, l.finish_of_claimed build claimed v pending built around⟩
  · cases next
    refine ⟨by simp only [Walk.size, List.length_cons]; omega, ?_⟩
    rw [outcome, finish]
    rfl
  · cases next
    refine ⟨Nat.zero_lt_succ _, ?_⟩
    rw [outcome, finish]
    rfl
  · cases next
  · cases next

/-- Within a walk there is always a next step. -/
theorem next?_eq_none_iff {w : Walk α β n} : l.next? build w = none ↔
    (∃ result values, w = .done result values) ∨ ∃ i, w = .cycle i := by
  constructor
  · intro last
    unfold next? at last
    split at last
    · split at last <;> cases last
    · split at last <;> cases last
    · cases last
    · cases last
    · exact .inl ⟨_, _, rfl⟩
    · exact .inr ⟨_, rfl⟩
  · rintro (⟨result, values, rfl⟩ | ⟨i, rfl⟩) <;> rfl

/-- A step within a walk opens the next child, meets it, or closes the node without one. -/
theorem event_cases {values : Values α n} {current : Frame α β n} {around : List (Frame α β n)}
    {e : Event α β n} {w' : Walk α β n}
    (next : l.next? build (.within values current around) = some (e, w')) :
    (∃ i ∈ current.pending.head?, e = .opens i ∧ (values.at? i).isSome ∨
      e = .meets i ∧ values.at? i = none) ∨
    current.pending = [] ∧ e = .builds current.value current.built.reverse := by
  obtain ⟨v, pending, built⟩ := current
  cases pending with
  | nil =>
      refine .inr ⟨rfl, ?_⟩
      cases around with
      | nil =>
          cases next
          rfl
      | cons outer around =>
          cases next
          rfl
  | cons i pending =>
      refine .inl ⟨i, rfl, ?_⟩
      cases found : values.at? i with
      | none =>
          rw [l.next?_meet build found] at next
          cases next
          exact .inr ⟨rfl, rfl⟩
      | some w =>
          rw [l.next?_open build found] at next
          cases next
          exact .inl ⟨rfl, rfl⟩

namespace Steps

theorem trans {w w' w'' : Walk α β n} {events later : List (Event α β n)}
    (first : l.Steps build w events w') (second : l.Steps build w' later w'') :
    l.Steps build w (events ++ later) w'' := by
  induction first with
  | refl => exact second
  | step next _ ih => exact .step next (ih second)

theorem length_le {w w' : Walk α β n} {events : List (Event α β n)}
    (steps : l.Steps build w events w') : events.length + w'.size ≤ w.size := by
  induction steps with
  | refl => simp
  | step next _ ih =>
      have nearer := (next?_advances next).1
      rw [List.length_cons]
      omega

theorem outcome_eq {w w' : Walk α β n} {events : List (Event α β n)}
    (steps : l.Steps build w events w') : l.outcome build w = l.outcome build w' := by
  induction steps with
  | refl => rfl
  | step next _ ih => exact (next?_advances next).2.trans ih

/-- Whatever is walked is the beginning of a walk that ends. -/
theorem prefix_of_end {w w' final : Walk α β n} {events all : List (Event α β n)}
    (whole : l.Steps build w all final) (last : l.next? build final = none)
    (steps : l.Steps build w events w') :
    ∃ rest, all = events ++ rest ∧ l.Steps build w' rest final := by
  induction steps generalizing all with
  | refl => exact ⟨all, rfl, whole⟩
  | step next _ ih =>
      cases whole with
      | refl =>
          rw [last] at next
          cases next
      | step next' whole =>
          cases next.symm.trans next'
          obtain ⟨rest, rfl, steps⟩ := ih whole
          exact ⟨rest, rfl, steps⟩

end Steps

end Links

/-! ## Walks over trees -/

namespace Tree

variable (value : Fin n → α) (build : α → List β → β)

mutual

/-- What happens in a walk over a tree. -/
def visits : Tree (Fin n) → List (Event α β n)
  | node i ts => .opens i :: (visitsList ts ++ [.builds (value i) (foldList value build ts)])

def visitsList : List (Tree (Fin n)) → List (Event α β n)
  | [] => []
  | t :: ts => visits t ++ visitsList ts

end

mutual

theorem calls_visits : (t : Tree (Fin n)) →
    (t.visits value build).filterMap Event.call? = t.postorder.map (parts value build)
  | node i ts => by
      rw [visits, postorder, List.filterMap_cons_none rfl, List.filterMap_append, List.map_append,
        calls_visitsList ts]
      rfl

theorem calls_visitsList : (ts : List (Tree (Fin n))) →
    (visitsList value build ts).filterMap Event.call? =
      (postorderList ts).map (parts value build)
  | [] => rfl
  | t :: ts => by
      rw [visitsList, postorderList, List.filterMap_append, List.map_append, calls_visits t,
        calls_visitsList ts]

end

mutual

theorem opens_mem_visits {i : Fin n} : (t : Tree (Fin n)) → i ∈ t.labels →
    Event.opens i ∈ t.visits value build
  | node j ts, member => by
      rw [visits]
      rcases List.mem_cons.mp member with rfl | member
      · exact List.mem_cons_self
      · exact List.mem_cons_of_mem _ (List.mem_append_left _ (opens_mem_visitsList ts member))

theorem opens_mem_visitsList {i : Fin n} : (ts : List (Tree (Fin n))) → i ∈ labelsList ts →
    Event.opens i ∈ visitsList value build ts
  | t :: ts, member => by
      rw [visitsList]
      rcases List.mem_append.mp member with member | member
      · exact List.mem_append_left _ (opens_mem_visits t member)
      · exact List.mem_append_right _ (opens_mem_visitsList ts member)

end

end Tree

namespace Values

/-- Whether the unclaimed values are the given ones. -/
def Agree (values : Values α n) (value : Fin n → α) : Prop :=
  ∀ i v, values.at? i = some v → v = value i

theorem at?_of_clear {values : Values α n} {is : List (Fin n)} {i : Fin n} {v : α}
    (found : (values.clear is).at? i = some v) : i ∉ is ∧ values.at? i = some v := by
  rw [at?_clear] at found
  split at found
  · cases found
  · next outside => exact ⟨outside, found⟩

theorem exists_agree (values : Values α n) (v : α) : ∃ value, values.Agree value := by
  refine ⟨fun i => (values.at? i).getD v, fun i w present => ?_⟩
  simp only [present, Option.getD_some]

theorem Agree.clear {values : Values α n} {value : Fin n → α} (agree : values.Agree value)
    (is : List (Fin n)) : (values.clear is).Agree value :=
  fun i v found => agree i v (at?_of_clear found).2

end Values

namespace Links

/-- Whether trees go over everything below some nodes, no node coming twice and none being
claimed. -/
structure Covers (l : Links n) (value : Fin n → α) (values : Values α n) (is : List (Fin n))
    (ts : List (Tree (Fin n))) : Prop where
  roots : ts.map Tree.root = is
  follows : Tree.FollowsAll l.below ts
  distinct : (Tree.labelsList ts).Nodup
  holds : values.Holds value (Tree.labelsList ts)

variable {l : Links n} {build : α → List β → β} {value : Fin n → α} {values : Values α n}

theorem Covers.cons {i : Fin n} {is : List (Fin n)} {ts later : List (Tree (Fin n))}
    (found : values.at? i = some (value i))
    (below : l.Covers value (values.clear [i]) (l.below i) ts)
    (rest : l.Covers value (values.clear (Tree.node i ts).labels) is later) :
    l.Covers value values (i :: is) (.node i ts :: later) where
  roots := by rw [List.map_cons, rest.roots, Tree.root]
  follows := ⟨⟨below.roots, below.follows⟩, rest.follows⟩
  distinct := by
    have first : (Tree.node i ts).labels.Nodup := List.nodup_cons.mpr
      ⟨fun again => (Values.at?_of_clear (below.holds i again)).1 List.mem_cons_self, below.distinct⟩
    refine List.nodup_append.mpr ⟨first, rest.distinct, ?_⟩
    · rintro j first _ second rfl
      exact (Values.at?_of_clear (rest.holds j second)).1 first
  holds := by
    intro j member
    rcases List.mem_append.mp member with first | second
    · rcases List.mem_cons.mp first with rfl | inside
      · exact found
      · exact (Values.at?_of_clear (below.holds j inside)).2
    · exact (Values.at?_of_clear (rest.holds j second)).2

/-- Whether a walk comes to a node that it has opened before or that was claimed at first. -/
def Blocked (l : Links n) (build : α → List β → β) (values : Values α n) (w : Walk α β n) : Prop :=
  ∃ events j, l.Steps build w (events ++ [.meets j]) (.cycle j) ∧
    (values.at? j = none ∨ .opens j ∈ events)

/-- A walk that is blocked after other steps is blocked. -/
theorem Blocked.after {is : List (Fin n)} {w w' : Walk α β n} {events : List (Event α β n)}
    (blocked : l.Blocked build (values.clear is) w') (steps : l.Steps build w events w')
    (opened : ∀ i ∈ is, .opens i ∈ events) : l.Blocked build values w := by
  obtain ⟨later, j, rest, reason⟩ := blocked
  refine ⟨events ++ later, j, ?_, ?_⟩
  · rw [List.append_assoc]
    exact steps.trans rest
  · rcases reason with claimed | again
    · rw [Values.at?_clear] at claimed
      split at claimed
      · next inside => exact .inr (List.mem_append_left _ (opened j inside))
      · exact .inl claimed
    · exact .inr (List.mem_append_right _ again)

/-- The children still to visit are the roots of trees that are walked over, or the walk is
blocked. -/
theorem covers_or_blocked (build : α → List β → β) (agree : values.Agree value) (v : α)
    (is : List (Fin n)) (built : List β) (around : List (Frame α β n)) :
    (∃ ts, l.Covers value values is ts ∧
      l.Steps build (.within values ⟨v, is, built⟩ around) (Tree.visitsList value build ts)
        (.within (values.clear (Tree.labelsList ts))
          ⟨v, [], (Tree.foldList value build ts).reverse ++ built⟩ around)) ∨
    l.Blocked build values (.within values ⟨v, is, built⟩ around) := by
  -- Every child that is visited claims a value, also before the children after it are visited.
  induction count : values.unclaimed using Nat.strongRecOn
    generalizing values v is built around with
  | _ m ih =>
      cases is with
      | nil => exact .inl ⟨[], ⟨rfl, trivial, .nil, nofun⟩, .refl⟩
      | cons i is =>
          cases found : values.at? i with
          | none =>
              exact .inr ⟨[], i, .step (l.next?_meet build found v is built around) .refl, .inl found⟩
          | some w =>
              obtain rfl := agree i w found
              have fewer := Values.unclaimed_clear_lt found
              have opens := l.next?_open build found v is built around
              rcases ih (values.clear [i]).unclaimed (count ▸ fewer) (agree.clear [i]) (value i)
                (l.below i) [] (⟨v, is, built⟩ :: around) rfl with ⟨ts, below, steps⟩ | blocked
              · have visited : l.Steps build (.within values ⟨v, i :: is, built⟩ around)
                    ((Tree.node i ts).visits value build)
                    (.within (values.clear (Tree.node i ts).labels)
                      ⟨v, is, (Tree.node i ts).fold value build :: built⟩ around) := by
                  refine .step opens (steps.trans (.step ?_ .refl))
                  rw [List.append_nil, next?, List.reverse_reverse]
                  rfl
                have left := Values.unclaimed_clear_le (values.clear [i]) (Tree.labelsList ts)
                rcases ih (values.clear (Tree.node i ts).labels).unclaimed
                  (count ▸ Nat.lt_of_le_of_lt left fewer) (agree.clear _) v is
                  ((Tree.node i ts).fold value build :: built) around rfl with
                  ⟨later, rest, steps⟩ | blocked
                · refine .inl ⟨.node i ts :: later, .cons found below rest, ?_⟩
                  rw [Tree.foldList, List.reverse_cons, List.append_assoc, Tree.labelsList,
                    Values.clear_append]
                  exact visited.trans steps
                · exact .inr (blocked.after visited fun j => Tree.opens_mem_visits value build _)
              · refine .inr (blocked.after (.step opens .refl) fun j member => ?_)
                rw [List.mem_singleton.mp member]
                exact List.mem_cons_self

/-- A walk from a node goes over a tree, or it is blocked. -/
theorem covers_or_blocked_start (build : α → List β → β) (values : Values α n) (root : Fin n) :
    (∃ (t : Tree (Fin n)) (value : Fin n → α), l.Covers value values [root] [t] ∧
      l.Steps build (.start values root) (t.visits value build)
        (.done (t.fold value build) (values.clear t.labels))) ∨
    l.Blocked build values (.start values root) := by
  cases found : values.at? root with
  | none => exact .inr ⟨[], root, .step (by rw [next?, found]) .refl, .inl found⟩
  | some v =>
      obtain ⟨value, agree⟩ := values.exists_agree v
      obtain rfl := agree root v found
      have opens := l.next?_start build found
      rcases covers_or_blocked build (agree.clear [root]) (value root) (l.below root)
        [] [] with ⟨ts, below, steps⟩ | blocked
      · refine .inl ⟨.node root ts, value, ?_, .step opens (steps.trans (.step ?_ .refl))⟩
        · exact .cons found below ⟨rfl, trivial, .nil, nofun⟩
        · rw [List.append_nil, next?, List.reverse_reverse]
          rfl
      · refine .inr (blocked.after (.step opens .refl) fun j member => ?_)
        rw [List.mem_singleton.mp member]
        exact List.mem_cons_self

/-- Every step leaves fewer steps to come: it opens an unclaimed node, comes to a claimed one, or
closes the node that is open, and there is a next step until the walk is done or at a cycle.  So
every walk from a node is the beginning of one that ends, with the outcome that is computed.  A
result is the fold of the tree below the node, for which a result is built at every node reached,
after those of its children, and only these nodes are claimed.  A cycle is reported at a node that
was opened before or that was claimed at first. -/
theorem materialize_walks (l : Links n) (build : α → List β → β) (values : Values α n)
    (root : Fin n) :
    (∀ (w : Walk α β n) e w', l.next? build w = some (e, w') → w'.size < w.size) ∧
    (∀ w : Walk α β n, l.next? build w = none ↔
      (∃ result rest, w = .done result rest) ∨ ∃ i, w = .cycle i) ∧
    (∀ (now : Values α n) (current : Frame α β n) around e w',
      l.next? build (.within now current around) = some (e, w') →
        (∃ i ∈ current.pending.head?, e = .opens i ∧ (now.at? i).isSome ∨
          e = .meets i ∧ now.at? i = none) ∨
        current.pending = [] ∧ e = .builds current.value current.built.reverse) ∧
    ∃ events final, l.Steps build (.start values root) events final ∧
      events.length ≤ 2 * values.unclaimed + 1 ∧
      (∀ begun w, l.Steps build (.start values root) begun w →
        ∃ more, events = begun ++ more ∧ l.Steps build w more final) ∧
      ((∃ (t : Tree (Fin n)) (value : Fin n → α),
          t.root = root ∧ t.Follows l.below ∧ t.labels.Nodup ∧ values.Holds value t.labels ∧
          (∀ i, i ∈ t.labels ↔ ReflTransGen (Below l.below) i root) ∧
          l.materialize build values root = .ok (t.fold value build, values.clear t.labels) ∧
          (∀ i, (values.clear t.labels).at? i = if i ∈ t.labels then none else values.at? i) ∧
          events.filterMap Event.call? = t.postorder.map (Tree.parts value build) ∧
          (t.postorder.map Tree.root).Perm t.labels) ∨
        ∃ x before, l.materialize build values root = .error (.cycle (l.idOf x)) ∧
          events = before ++ [.meets x] ∧ (values.at? x = none ∨ .opens x ∈ before)) := by
  refine ⟨fun w e w' next => (next?_advances next).1, fun w => next?_eq_none_iff, ?_, ?_⟩
  · exact fun now current around e w' => event_cases
  · have ends {events : List (Event α β n)} {final : Walk α β n}
        (steps : l.Steps build (.start values root) events final)
        (last : l.next? build final = none) :
        events.length ≤ 2 * values.unclaimed + 1 ∧
        ∀ begun w, l.Steps build (.start values root) begun w →
          ∃ more, events = begun ++ more ∧ l.Steps build w more final :=
      ⟨(Nat.le_add_right _ _).trans steps.length_le, fun begun w => steps.prefix_of_end last⟩
    rcases l.covers_or_blocked_start build values root with ⟨t, value, covers, steps⟩ | blocked
    · obtain ⟨short, unique⟩ := ends steps rfl
      obtain ⟨roots, ⟨follows, _⟩, distinct, holds⟩ := covers
      rw [Tree.labelsList, Tree.labelsList, List.append_nil] at distinct holds
      obtain rfl : t.root = root := (List.cons.inj roots).1
      refine ⟨_, _, steps, short, unique, .inl ⟨t, value, rfl, follows, distinct, holds, ?_⟩⟩
      exact ⟨fun i => Tree.mem_labels_iff t follows, steps.outcome_eq, values.at?_clear t.labels,
        Tree.calls_visits value build t, t.postorder_perm⟩
    · obtain ⟨before, x, steps, reason⟩ := blocked
      obtain ⟨short, unique⟩ := ends steps rfl
      exact ⟨_, _, steps, short, unique, .inr ⟨x, before, steps.outcome_eq, rfl, reason⟩⟩

end Links

end QueryBoard.Hierarchy
