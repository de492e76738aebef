import QueryBoard.Proofs.Firsts
import QueryBoard.Store.Closure

/-!
# What a recursive query finds

The rows of a recursive query are its first rows, and after them exactly those rows of the pool that
follow from one before, at once or by way of others.  No row comes twice, and the rows that follow
from one row stay in the order of the pool.
-/

set_option autoImplicit false

namespace QueryBoard.Store

variable {α β : Type} (follows : α → α → Bool) {a b : α}

/-! ## Parts of a list -/

section

variable {p : α → Bool} {l : List α}

theorem mem_partition_fst : a ∈ (l.partition p).1 ↔ a ∈ l ∧ p a = true := by
  rw [List.partition_eq_filter_filter]
  exact List.mem_filter

theorem mem_partition_snd : a ∈ (l.partition p).2 ↔ a ∈ l ∧ p a = false := by
  rw [List.partition_eq_filter_filter]
  simp [List.mem_filter]

theorem perm_partition (p : α → Bool) (l : List α) :
    ((l.partition p).1 ++ (l.partition p).2).Perm l := by
  rw [List.partition_eq_filter_filter]
  exact List.filter_append_perm p l

end

/-! ## The queue -/

theorem mem_of_mem_visit (pool queue : List α) (member : a ∈ visit follows pool queue) :
    a ∈ pool ∨ a ∈ queue := by
  fun_induction visit follows pool queue with
  | case1 => cases member
  | case2 pool b queue split ih =>
      rcases List.mem_cons.mp member with rfl | member
      · exact Or.inr List.mem_cons_self
      · rcases ih member with member | member
        · exact Or.inl (mem_partition_snd.mp member).1
        · rcases List.mem_append.mp member with member | member
          · exact Or.inr (List.mem_cons_of_mem b member)
          · exact Or.inl (mem_partition_fst.mp member).1

theorem mem_visit_of_mem (pool queue : List α) (member : a ∈ queue) :
    a ∈ visit follows pool queue := by
  fun_induction visit follows pool queue with
  | case1 => exact member
  | case2 pool b queue split ih =>
      rcases List.mem_cons.mp member with rfl | member
      · simp
      · exact List.mem_cons_of_mem _ (ih (List.mem_append_left _ member))

/-- What is behind the queue comes from the pool, and follows from some row. -/
theorem visit_eq_append (pool queue : List α) :
    ∃ rest, visit follows pool queue = queue ++ rest ∧
      ∀ r ∈ rest, r ∈ pool ∧ ∃ x ∈ visit follows pool queue, follows x r = true := by
  fun_induction visit follows pool queue with
  | case1 => exact ⟨[], rfl, by simp⟩
  | case2 pool x queue split ih =>
      obtain ⟨rest, whole, later⟩ := ih
      refine ⟨split.1 ++ rest, by rw [whole, List.cons_append, List.append_assoc], ?_⟩
      intro r member
      rcases List.mem_append.mp member with member | member
      · obtain ⟨inside, step⟩ := mem_partition_fst.mp member
        exact ⟨inside, x, List.mem_cons_self, step⟩
      · obtain ⟨inside, y, visited, step⟩ := later r member
        exact ⟨(mem_partition_snd.mp inside).1, y, List.mem_cons_of_mem _ visited, step⟩

theorem mem_visit_of_follows (pool queue : List α) (visited : a ∈ visit follows pool queue)
    (member : b ∈ pool) (step : follows a b = true) : b ∈ visit follows pool queue := by
  fun_induction visit follows pool queue with
  | case1 => cases visited
  | case2 pool x queue split ih =>
      by_cases near : follows x b = true
      · have queued : b ∈ split.1 := mem_partition_fst.mpr ⟨member, near⟩
        exact List.mem_cons_of_mem _
          (mem_visit_of_mem follows _ _ (List.mem_append_right _ queued))
      · have left : b ∈ split.2 := mem_partition_snd.mpr ⟨member, by simpa using near⟩
        rcases List.mem_cons.mp visited with rfl | visited
        · exact absurd step near
        · exact List.mem_cons_of_mem _ (ih visited left)

/-- What holds of the queue, and goes over to rows that follow, holds of all visited rows. -/
theorem of_mem_visit {P : α → Prop} (pool queue : List α) (first : ∀ q ∈ queue, P q)
    (step : ∀ x y, P x → y ∈ pool → follows x y = true → P y)
    (visited : a ∈ visit follows pool queue) : P a := by
  fun_induction visit follows pool queue with
  | case1 => cases visited
  | case2 pool x queue split ih =>
      rcases List.mem_cons.mp visited with rfl | visited
      · exact first a List.mem_cons_self
      · refine ih (fun q member => ?_) (fun y z holds member => ?_) visited
        · rcases List.mem_append.mp member with member | member
          · exact first q (List.mem_cons_of_mem x member)
          · obtain ⟨inside, near⟩ := mem_partition_fst.mp member
            exact step x q (first x List.mem_cons_self) inside near
        · exact step y z holds (mem_partition_snd.mp member).1

/-- No row of queue and pool is visited twice. -/
theorem exists_perm_visit (pool queue : List α) :
    ∃ left, (visit follows pool queue ++ left).Perm (queue ++ pool) := by
  fun_induction visit follows pool queue with
  | case1 pool => exact ⟨pool, List.Perm.refl _⟩
  | case2 pool x queue split ih =>
      obtain ⟨left, perm⟩ := ih
      refine ⟨left, ?_⟩
      rw [List.cons_append, List.cons_append]
      refine (perm.trans ?_).cons x
      rw [List.append_assoc]
      exact (perm_partition (follows x) pool).append_left queue

theorem nodup_map_visit {f : α → β} {pool queue : List α}
    (distinct : ((queue ++ pool).map f).Nodup) :
    ((visit follows pool queue).map f).Nodup := by
  obtain ⟨left, perm⟩ := exists_perm_visit follows pool queue
  have both := (perm.map f).nodup_iff.mpr distinct
  rw [List.map_append] at both
  exact (List.nodup_append.mp both).1

/-- Of rows that only the queue holds, the queue's order is the order of the visit. -/
theorem filter_visit_of_pool {p : α → Bool} (pool queue : List α)
    (none : ∀ r ∈ pool, p r = false) : (visit follows pool queue).filter p = queue.filter p := by
  obtain ⟨rest, whole, later⟩ := visit_eq_append follows pool queue
  have empty : rest.filter p = [] := by
    rw [List.filter_eq_nil_iff]
    intro r member
    simp [none r (later r member).1]
  rw [whole, List.filter_append, empty, List.append_nil]

/-- All that follows from a row of the queue goes into the queue with it, in the order of the
pool. -/
theorem filter_visit_first (pool queue : List α) (x : α)
    (tops : ∀ q ∈ queue, follows x q = false) :
    (visit follows (pool.partition (follows x)).2
      (queue ++ (pool.partition (follows x)).1)).filter (follows x) =
        pool.filter (follows x) := by
  have none : queue.filter (follows x) = [] := by
    rw [List.filter_eq_nil_iff]
    intro q member
    simp [tops q member]
  rw [filter_visit_of_pool follows _ _ fun r member => (mem_partition_snd.mp member).2,
    List.filter_append, none, List.nil_append, List.partition_eq_filter_filter]
  simp

/-- Where a row follows from one visited row at most, what follows from a visited row stands as in the
pool. -/
theorem filter_visit (pool queue : List α) (distinct : (queue ++ pool).Nodup)
    (single : ∀ x ∈ visit follows pool queue, ∀ y ∈ visit follows pool queue, ∀ r,
      follows x r = true → follows y r = true → x = y)
    (tops : ∀ q ∈ queue, ∀ x ∈ visit follows pool queue, follows x q = false)
    (visited : a ∈ visit follows pool queue) :
    (visit follows pool queue).filter (follows a) = pool.filter (follows a) := by
  fun_induction visit follows pool queue with
  | case1 => cases visited
  | case2 pool x queue split ih =>
      have order : (queue ++ split.1 ++ split.2).Perm (queue ++ pool) := by
        rw [List.append_assoc]
        exact (perm_partition (follows x) pool).append_left queue
      rw [List.cons_append, List.nodup_cons] at distinct
      have known : ∀ y ∈ visit follows split.2 (queue ++ split.1), y ∈ queue ++ pool := by
        intro y member
        apply order.subset
        rcases mem_of_mem_visit follows _ _ member with member | member
        · exact List.mem_append_right _ member
        · exact List.mem_append_left _ member
      -- The first row is not visited again, so what follows from it follows from no later one.
      have apart : ∀ y ∈ visit follows split.2 (queue ++ split.1), ∀ r, follows y r = true →
          follows x r = false := by
        intro y member r step
        by_contra near
        have same := single y (List.mem_cons_of_mem x member) x List.mem_cons_self r step
          (by simpa using near)
        exact distinct.1 (same ▸ known y member)
      rw [List.filter_cons_of_neg (by simp [tops x List.mem_cons_self a visited])]
      rcases List.mem_cons.mp visited with rfl | visited
      · exact filter_visit_first follows pool queue a fun q member =>
          tops q (List.mem_cons_of_mem a member) a List.mem_cons_self
      · rw [ih (order.nodup_iff.mpr distinct.2)
          (fun y member z member' =>
            single y (List.mem_cons_of_mem x member) z (List.mem_cons_of_mem x member')) ?_ visited]
        · simp only [split, List.partition_eq_filter_filter, List.filter_filter]
          apply List.filter_congr
          intro r _
          by_cases step : follows a r = true
          · simp [step, apart a visited r step]
          · simp [step]
        · intro q member y inside
          rcases List.mem_append.mp member with member | member
          · exact tops q (List.mem_cons_of_mem x member) y (List.mem_cons_of_mem x inside)
          · by_contra step
            have near := (mem_partition_fst.mp member).2
            rw [apart y inside q (by simpa using step)] at near
            cases near

/-- Where rows follow only from rows of their own kind, those of one kind are visited as if there were
no others. -/
theorem filter_visit_kind {p : α → Bool} (own : ∀ x y, follows x y = true → p x = p y)
    (pool queue : List α) :
    (visit follows pool queue).filter p = visit follows (pool.filter p) (queue.filter p) := by
  fun_induction visit follows pool queue with
  | case1 pool => simp [visit]
  | case2 pool x queue split ih =>
      simp only [split, List.partition_eq_filter_filter, List.filter_append, List.filter_filter,
        Function.comp_def] at ih
      by_cases kind : p x = true
      · rw [List.filter_cons_of_pos kind, List.filter_cons_of_pos kind, visit]
        simp only [split, List.partition_eq_filter_filter, List.filter_filter, Function.comp_def, ih,
          Bool.and_comm]
      · have other : ∀ y, (p y && follows x y) = false := by
          intro y
          by_cases step : follows x y = true
          · simp [← own x y step, kind]
          · simp [step]
        have kept : ∀ y ∈ pool, (p y && !follows x y) = p y := by
          intro y _
          have apart := other y
          by_cases step : follows x y = true
          · simp only [step, Bool.and_true] at apart
            simp [apart]
          · simp [step]
        rw [List.filter_cons_of_neg kind, List.filter_cons_of_neg kind]
        simp only [split, List.partition_eq_filter_filter, Function.comp_def, ih, other,
          List.filter_congr kept, List.filter_false, List.append_nil]

/-! ## The whole query -/

variable [DecidableEq α]

theorem mem_of_mem_closure {pool first : List α} (member : a ∈ closure follows pool first) :
    a ∈ pool ∨ a ∈ first := by
  rcases mem_of_mem_visit follows _ _ member with member | member
  · exact Or.inl (List.mem_filter.mp (List.mem_eraseDups.mp member)).1
  · exact Or.inr (List.mem_eraseDups.mp member)

theorem mem_closure_of_mem {pool first : List α} (member : a ∈ first) :
    a ∈ closure follows pool first :=
  mem_visit_of_mem follows _ _ (List.mem_eraseDups.mpr member)

theorem closure_eq_append (pool first : List α) :
    ∃ rest, closure follows pool first = first.eraseDups ++ rest ∧
      ∀ r ∈ rest, r ∈ pool ∧ ∃ x ∈ closure follows pool first, follows x r = true := by
  obtain ⟨rest, whole, later⟩ := visit_eq_append follows
    ((pool.filter (· ∉ first)).eraseDups) first.eraseDups
  refine ⟨rest, whole, fun r member => ?_⟩
  obtain ⟨inside, step⟩ := later r member
  exact ⟨(List.mem_filter.mp (List.mem_eraseDups.mp inside)).1, step⟩

theorem mem_closure_of_follows {pool first : List α} (found : a ∈ closure follows pool first)
    (member : b ∈ pool) (step : follows a b = true) : b ∈ closure follows pool first := by
  by_cases early : b ∈ first
  · exact mem_closure_of_mem follows early
  · have rest : b ∈ (pool.filter (· ∉ first)).eraseDups := by simp [member, early]
    exact mem_visit_of_follows follows _ _ found rest step

theorem of_mem_closure {P : α → Prop} {pool first : List α} (start : ∀ q ∈ first, P q)
    (step : ∀ x y, P x → y ∈ pool → follows x y = true → P y)
    (found : a ∈ closure follows pool first) : P a := by
  refine of_mem_visit follows _ _ (fun q member => start q (List.mem_eraseDups.mp member))
    (fun x y holds member => step x y holds ?_) found
  exact (List.mem_filter.mp (List.mem_eraseDups.mp member)).1

theorem nodup_closure (pool first : List α) : (closure follows pool first).Nodup := by
  have distinct : (first.eraseDups ++ (pool.filter (· ∉ first)).eraseDups).Nodup := by
    refine List.nodup_append.mpr ⟨nodup_eraseDups _, nodup_eraseDups _, ?_⟩
    rintro x member _ member' rfl
    simp only [List.mem_eraseDups, List.mem_filter] at member member'
    simp [member] at member'
  have once := nodup_map_visit (f := id) follows (by rwa [List.map_id])
  rwa [List.map_id] at once

theorem filter_closure {pool first : List α} (distinct : pool.Nodup) (once : first.Nodup)
    (single : ∀ x ∈ closure follows pool first, ∀ y ∈ closure follows pool first, ∀ r,
      follows x r = true → follows y r = true → x = y)
    (tops : ∀ q ∈ first, ∀ x ∈ closure follows pool first, follows x q = false)
    (found : a ∈ closure follows pool first) :
    (closure follows pool first).filter (follows a) = pool.filter (follows a) := by
  have whole : closure follows pool first = visit follows (pool.filter (· ∉ first)) first := by
    rw [closure, eraseDups_of_nodup once, eraseDups_of_nodup (distinct.filter _)]
  have apart : (first ++ pool.filter (· ∉ first)).Nodup := by
    refine List.nodup_append.mpr ⟨once, distinct.filter _, ?_⟩
    rintro x member _ member' rfl
    simp [member] at member'
  rw [whole] at single tops found ⊢
  rw [filter_visit follows _ _ apart single tops found, List.filter_filter]
  apply List.filter_congr
  intro r _
  by_cases early : r ∈ first
  · simp [tops r early a found]
  · simp [early]

theorem filter_closure_kind {p : α → Bool} (own : ∀ x y, follows x y = true → p x = p y)
    (pool first : List α) :
    (closure follows pool first).filter p = closure follows (pool.filter p) (first.filter p) := by
  rw [closure, closure, filter_visit_kind follows own, filter_eraseDups, filter_eraseDups,
    List.filter_filter, List.filter_filter]
  congr 2
  apply List.filter_congr
  intro r _
  by_cases kind : p r = true <;> simp [kind]

end QueryBoard.Store
