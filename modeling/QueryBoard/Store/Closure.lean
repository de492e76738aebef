/-!
# Rows that follow from others

A recursive query starts from some rows and goes on with the rows that follow from the ones it has,
one after the other in a queue.  A row that equals an earlier one is left out, so the query ends
also where rows follow from each other in a circle.
-/

set_option autoImplicit false

namespace QueryBoard.Store

theorem length_partition {α : Type} (p : α → Bool) (l : List α) :
    (l.partition p).1.length + (l.partition p).2.length = l.length := by
  induction l with
  | nil => rfl
  | cons a l ih =>
    simp only [List.partition_eq_filter_filter, List.filter_cons] at ih ⊢
    cases h : p a <;> simp [Function.comp_def, h] at ih ⊢ <;> omega

/-- The rows of a queue in order, each with the rows of a pool that follow from it put at the end of
the queue.  A row that is in the queue has left the pool. -/
def visit {α : Type} (follows : α → α → Bool) (pool : List α) : List α → List α
  | [] => []
  | a :: queue =>
    let split := pool.partition (follows a)
    a :: visit follows split.2 (queue ++ split.1)
termination_by queue => pool.length + queue.length
decreasing_by
  have := length_partition (follows a) pool
  simp only [List.length_append, List.length_cons]
  omega

/-- All rows of a pool that follow from the first rows, after these. -/
def closure {α : Type} [DecidableEq α] (follows : α → α → Bool) (pool first : List α) : List α :=
  visit follows ((pool.filter (· ∉ first)).eraseDups) first.eraseDups

end QueryBoard.Store
