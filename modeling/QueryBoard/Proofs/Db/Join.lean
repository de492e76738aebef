import Mathlib.Tactic.Choose
import QueryBoard.Proofs.Db.Read
import QueryBoard.Proofs.Schema.Rows

/-!
# Joins that keep rows without a match

Each row of a first table comes with the rows of a second one that go with it, or alone if there are
none.  The rows that go with it are found by way of an index, whose order is that of the rows for
all that agree in its column.
-/

set_option autoImplicit false

namespace QueryBoard.Db

/-! ## The order of rows -/

/-- Rows that agree in the column by which they are sorted stay in their order. -/
theorem Relation.filter_sortedBy {r : Relation} {t : Table} (rows : r.rows = t.rows) {i : Nat}
    (texts : ∀ x ∈ t.rows, ∃ bytes, x.cells.getD i .null = .text bytes) {q : Row → Bool}
    {c : Cell} (alike : ∀ x ∈ t.rows, q x = true → x.cells.getD i .null = c) :
    (r.sortedBy t [i]).filter q = t.rows.filter q := by
  choose! key texts using texts
  let le (x y : Row) : Bool := compareBytes (key x) (key y) != .gt
  have sorted : r.sortedBy t [i] = t.rows.mergeSort le := by
    have pairs : r.rows.zip t.rows = t.rows.map fun x => (x, x) := by
      rw [rows, List.zip_eq_zipWith, List.zipWith_self]
    rw [sortedBy, pairs, ← List.map_mergeSort (r := le), List.map_map]
    · exact List.map_id _
    · intro x inside y inside'
      rw [Table.compareRows, texts x inside, texts y inside', Cell.compare]
      dsimp only [le]
      cases compareBytes (key x) (key y) <;> rfl
  rw [sorted, filter_mergeSort]
  · refine List.mergeSort_of_pairwise
      (List.pairwise_of_forall_mem_list fun x inside y inside' => ?_)
    obtain ⟨listed, picked⟩ := List.mem_filter.mp inside
    obtain ⟨listed', picked'⟩ := List.mem_filter.mp inside'
    have same := (alike x listed picked).trans (alike y listed' picked').symm
    rw [texts x listed, texts y listed', Cell.text.injEq] at same
    rw [compareBytes_ne_gt_iff, same]
    exact List.le_refl _
  · intro a b c
    simp only [le, compareBytes_ne_gt_iff]
    exact List.le_trans
  · intro a b
    simp only [le, Bool.or_eq_true, compareBytes_ne_gt_iff]
    exact List.le_total _ _

/-! ## Matches -/

/-- The rows of a table that are joined to a row, or none of them. -/
def leftMatches (right : List Row) (condition : JoinedRow → Bool) (l : JoinedRow) :
    List JoinedRow :=
  let found := (right.map fun r => l ++ [some r]).filter condition
  if found.isEmpty then [l ++ [none]] else found

section

variable {right : List Row} {condition : JoinedRow → Bool} {l : JoinedRow}

theorem exists_of_mem_leftMatches {r : JoinedRow} (member : r ∈ leftMatches right condition l) :
    ∃ x, r = l ++ [x] := by
  unfold leftMatches at member
  dsimp only at member
  split at member
  · exact ⟨none, List.mem_singleton.mp member⟩
  · obtain ⟨x, _, same⟩ := List.mem_map.mp (List.mem_filter.mp member).1
    exact ⟨some x, same.symm⟩

theorem leftMatches_of_none (none : (right.filter fun r => condition (l ++ [some r])) = []) :
    leftMatches right condition l = [l ++ [.none]] := by
  have found : (right.map fun r => l ++ [some r]).filter condition = [] := by
    rw [List.filter_map]
    exact (congrArg (List.map _) none :)
  rw [leftMatches, found]
  rfl

theorem leftMatches_of_some {rows : List Row} (some : rows ≠ [])
    (these : (right.filter fun r => condition (l ++ [.some r])) = rows) :
    leftMatches right condition l = rows.map fun r => l ++ [.some r] := by
  have found : (right.map fun r => l ++ [.some r]).filter condition =
      rows.map fun r => l ++ [.some r] := by
    rw [List.filter_map]
    exact (congrArg (List.map _) these :)
  have full : (rows.map fun r => l ++ [Option.some r]).isEmpty = false := by simpa using some
  rw [leftMatches, found, full]
  rfl

end

/-! ## Sources -/

namespace Plan

variable {p : Plan}

/-- The rows of a later table come all, in whatever order. -/
theorem perm_laterRows {r : Relation} {t : Table} (base : r.base = some t)
    (rows : r.rows = t.rows) (single : Bool) (source : Nat) (condition : Term) :
    (p.laterRows single source condition r).Perm r.rows := by
  rw [laterRows, base]
  dsimp only
  split
  · exact List.Perm.refl _
  · split <;> exact r.perm_sortedBy rows _

/-- Two tables are joined one after the other to the rows of a first one. -/
theorem source_left {b c d : Binding} {condition next : Term} (three : p.bindings = [b, c, d])
    (left : p.joins = [(.left, condition), (.left, next)]) : ∃ single,
    p.source = ((((p.firstRows b.relation).map fun r => [some r]).flatMap
      (leftMatches (p.laterRows single 1 condition c.relation) (holds condition))).flatMap
        (leftMatches (p.laterRows single 2 next d.relation) (holds next))).filter
          fun r => p.filters.all (holds · r) := by
  rw [source, three, left]
  exact ⟨_, rfl⟩

end Plan

end QueryBoard.Db
