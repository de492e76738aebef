import QueryBoard.Json.Basic
import Mathlib.Data.List.Nodup

/-!
# Values with one entry per key

What a value is after `dedup`: no object in it names a key twice.  Such a value does not change when
it is read again, since an entry is only ever put behind entries with other keys.
-/

set_option autoImplicit false

namespace QueryBoard.Json

section Upsert

variable {α : Type} {fields entries : List (String × α)} {key : String} {value : α}

theorem upsert_of_not_mem (other : key ∉ fields.map Prod.fst) :
    upsert fields key value = fields ++ [(key, value)] := by
  induction fields with
  | nil => rfl
  | cons e rest ih =>
      obtain ⟨k, v⟩ := e
      rw [List.map_cons, List.mem_cons, not_or] at other
      rw [upsert, if_neg (Ne.symm other.1), ih other.2, List.cons_append]

theorem map_fst_upsert (fields : List (String × α)) (key : String) (value : α) :
    (upsert fields key value).map Prod.fst =
      if key ∈ fields.map Prod.fst then fields.map Prod.fst else fields.map Prod.fst ++ [key] := by
  induction fields with
  | nil => rfl
  | cons e rest ih =>
      obtain ⟨k, v⟩ := e
      by_cases same : k = key
      · simp [upsert, same]
      · rw [upsert, if_neg same, List.map_cons, ih]
        by_cases later : key ∈ rest.map Prod.fst
        · simp [later]
        · simp [later, Ne.symm same]

theorem nodup_upsert (distinct : (fields.map Prod.fst).Nodup) (key : String) (value : α) :
    ((upsert fields key value).map Prod.fst).Nodup := by
  rw [map_fst_upsert]
  split
  · exact distinct
  · next other => simpa [List.nodup_append] using ⟨distinct, fun a v member same =>
      other (same ▸ List.mem_map_of_mem member)⟩

theorem mem_upsert {e : String × α} (member : e ∈ upsert fields key value) :
    e ∈ fields ∨ e = (key, value) := by
  induction fields with
  | nil => exact Or.inr (List.mem_singleton.mp member)
  | cons first rest ih =>
      obtain ⟨k, v⟩ := first
      rw [upsert] at member
      split at member
      · rcases List.mem_cons.mp member with rfl | member
        · exact Or.inr rfl
        · exact Or.inl (List.mem_cons_of_mem _ member)
      · rcases List.mem_cons.mp member with rfl | member
        · exact Or.inl List.mem_cons_self
        · exact (ih member).imp_left (List.mem_cons_of_mem _)

/-- An induction over entries that are put in one after the other. -/
theorem foldl_upsert_induction {P : List (String × α) → Prop}
    (step : ∀ fields, P fields → ∀ e ∈ entries, P (upsert fields e.1 e.2)) (start : P fields) :
    P (entries.foldl (fun fields e => upsert fields e.1 e.2) fields) := by
  induction entries generalizing fields with
  | nil => exact start
  | cons e rest ih =>
      refine ih (fun fields holds other member => ?_) (step fields start e List.mem_cons_self)
      exact step fields holds other (List.mem_cons_of_mem e member)

theorem nodup_upsertAll (entries : List (String × α)) :
    ((upsertAll entries).map Prod.fst).Nodup :=
  foldl_upsert_induction (P := fun fields => (fields.map Prod.fst).Nodup)
    (fun _ distinct e _ => nodup_upsert distinct e.1 e.2) List.nodup_nil

theorem mem_upsertAll {e : String × α} (member : e ∈ upsertAll entries) : e ∈ entries := by
  have all : ∀ e ∈ upsertAll entries, e ∈ entries := by
    refine foldl_upsert_induction (P := fun fields => ∀ e ∈ fields, e ∈ entries) ?_ (by simp)
    intro fields inside e listed e' member
    rcases mem_upsert member with earlier | rfl
    · exact inside e' earlier
    · exact listed
  exact all e member

theorem foldl_upsert_of_nodup (distinct : ((fields ++ entries).map Prod.fst).Nodup) :
    entries.foldl (fun fields e => upsert fields e.1 e.2) fields = fields ++ entries := by
  induction entries generalizing fields with
  | nil => simp
  | cons e rest ih =>
      have other : e.1 ∉ fields.map Prod.fst := by
        rw [List.map_append, List.nodup_append] at distinct
        intro earlier
        exact distinct.2.2 e.1 earlier e.1 (by simp) rfl
      rw [List.foldl_cons, upsert_of_not_mem other, ih (by simpa using distinct)]
      simp

theorem upsertAll_of_nodup (distinct : (entries.map Prod.fst).Nodup) :
    upsertAll entries = entries :=
  foldl_upsert_of_nodup distinct

end Upsert

mutual

/-- Whether no object in the value names a key twice. -/
def Distinct : Json → Prop
  | .arr items => DistinctItems items
  | .obj fields => (fields.map Prod.fst).Nodup ∧ DistinctFields fields
  | _ => True

def DistinctItems : List Json → Prop
  | [] => True
  | j :: rest => Distinct j ∧ DistinctItems rest

def DistinctFields : List (String × Json) → Prop
  | [] => True
  | (_, j) :: rest => Distinct j ∧ DistinctFields rest

end

theorem distinctFields_iff (fields : List (String × Json)) :
    DistinctFields fields ↔ ∀ e ∈ fields, e.2.Distinct := by
  induction fields with
  | nil => simp [DistinctFields]
  | cons e rest ih => simp [DistinctFields, ih]

mutual

theorem distinct_dedup : (j : Json) → j.dedup.Distinct
  | .arr items => by
      rw [dedup, Distinct]
      exact distinctItems_dedupList items
  | .obj fields => by
      rw [dedup, Distinct, distinctFields_iff]
      have each := (distinctFields_iff _).mp (distinctFields_dedupFields fields)
      exact ⟨nodup_upsertAll _, fun e member => each e (mem_upsertAll member)⟩
  | .null | .bool _ | .int _ | .float _ | .str _ => by simp [dedup, Distinct]

theorem distinctItems_dedupList : (items : List Json) → DistinctItems (dedupList items)
  | [] => by simp [dedupList, DistinctItems]
  | j :: rest => by
      rw [dedupList, DistinctItems]
      exact ⟨distinct_dedup j, distinctItems_dedupList rest⟩

theorem distinctFields_dedupFields : (fields : List (String × Json)) →
    DistinctFields (dedupFields fields)
  | [] => by simp [dedupFields, DistinctFields]
  | (_, j) :: rest => by
      rw [dedupFields, DistinctFields]
      exact ⟨distinct_dedup j, distinctFields_dedupFields rest⟩

end

mutual

theorem dedup_of_distinct : (j : Json) → j.Distinct → j.dedup = j
  | .arr items, distinct => by
      rw [Distinct] at distinct
      rw [dedup, dedupList_of_distinct items distinct]
  | .obj fields, distinct => by
      rw [Distinct] at distinct
      rw [dedup, dedupFields_of_distinct fields distinct.2, upsertAll_of_nodup distinct.1]
  | .null, _ | .bool _, _ | .int _, _ | .float _, _ | .str _, _ => by rw [dedup] <;> simp

theorem dedupList_of_distinct : (items : List Json) → DistinctItems items → dedupList items = items
  | [], _ => by rw [dedupList]
  | j :: rest, distinct => by
      rw [DistinctItems] at distinct
      rw [dedupList, dedup_of_distinct j distinct.1, dedupList_of_distinct rest distinct.2]

theorem dedupFields_of_distinct : (fields : List (String × Json)) → DistinctFields fields →
    dedupFields fields = fields
  | [], _ => by rw [dedupFields]
  | (_, j) :: rest, distinct => by
      rw [DistinctFields] at distinct
      rw [dedupFields, dedup_of_distinct j distinct.1, dedupFields_of_distinct rest distinct.2]

end

end QueryBoard.Json
