/-!
# Runs

A run is as much of the front of a list as has a property.  It is known where it stops: at an element
without the property, or at the end.
-/

set_option autoImplicit false

namespace QueryBoard

variable {α : Type} {p : α → Bool}

theorem span_append {cs rest : List α} (all : ∀ c ∈ cs, p c = true)
    (stops : ∀ c ∈ rest.head?, p c = false) :
    (cs ++ rest).takeWhile p = cs ∧ (cs ++ rest).dropWhile p = rest := by
  rw [List.takeWhile_append_of_pos all, List.dropWhile_append_of_pos all]
  cases rest with
  | nil => simp
  | cons c rest =>
    have stop : p c = false := stops c rfl
    simp [stop]

theorem exists_span (p : α → Bool) (cs : List α) : ∃ run rest, cs = run ++ rest ∧
    (∀ c ∈ run, p c = true) ∧ ∀ c ∈ rest.head?, p c = false := by
  refine ⟨cs.takeWhile p, cs.dropWhile p, List.takeWhile_append_dropWhile.symm,
    List.all_eq_true.mp List.all_takeWhile, fun c head => ?_⟩
  have stop := List.head?_dropWhile_not p cs
  rw [Option.mem_def.mp head] at stop
  exact stop

/-- What stands behind an element without the property does not matter. -/
theorem takeWhile_append_cons {c : α} (stop : p c = false) (cs rest : List α) :
    (cs ++ c :: rest).takeWhile p = cs.takeWhile p := by
  obtain ⟨run, left, rfl, all, stops⟩ := exists_span p cs
  rw [(span_append all stops).1, List.append_assoc]
  refine (span_append all ?_).1
  cases left with
  | nil => simpa using stop
  | cons d left => exact stops

end QueryBoard
