import QueryBoard.Proofs.Store.Runs
import QueryBoard.Proofs.Store.WellFormed

/-!
# The steps of storing a dashboard

The placements of a dashboard come last, in one step that is refused as a whole if one of their
widgets is not stored.  Once the dashboard has a row no other step can fail, so what a failure
leaves does not depend on which of the widgets are missing.
-/

set_option autoImplicit false

namespace QueryBoard.Store

variable {supply : Nat → String} {s : Store}

/-! ## The placements -/

/-- Whether a dashboard places a widget that is not stored. -/
def Misplaces (s : Store) (d : Dashboard) : Prop := ∃ p ∈ d.widgets, p.widget.id ∉ s.widgetIds

theorem outcome_place {id : String} (known : id ∈ s.dashboardIds) {d : Dashboard}
    (placeable : ¬ s.Misplaces d) :
    outcome (attempt (·.addPlacements (d.widgets.map (placement id)))) s = (.ok (), { s with
      placements := s.placements ++ d.widgets.map (placement id) }) := by
  refine outcome_attempt_ok.mpr (if_pos (List.all_eq_true.mpr fun p member => ?_))
  obtain ⟨placed, listed, rfl⟩ := List.mem_map.mp member
  rw [Bool.and_eq_true, hasDashboard_iff, hasWidget_iff]
  exact ⟨known, Classical.not_not.mp fun absent => placeable ⟨placed, listed, absent⟩⟩

theorem outcome_place_refused (id : String) {d : Dashboard} (missing : s.Misplaces d) :
    outcome (attempt (·.addPlacements (d.widgets.map (placement id)))) s =
      (.error (.database .foreignKey), s) := by
  obtain ⟨placed, listed, absent⟩ := missing
  have refused : s.addPlacements (d.widgets.map (placement id)) = .error .foreignKey := by
    refine if_neg fun stored => absent ?_
    have both := List.all_eq_true.mp stored _ (List.mem_map_of_mem listed)
    rw [Bool.and_eq_true, hasWidget_iff] at both
    exact both.2
  rw [outcome_attempt, refused]

/-! ## The calls -/

/-- The store with one more dashboard under a new id, without placements. -/
def named (s : Store) (id name : String) : Store :=
  { s with dashboards := s.dashboards ++ [⟨id, name⟩], issued := s.issued + 1 }

/-- The store with a dashboard renamed and without its placements. -/
def cleared (s : Store) (id name : String) : Store :=
  { s with
    dashboards := s.dashboards.map fun r => if r.id = id then { r with name } else r
    placements := s.placements.filter fun p => p.dashboard != id }

theorem mem_dashboards_cleared {id : String} (stored : id ∈ s.dashboardIds) (name : String) :
    ⟨id, name⟩ ∈ (s.cleared id name).dashboards := by
  obtain ⟨r, member, rfl⟩ := List.mem_map.mp stored
  exact List.mem_map.mpr ⟨r, member, if_pos rfl⟩

/-- Creating a dashboard under a new id either does all or leaves its row alone. -/
theorem outcome_createDashboard (new : supply s.issued ∉ s.dashboardIds) (d : Dashboard) :
    let id := supply s.issued
    (s.Misplaces d → outcome (createDashboard supply d) s =
      (.error (.database .foreignKey), s.named id d.name)) ∧
    (¬ s.Misplaces d → outcome (createDashboard supply d) s = (.ok id, { s.named id d.name with
      placements := s.placements ++ d.widgets.map (placement id) })) := by
  intro id
  have added : addDashboard { s with issued := s.issued + 1 } ⟨id, d.name⟩ =
      .ok (s.named id d.name) :=
    if_neg fun known => new (hasDashboard_iff.mp known)
  have issued : outcome (issue supply) s = (.ok id, { s with issued := s.issued + 1 }) := rfl
  have known : id ∈ (s.named id d.name).dashboardIds := by simp [named, dashboardIds]
  rw [createDashboard, outcome_bind, issued]
  dsimp only
  rw [outcome_bind, outcome_attempt, added]
  dsimp only
  rw [outcome_bind]
  constructor
  · intro missing
    rw [outcome_place_refused (s := s.named id d.name) id missing]
  · intro placeable
    rw [outcome_place known placeable]
    rfl

/-- Editing a stored dashboard either does all or leaves it renamed and empty. -/
theorem outcome_editDashboard {d : Dashboard} (stored : d.id ∈ s.dashboardIds) :
    (s.Misplaces d → outcome (editDashboard d) s =
      (.error (.database .foreignKey), s.cleared d.id d.name)) ∧
    (¬ s.Misplaces d → outcome (editDashboard d) s = (.ok (), { s.cleared d.id d.name with
      placements := (s.cleared d.id d.name).placements ++ d.widgets.map (placement d.id) })) := by
  have known : d.id ∈ (s.cleared d.id d.name).dashboardIds :=
    (s.dashboardIds_renameDashboard d.id d.name).symm ▸ stored
  have steps : outcome (editDashboard d) s =
      outcome (attempt (·.addPlacements (d.widgets.map (placement d.id))))
        (s.cleared d.id d.name) := by
    rw [editDashboard_eq, outcome_require, if_pos (hasDashboard_iff.mpr stored)]
    rfl
  rw [steps]
  exact ⟨fun missing => outcome_place_refused d.id missing,
    fun placeable => outcome_place known placeable⟩

end QueryBoard.Store
