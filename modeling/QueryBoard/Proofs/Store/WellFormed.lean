import QueryBoard.Proofs.Hierarchy.Nodes
import QueryBoard.Proofs.Store.Closure
import QueryBoard.Store.Basic
import Mathlib.Data.List.Nodup

/-!
# Well-formed stores

In a well-formed store ids are unique, what rows name is stored, and going from parent to parent
ends at a widget without parent.  Every single change of a store keeps it so; a new widget must not
be its own parent, which the store itself does not refuse.
-/

set_option autoImplicit false

namespace QueryBoard

open Hierarchy (Grounded)

theorem Hierarchy.Grounded.mono {links links' : List (String × Option String)} {id : String}
    (subset : ∀ l ∈ links, l ∈ links') (grounded : Grounded links id) : Grounded links' id := by
  induction grounded with
  | root member => exact Grounded.root (subset _ member)
  | under member _ ih => exact Grounded.under (subset _ member) ih

namespace Store

def rowIds (rows : List StoredWidget) : List String := rows.map fun r => r.id

def parentLinks (rows : List StoredWidget) : List (String × Option String) :=
  rows.map fun r => (r.id, r.parent)

def widgetIds (s : Store) : List String := rowIds s.widgets

def dashboardIds (s : Store) : List String := s.dashboards.map fun d => d.id

theorem hasWidget_iff {s : Store} {id : String} : s.hasWidget id = true ↔ id ∈ s.widgetIds := by
  simp [hasWidget, widgetIds, rowIds]

theorem hasDashboard_iff {s : Store} {id : String} :
    s.hasDashboard id = true ↔ id ∈ s.dashboardIds := by
  simp [hasDashboard, dashboardIds]

theorem dashboardIds_renameDashboard (s : Store) (id name : String) :
    (s.renameDashboard id name).dashboardIds = s.dashboardIds := by
  rw [dashboardIds, renameDashboard, List.map_map]
  refine List.map_congr_left fun d _ => ?_
  rw [Function.comp_apply]
  split <;> rfl

theorem mem_parentLinks {rows : List StoredWidget} {id : String} {parent : Option String} :
    (id, parent) ∈ parentLinks rows ↔ ∃ r ∈ rows, r.id = id ∧ r.parent = parent := by
  simp [parentLinks]

/-- The rules of a store. -/
structure WellFormed (s : Store) : Prop where
  widgets : s.widgetIds.Nodup
  dashboards : s.dashboardIds.Nodup
  parents : ∀ r ∈ s.widgets, ∀ p, r.parent = some p → p ∈ s.widgetIds
  /-- From every widget the way up ends at a widget without parent. -/
  chains : ∀ r ∈ s.widgets, Grounded (parentLinks s.widgets) r.id
  placements : ∀ p ∈ s.placements, p.dashboard ∈ s.dashboardIds ∧ p.widget ∈ s.widgetIds

theorem wellFormed_empty : WellFormed {} := by
  constructor <;> simp [widgetIds, rowIds, dashboardIds]

theorem WellFormed.nodup_links {s : Store} (wellFormed : WellFormed s) :
    ((parentLinks s.widgets).map Prod.fst).Nodup := by
  rw [parentLinks, List.map_map]
  exact wellFormed.widgets

/-! ## Insertions -/

theorem addWidget_ok {s s' : Store} {row : StoredWidget} (success : s.addWidget row = .ok s') :
    row.id ∉ s.widgetIds ∧
      (∀ p, row.parent = some p → p = row.id ∨ p ∈ s.widgetIds) ∧
      s' = { s with widgets := s.widgets ++ [row] } := by
  unfold addWidget at success
  by_cases known : s.hasWidget row.id = true
  · rw [if_pos known] at success
    cases success
  · rw [if_neg known] at success
    split at success
    · next allowed =>
      cases success
      refine ⟨fun member => known (hasWidget_iff.mpr member), ?_, rfl⟩
      intro p given
      rw [given, Option.all_some, Bool.or_eq_true, beq_iff_eq, hasWidget_iff] at allowed
      exact allowed
    · cases success

theorem addDashboard_ok {s s' : Store} {row : StoredDashboard}
    (success : s.addDashboard row = .ok s') :
    row.id ∉ s.dashboardIds ∧ s' = { s with dashboards := s.dashboards ++ [row] } := by
  unfold addDashboard at success
  by_cases known : s.hasDashboard row.id = true
  · rw [if_pos known] at success
    cases success
  · rw [if_neg known] at success
    cases success
    exact ⟨fun member => known (hasDashboard_iff.mpr member), rfl⟩

theorem addPlacements_ok {s s' : Store} {rows : List Placement}
    (success : s.addPlacements rows = .ok s') :
    (∀ p ∈ rows, p.dashboard ∈ s.dashboardIds ∧ p.widget ∈ s.widgetIds) ∧
      s' = { s with placements := s.placements ++ rows } := by
  unfold addPlacements at success
  split at success
  · next stored =>
    cases success
    refine ⟨fun p member => ?_, rfl⟩
    have both := List.all_eq_true.mp stored p member
    rwa [Bool.and_eq_true, hasDashboard_iff, hasWidget_iff] at both
  · cases success

namespace WellFormed

variable {s s' : Store}

theorem addWidget (wellFormed : WellFormed s) {row : StoredWidget}
    (success : s.addWidget row = .ok s') (other : row.parent ≠ some row.id) : WellFormed s' := by
  obtain ⟨new, parent, rfl⟩ := addWidget_ok success
  have stored : ∀ p, row.parent = some p → p ∈ s.widgetIds := by
    intro p given
    rcases parent p given with rfl | member
    · exact absurd given other
    · exact member
  have ids : widgetIds { s with widgets := s.widgets ++ [row] } = s.widgetIds ++ [row.id] := by
    simp [widgetIds, rowIds]
  have links : ∀ l ∈ parentLinks s.widgets, l ∈ parentLinks (s.widgets ++ [row]) := by
    intro l member
    rw [parentLinks, List.map_append]
    exact List.mem_append_left _ member
  constructor
  · rw [ids]
    exact List.nodup_append_comm.mpr (List.nodup_cons.mpr ⟨new, wellFormed.widgets⟩)
  · exact wellFormed.dashboards
  · intro r member p given
    rw [ids, List.mem_append]
    rcases List.mem_append.mp member with member | member
    · exact Or.inl (wellFormed.parents r member p given)
    · rw [List.mem_singleton.mp member] at given
      exact Or.inl (stored p given)
  · intro r member
    rcases List.mem_append.mp member with member | member
    · exact (wellFormed.chains r member).mono links
    · have here : (row.id, row.parent) ∈ parentLinks (s.widgets ++ [row]) :=
        mem_parentLinks.mpr ⟨row, by simp, rfl, rfl⟩
      rw [List.mem_singleton.mp member]
      cases given : row.parent with
      | none => exact Grounded.root (given ▸ here)
      | some p =>
          obtain ⟨r', inside, same⟩ := List.mem_map.mp (stored p given)
          have above := (wellFormed.chains r' inside).mono links
          exact Grounded.under (given ▸ here) (same ▸ above)
  · intro p member
    rw [ids, List.mem_append]
    exact ⟨(wellFormed.placements p member).1, Or.inl (wellFormed.placements p member).2⟩

theorem addDashboard (wellFormed : WellFormed s) {row : StoredDashboard}
    (success : s.addDashboard row = .ok s') : WellFormed s' := by
  obtain ⟨new, rfl⟩ := addDashboard_ok success
  have ids : dashboardIds { s with dashboards := s.dashboards ++ [row] } =
      s.dashboardIds ++ [row.id] := by
    simp [dashboardIds]
  refine ⟨wellFormed.widgets, ?_, wellFormed.parents, wellFormed.chains, ?_⟩
  · rw [ids]
    exact List.nodup_append_comm.mpr (List.nodup_cons.mpr ⟨new, wellFormed.dashboards⟩)
  · intro p member
    rw [ids, List.mem_append]
    exact ⟨Or.inl (wellFormed.placements p member).1, (wellFormed.placements p member).2⟩

theorem addPlacements (wellFormed : WellFormed s) {rows : List Placement}
    (success : s.addPlacements rows = .ok s') : WellFormed s' := by
  obtain ⟨stored, rfl⟩ := addPlacements_ok success
  refine ⟨wellFormed.widgets, wellFormed.dashboards, wellFormed.parents, wellFormed.chains, ?_⟩
  intro p member
  rcases List.mem_append.mp member with member | member
  · exact wellFormed.placements p member
  · exact stored p member

/-! ## Changes -/

theorem changeWidget (wellFormed : WellFormed s) (id : String)
    {change : StoredWidget → StoredWidget}
    (same : ∀ r, (change r).id = r.id ∧ (change r).parent = r.parent) :
    WellFormed (s.changeWidget id change) := by
  have kept : ∀ r, (if r.id = id then change r else r).id = r.id ∧
      (if r.id = id then change r else r).parent = r.parent := by
    intro r
    split
    · exact same r
    · exact ⟨rfl, rfl⟩
  have ids : (s.changeWidget id change).widgetIds = s.widgetIds := by
    simp [widgetIds, rowIds, Store.changeWidget, Function.comp_def, kept]
  have links : parentLinks (s.changeWidget id change).widgets = parentLinks s.widgets := by
    simp [parentLinks, Store.changeWidget, Function.comp_def, kept]
  constructor
  · rw [ids]
    exact wellFormed.widgets
  · exact wellFormed.dashboards
  · intro r member p given
    obtain ⟨r', inside, rfl⟩ := List.mem_map.mp member
    rw [(kept r').2] at given
    rw [ids]
    exact wellFormed.parents r' inside p given
  · intro r member
    obtain ⟨r', inside, rfl⟩ := List.mem_map.mp member
    rw [links, (kept r').1]
    exact wellFormed.chains r' inside
  · intro p member
    rw [ids]
    exact wellFormed.placements p member

theorem renameDashboard (wellFormed : WellFormed s) (id name : String) :
    WellFormed (s.renameDashboard id name) := by
  have ids := s.dashboardIds_renameDashboard id name
  refine ⟨wellFormed.widgets, ?_, wellFormed.parents, wellFormed.chains, ?_⟩
  · rw [ids]
    exact wellFormed.dashboards
  · intro p member
    rw [ids]
    exact wellFormed.placements p member

end WellFormed

/-! ## Removals -/

theorem isBelow_iff {ids : List String} {r : StoredWidget} :
    isBelow ids r = true ↔ ∃ p, r.parent = some p ∧ p ∈ ids := by
  simp [isBelow, Option.any_eq_true]

/-- What stays is part of the rows, with everything among them that it names. -/
theorem sweep_spec (gone : List String) (rows : List StoredWidget) :
    (sweep gone rows).Sublist rows ∧ ∀ r ∈ sweep gone rows, ∀ p, r.parent = some p →
      p ∉ gone ∧ ∀ r' ∈ rows, r'.id = p → r' ∈ sweep gone rows := by
  fun_induction sweep gone rows with
  | case1 gone rows split none =>
      refine ⟨List.Sublist.refl _, fun r member p given => ⟨fun inside => ?_, fun r' m _ => m⟩⟩
      have below : r ∈ split.1 :=
        mem_partition_fst.mpr ⟨member, isBelow_iff.mpr ⟨p, given, inside⟩⟩
      rw [List.isEmpty_iff.mp none] at below
      cases below
  | case2 gone rows split some ih =>
      obtain ⟨part, named⟩ := ih
      have rest : split.2.Sublist rows := by
        simp only [split, List.partition_eq_filter_filter]
        exact List.filter_sublist
      refine ⟨part.trans rest, fun r member p given => ?_⟩
      obtain ⟨notSwept, kept⟩ := named r member p given
      have stays := (mem_partition_snd.mp (part.subset member)).2
      constructor
      · intro inside
        rw [isBelow_iff.mpr ⟨p, given, inside⟩] at stays
        cases stays
      · intro r' member' same
        by_cases below : isBelow gone r' = true
        · have swept : r' ∈ split.1 := mem_partition_fst.mpr ⟨member', below⟩
          exact absurd (List.mem_map.mpr ⟨r', swept, same⟩) notSwept
        · exact kept r' (mem_partition_snd.mpr ⟨member', by simpa using below⟩) same

/-- The rows that stay when those that a condition picks out are removed. -/
theorem removeWidgets_spec (s : Store) (picked : StoredWidget → Bool) :
    (s.removeWidgets picked).widgets.Sublist s.widgets ∧
      ∀ r ∈ (s.removeWidgets picked).widgets, picked r = false ∧ ∀ p, r.parent = some p →
        ∀ r' ∈ s.widgets, r'.id = p → r' ∈ (s.removeWidgets picked).widgets := by
  obtain ⟨part, named⟩ := sweep_spec ((s.widgets.filter picked).map fun r => r.id)
    (s.widgets.filter fun r => !picked r)
  refine ⟨part.trans List.filter_sublist, fun r member => ⟨?_, ?_⟩⟩
  · have inside := (List.mem_filter.mp (part.subset member)).2
    simpa using inside
  · intro p given r' stored same
    obtain ⟨notGone, kept⟩ := named r member p given
    refine kept r' (List.mem_filter.mpr ⟨stored, ?_⟩) same
    by_contra removed
    apply notGone
    exact List.mem_map.mpr ⟨r', List.mem_filter.mpr ⟨stored, by simpa using removed⟩, same⟩

namespace WellFormed

variable {s : Store}

/-- What is left is grounded as before, because nothing between it and its top was removed. -/
theorem grounded_removeWidgets (wellFormed : WellFormed s) (picked : StoredWidget → Bool)
    {id : String} (grounded : Grounded (parentLinks s.widgets) id) :
    ∀ r ∈ (s.removeWidgets picked).widgets, r.id = id →
      Grounded (parentLinks (s.removeWidgets picked).widgets) id := by
  obtain ⟨part, named⟩ := s.removeWidgets_spec picked
  have unique := List.inj_on_of_nodup_map wellFormed.widgets
  induction grounded with
  | root link =>
      obtain ⟨r', stored, same', top⟩ := mem_parentLinks.mp link
      rintro r member same
      have equal := unique (part.subset member) stored (same.trans same'.symm)
      rw [← equal] at top
      exact Grounded.root (mem_parentLinks.mpr ⟨r, member, same, top⟩)
  | under link _ ih =>
      obtain ⟨r', stored, same', up⟩ := mem_parentLinks.mp link
      rintro r member same
      have equal := unique (part.subset member) stored (same.trans same'.symm)
      rw [← equal] at up
      obtain ⟨parent, inside, is⟩ :=
        List.mem_map.mp (wellFormed.parents r (part.subset member) _ up)
      -- What stays keeps its parent, so the way up is the same one.
      have kept := (named r member).2 _ up parent inside is
      exact Grounded.under (mem_parentLinks.mpr ⟨r, member, same, up⟩) (ih parent kept is)

theorem removeWidgets (wellFormed : WellFormed s) (picked : StoredWidget → Bool) :
    WellFormed (s.removeWidgets picked) := by
  obtain ⟨part, named⟩ := s.removeWidgets_spec picked
  constructor
  · exact wellFormed.widgets.sublist (part.map _)
  · exact wellFormed.dashboards
  · intro r member p given
    obtain ⟨parent, inside, is⟩ :=
      List.mem_map.mp (wellFormed.parents r (part.subset member) p given)
    exact List.mem_map.mpr ⟨parent, (named r member).2 p given parent inside is, is⟩
  · intro r member
    exact wellFormed.grounded_removeWidgets picked (wellFormed.chains r (part.subset member)) r
      member rfl
  · intro p member
    obtain ⟨stored, kept⟩ := List.mem_filter.mp member
    obtain ⟨r, inside, same⟩ := List.any_eq_true.mp kept
    exact ⟨(wellFormed.placements p stored).1, List.mem_map.mpr ⟨r, inside, beq_iff_eq.mp same⟩⟩

theorem clearDashboard (wellFormed : WellFormed s) (id : String) :
    WellFormed (s.clearDashboard id) := by
  refine ⟨wellFormed.widgets, wellFormed.dashboards, wellFormed.parents, wellFormed.chains, ?_⟩
  intro p member
  exact wellFormed.placements p (List.mem_filter.mp member).1

theorem removeDashboard (wellFormed : WellFormed s) (id : String) :
    WellFormed (s.removeDashboard id) := by
  refine ⟨wellFormed.widgets, ?_, wellFormed.parents, wellFormed.chains, ?_⟩
  · exact wellFormed.dashboards.sublist (List.filter_sublist.map _)
  · intro p member
    obtain ⟨stored, other⟩ := List.mem_filter.mp member
    obtain ⟨dashboard, widget⟩ := wellFormed.placements p stored
    obtain ⟨d, inside, same⟩ := List.mem_map.mp dashboard
    refine ⟨List.mem_map.mpr ⟨d, List.mem_filter.mpr ⟨inside, ?_⟩, same⟩, widget⟩
    rw [same]
    exact other

end WellFormed

end Store

end QueryBoard
