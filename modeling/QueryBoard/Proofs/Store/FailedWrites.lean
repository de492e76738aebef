import QueryBoard.Proofs.Store.Dashboards
import QueryBoard.Proofs.Store.WritingBack

/-!
# What a failed write of a dashboard leaves

A dashboard is stored in steps that stay when a later one fails.  That a new dashboard gets its row
takes that no other one has its id: the ids of all dashboards in a run were issued before.
-/

set_option autoImplicit false

namespace QueryBoard.Store

variable {supply : Nat → String} {s s' : Store}

/-! ## The ids of dashboards -/

/-- Goes to a store in which each dashboard was there before or has an id that was issued. -/
structure Numbers (supply : Nat → String) (s s' : Store) : Prop where
  known : ∀ id ∈ s'.dashboardIds, id ∈ s.dashboardIds ∨ Issued supply s' id
  issued : s.issued ≤ s'.issued

namespace Numbers

theorem of_subset (subset : s'.dashboardIds ⊆ s.dashboardIds) (issued : s.issued ≤ s'.issued) :
    Numbers supply s s' :=
  ⟨fun _ member => Or.inl (subset member), issued⟩

instance : IsPreorder Store (Numbers supply) where
  refl := fun _ => of_subset (List.Subset.refl _) (Nat.le_refl _)
  trans := by
    rintro a b c ⟨known, issued⟩ ⟨known', issued'⟩
    refine ⟨fun id member => ?_, Nat.le_trans issued issued'⟩
    rcases known' id member with before | new
    · rcases known id before with before | ⟨k, earlier, same⟩
      · exact Or.inl before
      · exact Or.inr ⟨k, Nat.lt_of_lt_of_le earlier issued', same⟩
    · exact Or.inr new

theorem widgetSteps : WidgetSteps (Numbers supply) where
  issue := fun _ => of_subset (List.Subset.refl _) (Nat.le_succ _)
  add := by
    intro s s' row success
    obtain ⟨_, _, rfl⟩ := addWidget_ok success
    exact of_subset (List.Subset.refl _) (Nat.le_refl _)
  change := fun _ _ _ => of_subset (List.Subset.refl _) (Nat.le_refl _)
  remove := fun _ _ => of_subset (List.Subset.refl _) (Nat.le_refl _)

theorem addDashboard {row : StoredDashboard} (success : s.addDashboard row = .ok s')
    (issued : Issued supply s row.id) : Numbers supply s s' := by
  obtain ⟨_, rfl⟩ := addDashboard_ok success
  refine ⟨fun id member => ?_, Nat.le_refl _⟩
  simp only [dashboardIds, List.map_append, List.mem_append] at member
  refine member.imp_right fun new => ?_
  rw [List.mem_singleton.mp new]
  exact issued

theorem addPlacements {rows : List Placement} (success : s.addPlacements rows = .ok s') :
    Numbers supply s s' := by
  obtain ⟨_, rfl⟩ := addPlacements_ok success
  exact of_subset (List.Subset.refl _) (Nat.le_refl _)

end Numbers

theorem numbers_createDashboard (d : Dashboard) (s : Store) :
    Leads (Numbers supply) (createDashboard supply d) s fun _ _ => True := by
  unfold createDashboard
  refine (Leads.issue (Q := fun id s' => Issued supply s' id) (Numbers.widgetSteps.issue s)
    ⟨s.issued, Nat.lt_succ_self _, rfl⟩).bind fun id s₁ _ given => ?_
  refine Leads.bind (Leads.attempt (Q := fun _ _ => True) fun _ success =>
    ⟨Numbers.addDashboard success given, trivial⟩) fun _ s₂ _ _ => ?_
  refine Leads.bind (Leads.attempt (Q := fun _ _ => True) fun _ success =>
    ⟨Numbers.addPlacements success, trivial⟩) fun _ s₃ _ _ => ?_
  exact Leads.pure trivial

theorem numbers_editDashboard (d : Dashboard) (s : Store) :
    Leads (Numbers supply) (editDashboard d) s fun _ _ => True := by
  rw [editDashboard_eq]
  refine Leads.require fun _ => ?_
  have renames : Numbers supply s (s.renameDashboard d.id d.name) :=
    Numbers.of_subset (fun _ member => s.dashboardIds_renameDashboard d.id d.name ▸ member)
      (Nat.le_refl _)
  refine (Leads.modify (Q := fun _ _ => True) renames trivial).bind fun _ s₁ _ _ => ?_
  have clears : Numbers supply s₁ (s₁.clearDashboard d.id) :=
    Numbers.of_subset (List.Subset.refl _) (Nat.le_refl _)
  refine (Leads.modify (Q := fun _ _ => True) clears trivial).bind fun _ s₂ _ _ => ?_
  exact Leads.attempt fun _ success => ⟨Numbers.addPlacements success, trivial⟩

theorem numbers_deleteDashboard (id : String) (s : Store) :
    Leads (Numbers supply) (deleteDashboard id) s fun _ _ => True := by
  rw [deleteDashboard_eq]
  have removes : Numbers supply s (s.removeDashboard id) :=
    Numbers.of_subset (List.filter_sublist.map _).subset (Nat.le_refl _)
  exact Leads.require fun _ => Leads.modify removes trivial

theorem numbers_after (s : Store) (c : Call) : Numbers supply s (c.after supply s) := by
  cases c with
  | createWidget w => exact (Numbers.widgetSteps.insertWidget w none s).store
  | editWidget w => exact (Numbers.widgetSteps.editWidget w s).store
  | deleteWidget id => exact (Numbers.widgetSteps.deleteWidget id s).store
  | createDashboard d => exact (numbers_createDashboard d s).store
  | editDashboard d => exact (numbers_editDashboard d s).store
  | deleteDashboard id => exact (numbers_deleteDashboard id s).store

/-- Every dashboard of a run has an id that was issued. -/
theorem issued_dashboards (supply : Nat → String) (calls : List Call) :
    ∀ id ∈ (run supply calls).dashboardIds, Issued supply (run supply calls) id := by
  have general : ∀ (calls : List Call) (s : Store),
      Numbers supply s (calls.foldl (Call.after supply) s) := by
    intro calls
    induction calls with
    | nil => exact fun s => refl_of (Numbers supply) s
    | cons c rest ih =>
        exact fun s => trans_of (Numbers supply) (numbers_after s c) (ih (c.after supply s))
  intro id member
  exact ((general calls {}).known id member).resolve_left List.not_mem_nil

/-! ## What is left -/

theorem exists_error_iff {α : Type} {r : Except StoreError α × Store} {P : Prop} {e : StoreError}
    {a : α} {s₁ s₂ : Store} (refused : P → r = (.error e, s₁)) (done : ¬ P → r = (.ok a, s₂)) :
    (∃ e, r.1 = .error e) ↔ P := by
  constructor
  · rintro ⟨e', failed⟩
    by_contra none
    rw [done none] at failed
    cases failed
  · intro holds
    exact ⟨e, by rw [refused holds]⟩

/-- What the writes of a dashboard leave of a store that calls have led to.  A new dashboard fails
if one of its widgets is not stored, and leaves its row without any placement; an edited one is
refused if it is not stored, and fails else if one of its widgets is not, when it has its new name
and no placements.  All else stays: a write stores all placements, or it fails and stores none. -/
theorem dashboardWrites_leave (supply : Nat → String) (fresh : Function.Injective supply)
    (calls : List Call) (d : Dashboard) :
    let s := run supply calls
    let id := supply s.issued
    (((∃ e, (outcome (createDashboard supply d) s).1 = .error e) ↔ s.Misplaces d) ∧
      (s.Misplaces d → outcome (createDashboard supply d) s =
        (.error (.database .foreignKey), s.named id d.name)) ∧
      (¬ s.Misplaces d → outcome (createDashboard supply d) s = (.ok id, { s.named id d.name with
        placements := s.placements ++ d.widgets.map (placement id) })) ∧
      id ∉ s.dashboardIds ∧ (s.named id d.name).placementsOn id = []) ∧
    (((∃ i, (outcome (editDashboard d) s).1 = .error (.notFound i)) ↔ d.id ∉ s.dashboardIds) ∧
      (d.id ∉ s.dashboardIds → outcome (editDashboard d) s = (.error (.notFound d.id), s))) ∧
    (d.id ∈ s.dashboardIds →
      ((∃ e, (outcome (editDashboard d) s).1 = .error e) ↔ s.Misplaces d) ∧
      (s.Misplaces d → outcome (editDashboard d) s =
        (.error (.database .foreignKey), s.cleared d.id d.name)) ∧
      (¬ s.Misplaces d → outcome (editDashboard d) s = (.ok (), { s.cleared d.id d.name with
        placements := (s.cleared d.id d.name).placements ++ d.widgets.map (placement d.id) })) ∧
      ⟨d.id, d.name⟩ ∈ (s.cleared d.id d.name).dashboards ∧
      (s.cleared d.id d.name).placementsOn d.id = []) ∧
    ((∃ e, (outcome (createDashboard supply d) s).1 = .error e) →
      (outcome (createDashboard supply d) s).2.placements = s.placements) ∧
    ((∃ e, (outcome (editDashboard d) s).1 = .error e) →
      (outcome (editDashboard d) s).2.placements.Sublist s.placements) := by
  intro s id
  have wellFormed : WellFormed s := wellFormed_run fresh calls
  have new : id ∉ s.dashboardIds := by
    intro known
    obtain ⟨k, before, same⟩ := issued_dashboards supply calls id known
    exact Nat.lt_irrefl _ (fresh same ▸ before)
  have absent : d.id ∉ s.dashboardIds →
      outcome (editDashboard d) s = (.error (.notFound d.id), s) := by
    intro unknown
    rw [editDashboard_eq, outcome_require, if_neg fun known => unknown (hasDashboard_iff.mp known)]
  obtain ⟨torn, whole⟩ := outcome_createDashboard new d
  refine ⟨⟨exists_error_iff torn whole, torn, whole, new,
    placementsOn_named wellFormed new d.name⟩, ⟨⟨?_, ?_⟩, absent⟩, fun stored => ?_,
    fun failed => ?_, fun failed => ?_⟩
  · rintro ⟨i, failed⟩ stored
    obtain ⟨torn, whole⟩ := outcome_editDashboard stored
    by_cases missing : s.Misplaces d
    · rw [torn missing] at failed
      cases failed
    · rw [whole missing] at failed
      cases failed
  · intro unknown
    exact ⟨d.id, by rw [absent unknown]⟩
  · obtain ⟨torn, whole⟩ := outcome_editDashboard stored
    exact ⟨exists_error_iff torn whole, torn, whole, mem_dashboards_cleared stored d.name,
      placementsOn_cleared d.id d.name⟩
  · rw [torn ((exists_error_iff torn whole).mp failed)]
    rfl
  · by_cases stored : d.id ∈ s.dashboardIds
    · obtain ⟨torn, whole⟩ := outcome_editDashboard stored
      rw [torn ((exists_error_iff torn whole).mp failed)]
      exact List.filter_sublist
    · rw [absent stored]

/-- The dashboard of the nested widget under another name, with places of which the second is for a
widget that is not stored. -/
def torn : Dashboard :=
  { id := "aaaaa", name := "torn"
    widgets := [⟨{ id := "aa", name := "", kind := "" }, { w := 4 }⟩,
      ⟨{ id := "b", name := "", kind := "" }, { w := 4 }⟩,
      ⟨{ id := "aaa", name := "", kind := "" }, { w := 4 }⟩] }

def mended : Dashboard := { torn with widgets := torn.widgets.eraseIdx 1 }

theorem dashboardWrites_leave_torn :
    let s := run letters nestedCalls
    (s.Misplaces torn ∧ torn.id ∈ s.dashboardIds ∧
      outcome (createDashboard letters torn) s =
        (.error (.database .foreignKey), s.named "aaaaaa" "torn") ∧
      (outcome (createDashboard letters torn) s).2.placements = s.placements ∧
      outcome (editDashboard torn) s =
        (.error (.database .foreignKey), s.cleared "aaaaa" "torn") ∧
      (outcome (editDashboard torn) s).2.placements.Sublist s.placements ∧
      (outcome (editDashboard torn) s).2.dashboards = [⟨"aaaaa", "torn"⟩] ∧
      (outcome (editDashboard torn) s).2.placements = []) ∧
    (¬ s.Misplaces mended ∧ mended.id ∈ s.dashboardIds ∧
      outcome (createDashboard letters mended) s =
        (.ok "aaaaaa", { s.named "aaaaaa" "torn" with
          placements := s.placements ++ mended.widgets.map (placement "aaaaaa") }) ∧
      outcome (editDashboard mended) s = (.ok (), { s.cleared "aaaaa" "torn" with
        placements := (s.cleared "aaaaa" "torn").placements ++
          mended.widgets.map (placement "aaaaa") })) ∧
    ("b" ∉ s.dashboardIds ∧
      outcome (editDashboard { torn with id := "b" }) s = (.error (.notFound "b"), s)) := by
  intro s
  have widgets : s.widgetIds = ["a", "aa", "aaa", "aaaa"] := rfl
  have dashboards : s.dashboardIds = ["aaaaa"] := rfl
  have missing : s.Misplaces torn := by simp [Misplaces, torn, widgets]
  have placeable : ¬ s.Misplaces mended := by simp [Misplaces, mended, torn, widgets]
  have stored : torn.id ∈ s.dashboardIds := by simp [torn, dashboards]
  have unknown : "b" ∉ s.dashboardIds := by simp [dashboards]
  have renamed : (outcome (editDashboard torn) (run letters nestedCalls)).2.dashboards =
      [⟨"aaaaa", "torn"⟩] := by
    decide +kernel
  have emptied : (outcome (editDashboard torn) (run letters nestedCalls)).2.placements = [] := by
    decide +kernel
  obtain ⟨⟨fails, tears, _⟩, _, edits, kept, left⟩ :=
    dashboardWrites_leave letters letters_injective nestedCalls torn
  obtain ⟨fails', clears, _⟩ := edits stored
  obtain ⟨⟨_, _, places, _⟩, _, replaces, _⟩ :=
    dashboardWrites_leave letters letters_injective nestedCalls mended
  obtain ⟨_, ⟨_, refuses⟩, _⟩ :=
    dashboardWrites_leave letters letters_injective nestedCalls { torn with id := "b" }
  obtain ⟨_, _, replaced, _⟩ := replaces stored
  exact ⟨⟨missing, stored, tears missing, kept (fails.mpr missing), clears missing,
      left (fails'.mpr missing), renamed, emptied⟩,
    ⟨placeable, stored, places placeable, replaced placeable⟩, unknown, refuses unknown⟩

end QueryBoard.Store
