import QueryBoard.Proofs.Store.WritingBack

/-!
# What a deletion takes with it

With a widget go the widgets below it, however deep, and with each of these its places on all
dashboards.  With a dashboard go its places, and its widgets stay.  Nothing else changes.
-/

set_option autoImplicit false

namespace QueryBoard.Store

variable {s : Store}

/-- Whether a widget is another one, or one that its parents lead to is. -/
def Within (s : Store) (top id : String) : Prop := id = top ∨ s.Under id top

/-- A stored widget stays if it is not within the one that is removed. -/
theorem mem_removeWidgets_id_iff (wellFormed : WellFormed s) {id : String}
    (stored : id ∈ s.widgetIds) {r : StoredWidget} (member : r ∈ s.widgets) :
    r ∈ (s.removeWidgets (·.id == id)).widgets ↔ ¬ s.Within id r.id := by
  obtain ⟨top, inside, rfl⟩ := List.mem_map.mp stored
  rw [mem_removeWidgets_iff wellFormed, and_iff_right member]
  constructor
  · rintro apart (same | under)
    · exact apart top inside (by simp) (Or.inl (wellFormed.row_unique member inside same))
    · exact apart top inside (by simp) (Or.inr under)
  · rintro outside y inside' picked above
    apply outside
    rw [← beq_iff_eq.mp picked]
    exact above.imp_left (congrArg StoredWidget.id)

open Classical in
theorem removeWidgets_id (wellFormed : WellFormed s) {id : String} (stored : id ∈ s.widgetIds) :
    s.removeWidgets (·.id == id) = { s with
      widgets := s.widgets.filter fun r => ¬ s.Within id r.id
      placements := s.placements.filter fun p => ¬ s.Within id p.widget } := by
  have part := (s.removeWidgets_spec (·.id == id)).1
  have left {r : StoredWidget} (member : r ∈ s.widgets) :
      r.id ∈ (s.removeWidgets (·.id == id)).widgetIds ↔ ¬ s.Within id r.id :=
    (wellFormed.mem_rowIds_iff part.subset member).trans
      (mem_removeWidgets_id_iff wellFormed stored member)
  have widgets : (s.removeWidgets (·.id == id)).widgets =
      s.widgets.filter fun r => ¬ s.Within id r.id :=
    (eq_filter_of_sublist part wellFormed.widgets).trans
      (List.filter_congr fun r member => decide_eq_decide.mpr (left member))
  have placements : (s.removeWidgets (·.id == id)).placements =
      s.placements.filter fun p => ¬ s.Within id p.widget := by
    rw [placements_removeWidgets]
    refine List.filter_congr fun p placed => decide_eq_decide.mpr ?_
    obtain ⟨r, member, same⟩ := List.mem_map.mp (wellFormed.placements p placed).2
    exact same ▸ left member
  exact congrArg₂ (fun ws ps => { s with widgets := ws, placements := ps }) widgets placements

open Classical in
/-- Deletions in a store that calls have led to.  A stored widget goes with all widgets whose parents
lead to it and with the placements of these, a stored dashboard with its own placements, and an id
that is not stored is refused without a change. -/
theorem deletions_exact (supply : Nat → String) (fresh : Function.Injective supply)
    (calls : List Call) (id : String) :
    let s := run supply calls
    (id ∈ s.widgetIds → outcome (deleteWidget id) s = (.ok (), { s with
      widgets := s.widgets.filter fun r => ¬ s.Within id r.id
      placements := s.placements.filter fun p => ¬ s.Within id p.widget })) ∧
    (id ∉ s.widgetIds → outcome (deleteWidget id) s = (.error (.notFound id), s)) ∧
    (id ∈ s.dashboardIds → outcome (deleteDashboard id) s = (.ok (), { s with
      dashboards := s.dashboards.filter fun d => d.id != id
      placements := s.placements.filter fun p => p.dashboard != id })) ∧
    (id ∉ s.dashboardIds → outcome (deleteDashboard id) s = (.error (.notFound id), s)) := by
  intro s
  have wellFormed : WellFormed s := wellFormed_run fresh calls
  rw [deleteWidget_eq, deleteDashboard_eq, outcome_require, outcome_require]
  refine ⟨fun stored => ?_, fun absent => ?_, fun stored => ?_, fun absent => ?_⟩
  · rw [if_pos (hasWidget_iff.mpr stored), outcome_modify_ok]
    exact removeWidgets_id wellFormed stored
  · rw [if_neg fun known => absent (hasWidget_iff.mp known)]
  · rw [if_pos (hasDashboard_iff.mpr stored), outcome_modify_ok]
    rfl
  · rw [if_neg fun known => absent (hasDashboard_iff.mp known)]

/-- The nested widget with places on two dashboards. -/
def sharedCalls : List Call :=
  nestedCalls ++ [.createDashboard { name := "wall", widgets :=
    [⟨{ id := "aaa", name := "", kind := "" }, {}⟩, ⟨{ id := "aaaa", name := "", kind := "" }, {}⟩] }]

open Classical in
theorem deletions_exact_sharedCalls :
    let s := run letters sharedCalls
    ("aa" ∈ s.widgetIds ∧ outcome (deleteWidget "aa") s = (.ok (), { s with
      widgets := s.widgets.filter fun r => ¬ s.Within "aa" r.id
      placements := s.placements.filter fun p => ¬ s.Within "aa" p.widget }) ∧
      (outcome (deleteWidget "aa") s).2.placements = [⟨"aaaaaa", "aaaa", 0, 0, 0, 0⟩]) ∧
    ("b" ∉ s.widgetIds ∧ outcome (deleteWidget "b") s = (.error (.notFound "b"), s)) ∧
    ("aaaaa" ∈ s.dashboardIds ∧ outcome (deleteDashboard "aaaaa") s = (.ok (), { s with
      dashboards := s.dashboards.filter fun d => d.id != "aaaaa"
      placements := s.placements.filter fun p => p.dashboard != "aaaaa" })) ∧
    ("b" ∉ s.dashboardIds ∧ outcome (deleteDashboard "b") s = (.error (.notFound "b"), s)) := by
  intro s
  have widgets : s.widgetIds = ["a", "aa", "aaa", "aaaa"] := rfl
  have dashboards : s.dashboardIds = ["aaaaa", "aaaaaa"] := rfl
  have nested : "aa" ∈ s.widgetIds := by simp [widgets]
  have placed : "aaaaa" ∈ s.dashboardIds := by simp [dashboards]
  have neither : "b" ∉ s.widgetIds ∧ "b" ∉ s.dashboardIds := by simp [widgets, dashboards]
  have left : (outcome (deleteWidget "aa") (run letters sharedCalls)).2.placements =
      [⟨"aaaaaa", "aaaa", 0, 0, 0, 0⟩] := by
    decide +kernel
  obtain ⟨goes, _⟩ := deletions_exact letters letters_injective sharedCalls "aa"
  obtain ⟨_, _, cleared, _⟩ := deletions_exact letters letters_injective sharedCalls "aaaaa"
  obtain ⟨_, unknown, _, missing⟩ := deletions_exact letters letters_injective sharedCalls "b"
  exact ⟨⟨nested, goes nested, left⟩, ⟨neither.1, unknown neither.1⟩, ⟨placed, cleared placed⟩,
    neither.2, missing neither.2⟩

end QueryBoard.Store
