import QueryBoard.Proofs.Store.Lookup

/-!
# What a removal takes with it

Widgets that a condition picks out go with all that is below them, and nothing else does.
-/

set_option autoImplicit false

namespace QueryBoard.Store

open Relation (TransGen)

theorem transGen_parentLinks_mono {rows rows' : List StoredWidget} (part : rows ⊆ rows')
    {i j : String} (above : TransGen (fun i p => (i, some p) ∈ parentLinks rows) i j) :
    TransGen (fun i p => (i, some p) ∈ parentLinks rows') i j := by
  refine TransGen.mono (fun i p step => ?_) _ _ above
  obtain ⟨r, member, is, given⟩ := mem_parentLinks.mp step
  exact mem_parentLinks.mpr ⟨r, part member, is, given⟩

/-- What is swept away is below one of the ids that are gone. -/
theorem exists_above_of_swept (gone : List String) (rows : List StoredWidget) {r : StoredWidget}
    (member : r ∈ rows) (swept : r ∉ sweep gone rows) : ∃ t ∈ rows,
      (r = t ∨ TransGen (fun i p => (i, some p) ∈ parentLinks rows) r.id t.id) ∧
        ∃ g ∈ gone, t.parent = some g := by
  fun_induction sweep gone rows with
  | case1 => exact absurd member swept
  | case2 gone rows split some ih =>
      by_cases below : isBelow gone r = true
      · obtain ⟨g, given, inside⟩ := isBelow_iff.mp below
        exact ⟨r, member, Or.inl rfl, g, inside, given⟩
      · obtain ⟨t, left, above, g, went, parent⟩ :=
          ih (mem_partition_snd.mpr ⟨member, by simpa using below⟩) swept
        obtain ⟨u, first, rfl⟩ := List.mem_map.mp went
        obtain ⟨stored, under⟩ := mem_partition_fst.mp first
        obtain ⟨g', given, inside⟩ := isBelow_iff.mp under
        have link : (t.id, Option.some u.id) ∈ parentLinks rows :=
          mem_parentLinks.mpr ⟨t, (mem_partition_snd.mp left).1, rfl, parent⟩
        refine ⟨u, stored, Or.inr ?_, g', inside, given⟩
        rcases above with rfl | above
        · exact TransGen.single link
        · have part : split.2 ⊆ rows := fun w kept => (mem_partition_snd.mp kept).1
          exact (transGen_parentLinks_mono part above).tail link

/-- A part of a list of rows is what it has the ids of. -/
theorem eq_filter_of_sublist {part all : List StoredWidget} (sublist : part.Sublist all)
    (distinct : (rowIds all).Nodup) : part = all.filter fun r => r.id ∈ rowIds part := by
  induction sublist with
  | slnil => rfl
  | @cons part all a sub ih =>
      obtain ⟨apart, distinct⟩ := List.nodup_cons.mp distinct
      have absent : a.id ∉ rowIds part := fun member => apart ((sub.map _).subset member)
      rw [List.filter_cons_of_neg (by simpa using absent)]
      exact ih distinct
  | @cons_cons part all a sub ih =>
      obtain ⟨apart, distinct⟩ := List.nodup_cons.mp distinct
      have others : all.filter (fun r => r.id ∈ rowIds (a :: part)) =
          all.filter fun r => r.id ∈ rowIds part := by
        apply List.filter_congr
        intro r member
        have other : r.id ≠ a.id := fun same => apart (List.mem_map.mpr ⟨r, member, same⟩)
        simp [rowIds, other]
      rw [List.filter_cons_of_pos (by simp [rowIds]), others, ← ih distinct]

variable {s : Store}

/-- A widget stays if neither it nor one above it is picked out. -/
theorem mem_removeWidgets_iff (wellFormed : WellFormed s) {picked : StoredWidget → Bool}
    {r : StoredWidget} : r ∈ (s.removeWidgets picked).widgets ↔
      r ∈ s.widgets ∧ ∀ y ∈ s.widgets, picked y = true → ¬ (r = y ∨ s.Under r.id y.id) := by
  obtain ⟨part, named⟩ := s.removeWidgets_spec picked
  constructor
  · intro kept
    -- With a row the rows above it are kept.
    have above : ∀ i, s.Under r.id i → ∀ y ∈ s.widgets, y.id = i →
        y ∈ (s.removeWidgets picked).widgets := by
      intro i under
      induction under with
      | single link =>
          rintro y stored rfl
          obtain ⟨r', inside, is, given⟩ := mem_parentLinks.mp link
          have same := wellFormed.row_unique inside (part.subset kept) is
          exact (named r kept).2 _ (same ▸ given) y stored rfl
      | tail _ link ih =>
          rintro y stored rfl
          obtain ⟨z, inside, is, given⟩ := mem_parentLinks.mp link
          exact (named z (ih z inside is)).2 _ given y stored rfl
    refine ⟨part.subset kept, fun y stored chosen => ?_⟩
    rintro (rfl | under)
    · rw [(named r kept).1] at chosen
      cases chosen
    · rw [(named y (above y.id under y stored rfl)).1] at chosen
      cases chosen
  · rintro ⟨stored, apart⟩
    by_contra removed
    have left : r ∈ s.widgets.filter fun r => !picked r := by
      refine List.mem_filter.mpr ⟨stored, ?_⟩
      by_contra chosen
      exact apart r stored (by simpa using chosen) (Or.inl rfl)
    obtain ⟨t, inside, above, g, went, parent⟩ := exists_above_of_swept _ _ left removed
    obtain ⟨y, chosen, rfl⟩ := List.mem_map.mp went
    have link : (t.id, some y.id) ∈ parentLinks s.widgets :=
      mem_parentLinks.mpr ⟨t, (List.mem_filter.mp inside).1, rfl, parent⟩
    refine apart y (List.mem_filter.mp chosen).1 (List.mem_filter.mp chosen).2 (Or.inr ?_)
    rcases above with rfl | above
    · exact TransGen.single link
    · have above : s.Under r.id t.id :=
        transGen_parentLinks_mono List.filter_sublist.subset above
      exact above.tail link

open Classical in
theorem widgets_removeWidgets (wellFormed : WellFormed s) (picked : StoredWidget → Bool) :
    (s.removeWidgets picked).widgets = s.widgets.filter fun r =>
      ∀ y ∈ s.widgets, picked y = true → ¬ (r = y ∨ s.Under r.id y.id) := by
  have part := (s.removeWidgets_spec picked).1
  refine (eq_filter_of_sublist part wellFormed.widgets).trans (List.filter_congr fun r stored => ?_)
  have left := (wellFormed.mem_rowIds_iff part.subset stored).trans (mem_removeWidgets_iff wellFormed)
  exact decide_eq_decide.mpr (left.trans (and_iff_right stored))

theorem placements_removeWidgets (picked : StoredWidget → Bool) :
    (s.removeWidgets picked).placements =
      s.placements.filter fun p => p.widget ∈ (s.removeWidgets picked).widgetIds := by
  refine List.filter_congr fun p _ => ?_
  rw [Bool.eq_iff_iff, decide_eq_true_iff]
  exact hasWidget_iff (s := s.removeWidgets picked)

theorem removeWidgets_eq_self (wellFormed : WellFormed s) {picked : StoredWidget → Bool}
    (none : ∀ r ∈ s.widgets, picked r = false) : s.removeWidgets picked = s := by
  have widgets : (s.removeWidgets picked).widgets = s.widgets := by
    rw [widgets_removeWidgets wellFormed, List.filter_eq_self]
    intro r _
    simp +contextual [none]
  have placements : (s.removeWidgets picked).placements = s.placements := by
    rw [placements_removeWidgets, List.filter_eq_self, widgetIds, widgets]
    exact fun p member => decide_eq_true (wellFormed.placements p member).2
  exact congrArg₂ (fun ws ps => { s with widgets := ws, placements := ps }) widgets placements

end QueryBoard.Store
