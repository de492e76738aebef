import QueryBoard.Proofs.Store.Creation
import QueryBoard.Proofs.Store.Removal

/-!
# What an edit leaves of the widgets

An edit never moves a stored widget.  A widget goes when it, or one that it is stored below, is a
child that the edit of its parent does not list, also if it is listed at another place; every other
stored widget stays.  Of an edited widget that stays the row says what the edit gives for it.

`Edits` says this of several changes in a row, so that it can be put together along the recursion of
an edit: what was doomed before the first changes is doomed before the next ones, because the rows
that are left keep their parents and new rows get ids that were not stored.
-/

set_option autoImplicit false

namespace QueryBoard

open Relation (TransGen)

mutual

/-- The widgets of a tree that an edit changes.  A child without an id is added with all that is in
it, so none of these is changed. -/
def Widget.edited : Widget → List Widget
  | ⟨id, name, kind, children, props, query⟩ =>
    ⟨id, name, kind, children, props, query⟩ :: Widget.editedList children

def Widget.editedList : List Widget → List Widget
  | [] => []
  | w :: rest => (if w.id.isEmpty then [] else w.edited) ++ Widget.editedList rest

end

/-- The ids of the widgets that have one. -/
def listedIds (ws : List Widget) : List String :=
  (ws.map fun w => w.id).filter fun id => !id.isEmpty

namespace Store

variable {supply : Nat → String} {s s₁ s' : Store} {ws ws' : List Widget}
variable {drops drops' : String → String → Prop} {id : String}

/-! ## Rows -/

def rewrite (r : StoredWidget) (w : Widget) : StoredWidget :=
  if r.id = w.id then
    { r with
      name := w.name, kind := w.kind
      props := w.props.map Json.compact, query := w.query.map Json.compact }
  else r

theorem rewrite_id (r : StoredWidget) (w : Widget) : (rewrite r w).id = r.id := by
  unfold rewrite
  split <;> rfl

theorem rewrite_parent (r : StoredWidget) (w : Widget) : (rewrite r w).parent = r.parent := by
  unfold rewrite
  split <;> rfl

theorem foldl_rewrite_id (ws : List Widget) (r : StoredWidget) :
    (ws.foldl rewrite r).id = r.id := by
  induction ws generalizing r with
  | nil => rfl
  | cons w ws ih => rw [List.foldl_cons, ih, rewrite_id]

theorem foldl_rewrite_parent (ws : List Widget) (r : StoredWidget) :
    (ws.foldl rewrite r).parent = r.parent := by
  induction ws generalizing r with
  | nil => rfl
  | cons w ws ih => rw [List.foldl_cons, ih, rewrite_parent]

theorem foldl_rewrite_of_apart {r : StoredWidget} (apart : r.id ∉ ws.map fun w => w.id) :
    ws.foldl rewrite r = r := by
  induction ws with
  | nil => rfl
  | cons w ws ih =>
      rw [List.map_cons, List.mem_cons, not_or] at apart
      rw [List.foldl_cons, rewrite, if_neg apart.1, ih apart.2]

/-- Of widgets with distinct ids the one with the id of a row decides what it says. -/
theorem foldl_rewrite_of_mem {w : Widget} {r : StoredWidget}
    (distinct : (ws.map fun w => w.id).Nodup) (member : w ∈ ws) (same : r.id = w.id) :
    ws.foldl rewrite r = rewrite r w := by
  induction ws with
  | nil => cases member
  | cons v ws ih =>
      obtain ⟨apart, distinct⟩ := List.nodup_cons.mp distinct
      rw [List.foldl_cons]
      rcases List.mem_cons.mp member with rfl | member
      · apply foldl_rewrite_of_apart
        rwa [rewrite_id, same]
      · have other : r.id ≠ v.id := by
          intro equal
          exact apart (List.mem_map.mpr ⟨w, member, same.symm.trans equal⟩)
        rw [rewrite, if_neg other, ih distinct member]

/-! ## Widgets that go -/

/-- Whether a child is missing among those that an edit lists for its parent. -/
def Missing (ws : List Widget) (parent child : String) : Prop :=
  ∃ w ∈ ws, w.id = parent ∧ child ∉ listedIds w.children

/-- Whether a widget, or one that it is below, is a child that its parent drops. -/
def Doomed (s : Store) (drops : String → String → Prop) (id : String) : Prop :=
  ∃ child parent, (id = child ∨ s.Under id child) ∧
    (child, some parent) ∈ parentLinks s.widgets ∧ drops parent child

theorem doomed_or : s.Doomed (fun v y => drops v y ∨ drops' v y) id ↔
    s.Doomed drops id ∨ s.Doomed drops' id := by
  constructor
  · rintro ⟨y, v, above, link, drop | drop⟩
    · exact Or.inl ⟨y, v, above, link, drop⟩
    · exact Or.inr ⟨y, v, above, link, drop⟩
  · rintro (⟨y, v, above, link, drop⟩ | ⟨y, v, above, link, drop⟩)
    · exact ⟨y, v, above, link, Or.inl drop⟩
    · exact ⟨y, v, above, link, Or.inr drop⟩

theorem not_doomed_false : ¬ s.Doomed (fun _ _ => False) id := by
  rintro ⟨_, _, _, _, drop⟩
  exact drop

theorem missing_append {v y : String} :
    Missing (ws ++ ws') v y ↔ Missing ws v y ∨ Missing ws' v y := by
  simp only [Missing, List.mem_append, or_and_right, exists_or]

theorem WellFormed.parent_stored (wellFormed : WellFormed s) {i p : String}
    (link : (i, some p) ∈ parentLinks s.widgets) : p ∈ s.widgetIds := by
  obtain ⟨r, stored, _, given⟩ := mem_parentLinks.mp link
  exact wellFormed.parents r stored p given

theorem WellFormed.above_stored (wellFormed : WellFormed s) {i p : String} (under : s.Under i p) :
    p ∈ s.widgetIds := by
  obtain ⟨_, _, link⟩ := TransGen.tail'_iff.mp under
  exact wellFormed.parent_stored link

/-! ## Changes in a row -/

/-- Whether an id was given out on the way from a store to another one. -/
def GivenOut (supply : Nat → String) (s s' : Store) (id : String) : Prop :=
  ∃ k, s.issued ≤ k ∧ k < s'.issued ∧ id = supply k

theorem GivenOut.not_mem {id : String} (given : GivenOut supply s s' id)
    (unissued : Unissued supply s) : id ∉ s.widgetIds := by
  obtain ⟨k, later, _, rfl⟩ := given
  exact unissued k later

theorem GivenOut.before {id : String} {s₂ : Store} (given : GivenOut supply s s' id)
    (later : s'.issued ≤ s₂.issued) : GivenOut supply s s₂ id := by
  obtain ⟨k, first, last, same⟩ := given
  exact ⟨k, first, Nat.lt_of_lt_of_le last later, same⟩

theorem GivenOut.after {id : String} (given : GivenOut supply s₁ s' id)
    (later : s.issued ≤ s₁.issued) : GivenOut supply s s' id := by
  obtain ⟨k, first, last, same⟩ := given
  exact ⟨k, Nat.le_trans later first, last, same⟩

/-- How changes lead from a store to another one: which edits make the rows what they are, and what
parents drop. -/
structure Edits (supply : Nat → String) (s s' : Store) (ws : List Widget)
    (drops : String → String → Prop) : Prop where
  issued : s.issued ≤ s'.issued
  found : ∀ w ∈ ws, w.id ∈ s.widgetIds ∨ GivenOut supply s s' w.id
  rows : ∀ r' ∈ s'.widgets, (∃ r ∈ s.widgets, r' = ws.foldl rewrite r) ∨
    GivenOut supply s s' r'.id
  survivors : ∀ id ∈ s.widgetIds, id ∈ s'.widgetIds ↔ ¬ s.Doomed drops id

namespace Edits

theorem refl : Edits supply s s [] fun _ _ => False where
  issued := Nat.le_refl _
  found := by simp
  rows := fun r member => Or.inl ⟨r, member, rfl⟩
  survivors := fun _ member => iff_of_true member not_doomed_false

/-- What is stored after the changes was stored before, or has a new id. -/
theorem origin (edits : Edits supply s s' ws drops) {x : String} (left : x ∈ s'.widgetIds) :
    x ∈ s.widgetIds ∨ GivenOut supply s s' x := by
  obtain ⟨r', member, rfl⟩ := List.mem_map.mp left
  rcases edits.rows r' member with ⟨r, stored, rfl⟩ | new
  · rw [foldl_rewrite_id]
    exact Or.inl (List.mem_map_of_mem stored)
  · exact Or.inr new

/-- Only children that are stored can be dropped. -/
theorem congr (edits : Edits supply s s' ws drops)
    (same : ∀ v, ∀ y ∈ s.widgetIds, drops v y ↔ drops' v y) : Edits supply s s' ws drops' := by
  refine ⟨edits.issued, edits.found, edits.rows, fun id member => ?_⟩
  rw [edits.survivors id member]
  refine not_congr ⟨?_, ?_⟩
  · rintro ⟨y, v, above, link, drop⟩
    obtain ⟨r, stored, rfl, _⟩ := mem_parentLinks.mp link
    exact ⟨r.id, v, above, link, (same v r.id (List.mem_map_of_mem stored)).mp drop⟩
  · rintro ⟨y, v, above, link, drop⟩
    obtain ⟨r, stored, rfl, _⟩ := mem_parentLinks.mp link
    exact ⟨r.id, v, above, link, (same v r.id (List.mem_map_of_mem stored)).mpr drop⟩

section

variable (unissued : Unissued supply s) (wellFormed : WellFormed s)
variable (first : Edits supply s s₁ ws drops)
include unissued wellFormed first

/-- What is left keeps its parent. -/
theorem link_iff {x : String} (before : x ∈ s.widgetIds) (left : x ∈ s₁.widgetIds)
    {p : Option String} : (x, p) ∈ parentLinks s₁.widgets ↔ (x, p) ∈ parentLinks s.widgets := by
  have same : ∀ q, (x, q) ∈ parentLinks s₁.widgets → (x, q) ∈ parentLinks s.widgets := by
    intro q link
    obtain ⟨r', member, rfl, rfl⟩ := mem_parentLinks.mp link
    rcases first.rows r' member with ⟨r, stored, rfl⟩ | new
    · rw [foldl_rewrite_id, foldl_rewrite_parent]
      exact mem_parentLinks.mpr ⟨r, stored, rfl, rfl⟩
    · exact absurd before (new.not_mem unissued)
  refine ⟨same p, fun link => ?_⟩
  obtain ⟨r', member, rfl⟩ := List.mem_map.mp left
  have own : (r'.id, r'.parent) ∈ parentLinks s₁.widgets :=
    mem_parentLinks.mpr ⟨r', member, rfl, rfl⟩
  rwa [wellFormed.link_unique _ _ _ link (same _ own)]

variable (after : WellFormed s₁)
include after

theorem under_iff {x y : String} (before : x ∈ s.widgetIds) (left : x ∈ s₁.widgetIds) :
    s₁.Under x y ↔ s.Under x y := by
  constructor
  · intro under
    induction under using TransGen.head_induction_on with
    | single link =>
        exact TransGen.single ((link_iff unissued wellFormed first before left).mp link)
    | head link _ ih =>
        have old := (link_iff unissued wellFormed first before left).mp link
        exact TransGen.head old (ih (wellFormed.parent_stored old) (after.parent_stored link))
  · intro under
    induction under using TransGen.head_induction_on with
    | single link =>
        exact TransGen.single ((link_iff unissued wellFormed first before left).mpr link)
    | head link _ ih =>
        have new := (link_iff unissued wellFormed first before left).mpr link
        exact TransGen.head new (ih (wellFormed.parent_stored link) (after.parent_stored new))

theorem doomed_iff {x : String} (before : x ∈ s.widgetIds) (left : x ∈ s₁.widgetIds) :
    s₁.Doomed drops' x ↔ s.Doomed drops' x := by
  have both : ∀ y, (x = y ∨ s₁.Under x y ↔ x = y ∨ s.Under x y) ∧
      (x = y ∨ s.Under x y → y ∈ s.widgetIds ∧ y ∈ s₁.widgetIds) := by
    intro y
    have under := under_iff unissued wellFormed first after (y := y) before left
    refine ⟨or_congr_right under, ?_⟩
    rintro (rfl | above)
    · exact ⟨before, left⟩
    · exact ⟨wellFormed.above_stored above, after.above_stored (under.mpr above)⟩
  constructor
  · rintro ⟨y, v, above, link, drop⟩
    have above := (both y).1.mp above
    obtain ⟨old, kept⟩ := (both y).2 above
    exact ⟨y, v, above, (link_iff unissued wellFormed first old kept).mp link, drop⟩
  · rintro ⟨y, v, above, link, drop⟩
    obtain ⟨old, kept⟩ := (both y).2 above
    exact ⟨y, v, (both y).1.mpr above, (link_iff unissued wellFormed first old kept).mpr link, drop⟩

theorem trans {s₂ : Store} (second : Edits supply s₁ s₂ ws' drops') :
    Edits supply s s₂ (ws ++ ws') fun v y => drops v y ∨ drops' v y := by
  refine ⟨Nat.le_trans first.issued second.issued, fun w member => ?_, fun r member => ?_,
    fun x before => ?_⟩
  · rcases List.mem_append.mp member with member | member
    · exact (first.found w member).imp_right fun new => new.before second.issued
    · rcases second.found w member with left | new
      · exact (first.origin left).imp_right fun new => new.before second.issued
      · exact Or.inr (new.after first.issued)
  · rcases second.rows r member with ⟨r₁, left, rfl⟩ | new
    · rcases first.rows r₁ left with ⟨r₀, stored, rfl⟩ | new
      · exact Or.inl ⟨r₀, stored, (List.foldl_append ..).symm⟩
      · rw [foldl_rewrite_id]
        exact Or.inr (new.before second.issued)
    · exact Or.inr (new.after first.issued)
  · -- A widget that the first changes leave is doomed to the next ones as it was before.
    rw [doomed_or, not_or]
    constructor
    · intro left
      have kept : x ∈ s₁.widgetIds := by
        rcases second.origin left with kept | new
        · exact kept
        · exact absurd before ((new.after first.issued).not_mem unissued)
      refine ⟨(first.survivors x before).mp kept, ?_⟩
      rw [← doomed_iff unissued wellFormed first after before kept]
      exact (second.survivors x kept).mp left
    · rintro ⟨safe, safe'⟩
      have kept := (first.survivors x before).mpr safe
      rw [← doomed_iff unissued wellFormed first after before kept] at safe'
      exact (second.survivors x kept).mpr safe'

end

/-! ## Single changes -/

theorem changeWidget (supply : Nat → String) (w : Widget) (known : w.id ∈ s.widgetIds) :
    Edits supply s { s with widgets := s.widgets.map fun r => rewrite r w } [w]
      fun _ _ => False := by
  have ids : rowIds (s.widgets.map fun r => rewrite r w) = s.widgetIds := by
    rw [rowIds, List.map_map]
    exact List.map_congr_left fun r _ => rewrite_id r w
  refine ⟨Nat.le_refl _, ?_, fun r' member => ?_, fun x before => ?_⟩
  · intro v member
    rw [List.mem_singleton.mp member]
    exact Or.inl known
  · obtain ⟨r, stored, rfl⟩ := List.mem_map.mp member
    exact Or.inl ⟨r, stored, rfl⟩
  · rw [widgetIds, ids]
    exact iff_of_true before not_doomed_false

theorem extend (rows : List WidgetRow)
    (ids : (rows.map fun r => r.id) = (List.range' s.issued rows.length).map supply) :
    Edits supply s (s.extend rows) [] fun _ _ => False := by
  refine ⟨Nat.le_add_right _ _, by simp, fun r' member => ?_, fun x before => ?_⟩
  · rcases List.mem_append.mp member with stored | member
    · exact Or.inl ⟨r', stored, rfl⟩
    · obtain ⟨r, inside, rfl⟩ := List.mem_map.mp member
      have listed : r.id ∈ (List.range' s.issued rows.length).map supply := by
        rw [← ids]
        exact List.mem_map_of_mem inside
      obtain ⟨k, range, same⟩ := List.mem_map.mp listed
      exact Or.inr ⟨k, (List.mem_range'_1.mp range).1, (List.mem_range'_1.mp range).2, same.symm⟩
  · rw [widgetIds_extend]
    exact iff_of_true (List.mem_append_left _ before) not_doomed_false

theorem removeWidgets (supply : Nat → String) (wellFormed : WellFormed s) (parent : String)
    (kept : List String) :
    Edits supply s (s.removeWidgets fun r => r.parent == some parent && !kept.contains r.id) []
      fun v y => v = parent ∧ y ∉ kept := by
  refine ⟨Nat.le_refl _, by simp, fun r' member => ?_, fun x before => ?_⟩
  · exact Or.inl ⟨r', ((mem_removeWidgets_iff wellFormed).mp member).1, rfl⟩
  · obtain ⟨r, stored, rfl⟩ := List.mem_map.mp before
    rw [widgetIds, wellFormed.mem_rowIds_iff (s.removeWidgets_spec _).1.subset stored,
      mem_removeWidgets_iff wellFormed]
    constructor
    · rintro ⟨_, apart⟩ ⟨y, v, above, link, rfl, missing⟩
      obtain ⟨r', stored', rfl, given⟩ := mem_parentLinks.mp link
      refine apart r' stored' (by simp [given, missing]) ?_
      rcases above with same | under
      · exact Or.inl (wellFormed.row_unique stored stored' same)
      · exact Or.inr under
    · intro safe
      refine ⟨stored, fun y inside picked above => safe ⟨y.id, parent, ?_, ?_, rfl, ?_⟩⟩
      · rcases above with rfl | under
        · exact Or.inl rfl
        · exact Or.inr under
      · simp only [Bool.and_eq_true, beq_iff_eq] at picked
        exact mem_parentLinks.mpr ⟨y, inside, rfl, picked.1⟩
      · simp only [Bool.and_eq_true, Bool.not_eq_true'] at picked
        simpa using picked.2

end Edits

/-! ## Whole edits -/

/-- Where a widget is inserted below another one, that one is stored. -/
theorem insertWidget_ok (fresh : Function.Injective supply) (unissued : Unissued supply s)
    {w : Widget} {parent : String} (known : Issued supply s parent) {i : String}
    (success : outcome (insertWidget supply (some parent) w) s = (.ok i, s')) :
    i = supply s.issued ∧ s' = s.extend ((w.renew supply s.issued).rows (some parent)) := by
  have stored : parent ∈ s.widgetIds := by
    obtain ⟨_, name, kind, children, props, query⟩ := w
    rw [insertWidget] at success
    obtain ⟨_, _, issued, rest⟩ := outcome_bind_ok.mp success
    cases issued
    obtain ⟨_, _, added, _⟩ := outcome_bind_ok.mp rest
    rcases (addWidget_ok (outcome_attempt_ok.mp added)).2.1 parent rfl with same | stored
    · obtain ⟨k, before, is⟩ := known
      have equal : k = s.issued := fresh (is.symm.trans same)
      omega
    · exact stored
  have inserted := outcome_insertWidget fresh w (some parent) s unissued
    fun p same => Option.some.inj same ▸ stored
  rw [inserted] at success
  cases success
  exact ⟨rfl, rfl⟩

/-- An edit of children returns the ids that they have, and new ids for the others. -/
structure Keeping (supply : Nat → String) (s : Store) (ws : List Widget) (kept : List String) :
    Prop where
  listed : ∀ y ∈ listedIds ws, y ∈ kept
  others : ∀ y ∈ kept, y ∈ listedIds ws ∨ ∃ k, s.issued ≤ k ∧ y = supply k

theorem Keeping.mem_iff {kept : List String} (keeping : Keeping supply s ws kept)
    (unissued : Unissued supply s) {y : String} (stored : y ∈ s.widgetIds) :
    y ∈ kept ↔ y ∈ listedIds ws := by
  refine ⟨fun member => ?_, keeping.listed y⟩
  rcases keeping.others y member with listed | ⟨k, later, same⟩
  · exact listed
  · exact absurd (same ▸ stored) (unissued k later)

theorem Keeping.cons {w : Widget} {i : String} {kept : List String}
    (first : Keeping supply s [w] [i]) (rest : Keeping supply s₁ ws kept)
    (later : s.issued ≤ s₁.issued) : Keeping supply s (w :: ws) (i :: kept) := by
  have split : listedIds (w :: ws) = listedIds [w] ++ listedIds ws := by
    rw [listedIds, listedIds, listedIds, ← List.filter_append]
    rfl
  constructor
  · intro y member
    rw [split] at member
    rcases List.mem_append.mp member with member | member
    · exact List.mem_cons.mpr (Or.inl (List.mem_singleton.mp (first.listed y member)))
    · exact List.mem_cons_of_mem i (rest.listed y member)
  · intro y member
    rw [split, List.mem_append]
    rcases List.mem_cons.mp member with rfl | member
    · rcases first.others y (by simp) with listed | new
      · exact Or.inl (Or.inl listed)
      · exact Or.inr new
    · rcases rest.others y member with listed | ⟨k, after, same⟩
      · exact Or.inl (Or.inr listed)
      · exact Or.inr ⟨k, Nat.le_trans later after, same⟩

theorem edits_editChild (fresh : Function.Injective supply) {w : Widget} {parent i : String}
    (sound : Sound supply (fun _ => True) s) (known : Issued supply s parent)
    (edit : outcome (editWidget supply w) s = (.ok (), s') →
      Edits supply s s' w.edited (Missing w.edited))
    (success : outcome (editChild supply parent w) s = (.ok i, s')) :
    Edits supply s s' (if w.id.isEmpty then [] else w.edited)
        (Missing (if w.id.isEmpty then [] else w.edited)) ∧
      Keeping supply s [w] [i] ∧ Keeps supply (fun _ => True) s s' := by
  unfold editChild at success
  by_cases empty : w.id.isEmpty = true
  · rw [if_pos empty] at success ⊢
    have leads : Leads (Keeps supply fun _ => True) (insertWidget supply (some parent) w) s
        fun id s' => Issued supply s' id :=
      leads_insertWidget fresh w _ s (fun p same => Option.some.inj same ▸ known) (by simp)
    have keeps := leads.store
    rw [success] at keeps
    obtain ⟨rfl, rfl⟩ := insertWidget_ok fresh (sound.unissued fresh) known success
    refine ⟨?_, ⟨?_, ?_⟩, keeps⟩
    · exact (Edits.extend _ (map_id_rows_renew w _ _)).congr fun v y _ => by simp [Missing]
    · simp [listedIds, String.isEmpty_iff.mp empty]
    · intro y member
      exact Or.inr ⟨s.issued, Nat.le_refl _, List.mem_singleton.mp member⟩
  · rw [if_neg empty] at success ⊢
    obtain ⟨_, s₁, edited, same⟩ := outcome_bind_ok.mp success
    cases same
    have keeps := (leads_editWidget fresh w s sound (by simp)).store
    rw [edited] at keeps
    refine ⟨edit edited, ⟨?_, ?_⟩, keeps⟩
    · intro y member
      simpa using (List.mem_filter.mp member).1
    · intro y member
      rw [List.mem_singleton.mp member]
      exact Or.inl (List.mem_filter.mpr ⟨by simp, by simpa using empty⟩)

mutual

theorem edits_editWidget (fresh : Function.Injective supply) : (w : Widget) → (s s' : Store) →
    Sound supply (fun _ => True) s → outcome (editWidget supply w) s = (.ok (), s') →
    Edits supply s s' w.edited (Missing w.edited)
  | ⟨id, name, kind, children, props, query⟩, s, s', sound, success => by
      rw [editWidget_eq, outcome_require_ok] at success
      obtain ⟨known, rest⟩ := success
      obtain ⟨_, s₁, changed, rest⟩ := outcome_bind_ok.mp rest
      obtain ⟨kept, s₂, edited, removed⟩ := outcome_bind_ok.mp rest
      cases outcome_modify_ok.mp changed
      cases eq_of_outcome_removeStale removed
      have unissued := sound.unissued fresh
      have stored := hasWidget_iff.mp known
      have first := Edits.changeWidget supply ⟨id, name, kind, children, props, query⟩ stored
      have changes : Keeps supply (fun _ => True) s (s.changeWidget id fun r => { r with
          name, kind, props := props.map Json.compact, query := query.map Json.compact }) :=
        Keeps.changeWidget id (fun _ => ⟨rfl, rfl⟩) fun _ _ _ => trivial
      have sound₁ := changes.1 sound
      have issued := sound.issued id stored
      obtain ⟨below, keeping⟩ :=
        edits_editChildren fresh children id _ s₂ kept sound₁ issued edited
      have sound₂ := (leads_editChildren fresh children id _ sound₁ issued (by simp)).store.1 sound₁
      rw [edited] at sound₂
      have last := Edits.removeWidgets supply sound₂.wellFormed id kept
      -- The row is changed first, and what the children's edits do not return goes last.
      have whole := (first.trans unissued sound.wellFormed sound₁.wellFormed below).trans unissued
        sound.wellFormed sound₂.wellFormed last
      rw [List.append_nil] at whole
      have same : Keeping supply s children kept := ⟨keeping.listed, keeping.others⟩
      refine whole.congr fun v y member => ?_
      rw [Widget.edited, ← List.singleton_append, missing_append, false_or,
        same.mem_iff unissued member, or_comm]
      refine or_congr_left ?_
      simp only [Missing, List.mem_singleton, exists_eq_left]
      exact and_congr_left' eq_comm

theorem edits_editChildren (fresh : Function.Injective supply) : (ws : List Widget) →
    (parent : String) → (s s' : Store) → (kept : List String) →
    Sound supply (fun _ => True) s → Issued supply s parent →
    outcome (editChildren supply parent ws) s = (.ok kept, s') →
    Edits supply s s' (Widget.editedList ws) (Missing (Widget.editedList ws)) ∧
      Keeping supply s ws kept
  | [], parent, s, s', kept, _, _, success => by
      rw [editChildren] at success
      cases success
      refine ⟨Edits.refl.congr fun v y _ => by simp [Missing, Widget.editedList], ?_, ?_⟩
      · simp [listedIds]
      · simp
  | w :: rest, parent, s, s', kept, sound, known, success => by
      rw [editChildren_cons_eq] at success
      obtain ⟨i, s₁, first, rest'⟩ := outcome_bind_ok.mp success
      obtain ⟨is, s₂, more, same⟩ := outcome_bind_ok.mp rest'
      cases same
      obtain ⟨one, keeping, keeps⟩ := edits_editChild fresh sound known
        (edits_editWidget fresh w s s₁ sound) first
      have sound₁ := keeps.1 sound
      obtain ⟨others, keeping'⟩ := edits_editChildren fresh rest parent s₁ s' is sound₁
        (keeps.issued known) more
      have whole := one.trans (sound.unissued fresh) sound.wellFormed sound₁.wellFormed others
      refine ⟨?_, keeping.cons keeping' keeps.2⟩
      rw [Widget.editedList]
      exact whole.congr fun v y _ => missing_append.symm

end

/-! ## Ids given once -/

theorem listedIds_append : listedIds (ws ++ ws') = listedIds ws ++ listedIds ws' := by
  rw [listedIds, List.map_append, List.filter_append]
  rfl

theorem listedIds_cons_of_ne {w : Widget} (named : w.id.isEmpty = false) :
    listedIds (w :: ws) = w.id :: listedIds ws := by
  rw [listedIds, List.map_cons, List.filter_cons_of_pos (by simp [named]), listedIds]

mutual

theorem sublist_edited : (w : Widget) → w.id.isEmpty = false →
    (w.edited.map fun v => v.id).Sublist (listedIds w.nodes)
  | ⟨id, name, kind, children, props, query⟩, named => by
      rw [Widget.edited, Widget.nodes, listedIds_cons_of_ne named, List.map_cons]
      exact (sublist_editedList children).cons_cons id

theorem sublist_editedList : (ws : List Widget) →
    ((Widget.editedList ws).map fun v => v.id).Sublist (listedIds (Widget.nodesList ws))
  | [] => List.Sublist.refl _
  | w :: rest => by
      rw [Widget.editedList, Widget.nodesList, List.map_append, listedIds_append]
      refine List.Sublist.append ?_ (sublist_editedList rest)
      cases named : w.id.isEmpty with
      | true => exact List.nil_sublist _
      | false => exact sublist_edited w named

end

/-- The root of an edit is named by no other widget that is edited. -/
theorem nodup_edited (w : Widget) (distinct : (listedIds w.nodes).Nodup) :
    (w.edited.map fun v => v.id).Nodup := by
  cases named : w.id.isEmpty with
  | false => exact distinct.sublist (sublist_edited w named)
  | true =>
      obtain ⟨id, name, kind, children, props, query⟩ := w
      have others := sublist_editedList children
      rw [Widget.edited, List.map_cons, List.nodup_cons]
      constructor
      · intro member
        have listed := (List.mem_filter.mp (others.subset member)).2
        simp [named] at listed
      · refine distinct.sublist (others.trans ?_)
        exact ((List.sublist_cons_self _ _).map _).filter _

/-- An edit that succeeds leaves just those of the stored widgets that are not doomed.  What it
edits was stored, or has an id that the edit itself gave out; a stored one that is not doomed stays
where it is, with what the edit gives for it. -/
theorem editWidget_survivors (supply : Nat → String) (fresh : Function.Injective supply)
    (calls : List Call) (w : Widget) (distinct : (listedIds w.nodes).Nodup) (s' : Store)
    (success : outcome (editWidget supply w) (run supply calls) = (.ok (), s')) :
    (∀ id ∈ (run supply calls).widgetIds, id ∈ s'.widgetIds ↔
      ¬ (run supply calls).Doomed (Missing w.edited) id) ∧
    ∀ v ∈ w.edited,
      (v.id ∈ (run supply calls).widgetIds ∨
        ∃ k, (run supply calls).issued ≤ k ∧ k < s'.issued ∧ v.id = supply k) ∧
      ∀ r ∈ (run supply calls).widgets, r.id = v.id →
        ¬ (run supply calls).Doomed (Missing w.edited) v.id →
          { r with
            name := v.name, kind := v.kind
            props := v.props.map Json.compact
            query := v.query.map Json.compact } ∈ s'.widgets := by
  have sound : Sound supply (fun _ => True) (run supply calls) :=
    sound_run fresh calls fun _ _ _ _ => trivial
  generalize run supply calls = s at sound success ⊢
  have edits := edits_editWidget fresh w s s' sound success
  refine ⟨edits.survivors, fun v member => ⟨edits.found v member, fun r stored same safe => ?_⟩⟩
  have known : v.id ∈ s.widgetIds := same ▸ List.mem_map_of_mem stored
  obtain ⟨r', left, is⟩ := List.mem_map.mp ((edits.survivors v.id known).mpr safe)
  rcases edits.rows r' left with ⟨old, before, rfl⟩ | new
  · rw [foldl_rewrite_id] at is
    cases sound.wellFormed.row_unique before stored (is.trans same.symm)
    rwa [foldl_rewrite_of_mem (nodup_edited w distinct) member same, rewrite, if_pos same] at left
  · exact absurd known (is ▸ new.not_mem (sound.unissued fresh))

/-- A page with two columns, the second with a chart in it. -/
def pageCalls : List Call :=
  [.createWidget
    { name := "page", kind := "row"
      children := [{ name := "left", kind := "column" },
        { name := "right", kind := "column", children := [{ name := "chart", kind := "bar" }] }] }]

/-- The page without its left column, with another column in its place. -/
def reducedPage : Widget :=
  { id := "a", name := "page", kind := "row"
    children := [{ name := "new", kind := "column" },
      { id := "aaa", name := "wide", kind := "column"
        children := [{ id := "aaaa", name := "chart", kind := "line" }] }] }

theorem editWidget_survivors_reducedPage :
    ∃ s', outcome (editWidget letters reducedPage) (run letters pageCalls) = (.ok (), s') ∧
      "aaaa" ∈ s'.widgetIds ∧
      ¬ (run letters pageCalls).Doomed (Missing reducedPage.edited) "aaaa" ∧
      (run letters pageCalls).Doomed (Missing reducedPage.edited) "aa" ∧
      (⟨"aaaa", "chart", "line", none, none, some "aaa"⟩ : StoredWidget) ∈ s'.widgets := by
  have distinct : (listedIds reducedPage.nodes).Nodup := by decide
  obtain ⟨s', success, ids'⟩ : ∃ s',
      outcome (editWidget letters reducedPage) (run letters pageCalls) = (.ok (), s') ∧
        s'.widgetIds = ["a", "aaa", "aaaa", "aaaaa"] := by
    refine ⟨_, Prod.ext ?_ rfl, ?_⟩
    · decide +kernel
    · decide +kernel
  obtain ⟨left, edited⟩ :=
    editWidget_survivors letters letters_injective pageCalls reducedPage distinct s' success
  have ids : (run letters pageCalls).widgetIds = ["a", "aa", "aaa", "aaaa"] := rfl
  have safe := (left "aaaa" (by simp [ids])).mp (by simp [ids'])
  have gone := mt (left "aa" (by simp [ids])).mpr (by simp [ids'])
  have changed : ({ id := "aaaa", name := "chart", kind := "line" } : Widget) ∈
      reducedPage.edited := by
    simp [reducedPage, Widget.edited, Widget.editedList]
  have stored : (⟨"aaaa", "chart", "bar", none, none, some "aaa"⟩ : StoredWidget) ∈
      (run letters pageCalls).widgets := by decide
  exact ⟨s', success, by simp [ids'], safe, not_not.mp gone, (edited _ changed).2 _ stored rfl safe⟩

/-- The page with the chart listed in its left column. -/
def movedChart : Widget :=
  { id := "a", name := "page", kind := "row"
    children := [{ id := "aa", name := "left", kind := "column"
                   children := [{ id := "aaaa", name := "chart", kind := "line" }] },
      { id := "aaa", name := "right", kind := "column" }] }

theorem editWidget_removesMoved :
    (listedIds movedChart.nodes).Nodup ∧ "aaaa" ∈ listedIds movedChart.nodes ∧
    ∃ s', outcome (editWidget letters movedChart) (run letters pageCalls) = (.ok (), s') ∧
      s'.widgetIds = ["a", "aa", "aaa"] := by
  refine ⟨by decide, by decide, _, Prod.ext ?_ rfl, ?_⟩
  · decide +kernel
  · decide +kernel

end Store

end QueryBoard
