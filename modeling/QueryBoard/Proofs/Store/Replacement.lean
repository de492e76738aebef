import QueryBoard.Proofs.Store.Filling
import QueryBoard.Proofs.Store.Limits

/-!
# The rows after an edit

Within the limits of the database an edit that meets stored widgets only, none of which it drops
itself, succeeds.  It rewrites their rows in their places, puts new rows behind all others, and
removes what its lists leave out.

The recursion of an edit changes widgets at every level, so each of its steps has to know that no
later one removes what it has changed or added.  This is what `Kept` says with respect to all that
the whole edit drops.
-/

set_option autoImplicit false

namespace QueryBoard.Store

open Hierarchy (Grounded)
open Relation (ReflTransGen TransGen)

variable {supply : Nat → String} {s s₁ s₂ s' : Store} {ws ws' : List Widget}
variable {rows rows' : List WidgetRow} {drops drops' : String → String → Prop}

/-! ## What is not doomed -/

theorem Doomed.mono {x : String} (doomed : s.Doomed drops x)
    (part : ∀ v, ∀ y ∈ s.widgetIds, drops v y → drops' v y) : s.Doomed drops' x := by
  obtain ⟨y, v, above, link, drop⟩ := doomed
  obtain ⟨r, stored, rfl, _⟩ := mem_parentLinks.mp link
  exact ⟨r.id, v, above, link, part v r.id (List.mem_map_of_mem stored) drop⟩

theorem Missing.mono {v y : String} (missing : Missing ws v y) (part : ws ⊆ ws') :
    Missing ws' v y := by
  obtain ⟨u, member, same, absent⟩ := missing
  exact ⟨u, part member, same, absent⟩

theorem doomed_iff_up (wellFormed : WellFormed s) {x p : String}
    (link : (x, some p) ∈ parentLinks s.widgets) :
    s.Doomed drops x ↔ drops p x ∨ s.Doomed drops p := by
  constructor
  · rintro ⟨y, v, rfl | under, up, drop⟩
    · cases wellFormed.link_unique _ _ _ link up
      exact Or.inl drop
    · obtain ⟨q, first, rest⟩ := TransGen.head'_iff.mp under
      cases wellFormed.link_unique _ _ _ link first
      exact Or.inr ⟨y, v, Relation.reflTransGen_iff_eq_or_transGen.mp rest |>.imp_left Eq.symm, up,
        drop⟩
  · rintro (drop | ⟨y, v, rfl | under, up, drop⟩)
    · exact ⟨x, p, Or.inl rfl, link, drop⟩
    · exact ⟨p, v, Or.inr (TransGen.single link), up, drop⟩
    · exact ⟨y, v, Or.inr (under.head link), up, drop⟩

/-- Whether rows that are not dropped hang, by way of each other, on rows that stay. -/
def Hangs (s : Store) (drops : String → String → Prop) (rows : List WidgetRow) : Prop :=
  ∀ r ∈ rows, ∃ p, r.parent = some p ∧ ¬ drops p r.id ∧
    (p ∈ rows.map (fun r => r.id) ∨ ¬ s.Doomed drops p)

theorem Hangs.not_doomed (wellFormed : WellFormed s) (stored : ∀ r ∈ rows, r.stored ∈ s.widgets)
    (up : s.Hangs drops rows) : ∀ r ∈ rows, ¬ s.Doomed drops r.id := by
  have general : ∀ id, Grounded (parentLinks s.widgets) id → ∀ r ∈ rows, r.id = id →
      ¬ s.Doomed drops id := by
    intro id grounded
    induction grounded with
    | root top =>
        rintro r member rfl
        obtain ⟨p, given, _⟩ := up r member
        have link := mem_parentLinks.mpr ⟨r.stored, stored r member, rfl, given⟩
        cases wellFormed.link_unique _ _ _ top link
    | under link _ ih =>
        rintro r member rfl doomed
        obtain ⟨p, given, keeps, above⟩ := up r member
        have own := mem_parentLinks.mpr ⟨r.stored, stored r member, rfl, given⟩
        cases wellFormed.link_unique _ _ _ link own
        rcases (doomed_iff_up wellFormed own).mp doomed with drop | gone
        · exact keeps drop
        · rcases above with new | safe
          · obtain ⟨r', member', is⟩ := List.mem_map.mp new
            exact ih r' member' is gone
          · exact safe gone
  intro r member
  exact general r.id (wellFormed.chains _ (stored r member)) r member rfl

/-- Whether a widget is stored and not doomed. -/
def Kept (s : Store) (drops : String → String → Prop) (id : String) : Prop :=
  id ∈ s.widgetIds ∧ ¬ s.Doomed drops id

theorem Kept.after (unissued : Unissued supply s) (wellFormed : WellFormed s)
    (edits : Edits supply s s₁ ws drops') (after : WellFormed s₁)
    (part : ∀ v y, drops' v y → drops v y) {i : String} (kept : s.Kept drops i) :
    s₁.Kept drops i := by
  obtain ⟨stored, safe⟩ := kept
  have left := (edits.survivors i stored).mpr fun doomed => safe (doomed.mono fun v y _ => part v y)
  exact ⟨left, fun doomed =>
    safe ((edits.doomed_iff unissued wellFormed after stored left).mp doomed)⟩

/-! ## Rows that are left and rows that are new -/

/-- How changes lead from the rows of a store to those of another one. -/
structure Replaces (supply : Nat → String) (s s' : Store) (ws : List Widget)
    (rows : List WidgetRow) : Prop where
  widgets : s'.widgets = ((s.widgets.filter fun r => r.id ∈ s'.widgetIds).map fun r =>
    ws.foldl rewrite r) ++ rows.map WidgetRow.stored
  issued : s'.issued = s.issued + rows.length
  ids : rows.map (fun r => r.id) = (List.range' s.issued rows.length).map supply

namespace Replaces

theorem new (replaces : Replaces supply s s' ws rows) {r : WidgetRow} (member : r ∈ rows) :
    ∃ k, s.issued ≤ k ∧ r.id = supply k := by
  have listed : r.id ∈ rows.map fun r => r.id := List.mem_map_of_mem member
  rw [replaces.ids] at listed
  obtain ⟨k, range, same⟩ := List.mem_map.mp listed
  exact ⟨k, (List.mem_range'_1.mp range).1, same.symm⟩

theorem ne_stored (replaces : Replaces supply s s' ws rows) (unissued : Unissued supply s)
    {i : String} (stored : i ∈ s.widgetIds) : i ∉ rows.map fun r => r.id := by
  intro new
  obtain ⟨r, member, rfl⟩ := List.mem_map.mp new
  obtain ⟨k, later, is⟩ := replaces.new member
  exact unissued k later (is ▸ stored)

theorem stored (replaces : Replaces supply s s' ws rows) {r : WidgetRow} (member : r ∈ rows) :
    r.stored ∈ s'.widgets := by
  rw [replaces.widgets]
  exact List.mem_append_right _ (List.mem_map_of_mem member)

theorem filter_eq_self {ids : List String} (all : ∀ i ∈ s.widgetIds, i ∈ ids) :
    (s.widgets.filter fun r => r.id ∈ ids) = s.widgets := by
  rw [List.filter_eq_self]
  intro r member
  exact decide_eq_true (all r.id (List.mem_map_of_mem member))

theorem refl (supply : Nat → String) (s : Store) : Replaces supply s s [] [] := by
  refine ⟨?_, rfl, rfl⟩
  rw [filter_eq_self fun i stored => stored, List.map_nil, List.append_nil]
  exact (List.map_id' s.widgets).symm

theorem changeWidget (supply : Nat → String) (s : Store) (w : Widget) :
    Replaces supply s { s with widgets := s.widgets.map fun r => rewrite r w } [w] [] := by
  refine ⟨?_, rfl, rfl⟩
  have ids : widgetIds { s with widgets := s.widgets.map fun r => rewrite r w } = s.widgetIds := by
    rw [widgetIds, rowIds, List.map_map]
    exact List.map_congr_left fun r _ => rewrite_id r w
  rw [ids, filter_eq_self fun i stored => stored, List.map_nil, List.append_nil]
  rfl

theorem extend (ids : rows.map (fun r => r.id) = (List.range' s.issued rows.length).map supply) :
    Replaces supply s (s.extend rows) [] rows := by
  refine ⟨?_, rfl, ids⟩
  have all : ∀ i ∈ s.widgetIds, i ∈ (s.extend rows).widgetIds := by
    intro i stored
    rw [widgetIds_extend]
    exact List.mem_append_left _ stored
  rw [filter_eq_self all]
  simp [Store.extend]

theorem removeWidgets (supply : Nat → String) (wellFormed : WellFormed s)
    (picked : StoredWidget → Bool) : Replaces supply s (s.removeWidgets picked) [] [] := by
  refine ⟨?_, rfl, rfl⟩
  have part := eq_filter_of_sublist (s.removeWidgets_spec picked).1 wellFormed.widgets
  simpa using! part

/-- What is stored after changes was stored before, or is one of their rows. -/
theorem widgetIds_subset (replaces : Replaces supply s s' ws rows) {i : String}
    (after : i ∈ s'.widgetIds) : i ∈ s.widgetIds ∨ i ∈ rows.map fun r => r.id := by
  rw [widgetIds, replaces.widgets, rowIds, List.map_append, List.mem_append] at after
  rcases after with old | new
  · obtain ⟨_, inside, same⟩ := List.mem_map.mp old
    obtain ⟨r, kept, rfl⟩ := List.mem_map.mp inside
    rw [foldl_rewrite_id] at same
    exact Or.inl (same ▸ List.mem_map_of_mem (List.mem_filter.mp kept).1)
  · rw [List.map_map] at new
    exact Or.inr new

/-- New rows that later changes neither rewrite nor remove stand before those of the changes. -/
theorem trans (unissued : Unissued supply s) (first : Replaces supply s s₁ ws rows)
    (second : Replaces supply s₁ s₂ ws' rows') (left : ∀ r ∈ rows, r.id ∈ s₂.widgetIds)
    (apart : ∀ r ∈ rows, r.id ∉ ws'.map fun w => w.id) :
    Replaces supply s s₂ (ws ++ ws') (rows ++ rows') := by
  have early : ∀ r ∈ s.widgets, r.id ∈ s₂.widgetIds → r.id ∈ s₁.widgetIds := by
    intro r member after
    rcases second.widgetIds_subset after with kept | new
    · exact kept
    · obtain ⟨r', member', is⟩ := List.mem_map.mp new
      obtain ⟨k, later, same⟩ := second.new member'
      have stored : supply k ∈ s.widgetIds := same ▸ is ▸ List.mem_map_of_mem member
      have issued := first.issued
      exact absurd stored (unissued k (by omega))
  refine ⟨?_, ?_, ?_⟩
  · rw [second.widgets, first.widgets, List.filter_append, List.map_append, List.map_append,
      List.append_assoc]
    congr 1
    · -- Of the old rows those are left that both changes leave.
      rw [List.filter_map, List.filter_filter, List.map_map]
      have ids : (s.widgets.filter fun r => (((fun r : StoredWidget => decide (r.id ∈ s₂.widgetIds)) ∘
          fun r => ws.foldl rewrite r) r) && decide (r.id ∈ s₁.widgetIds)) =
            s.widgets.filter fun r => r.id ∈ s₂.widgetIds := by
        apply List.filter_congr
        intro r member
        simp only [Function.comp_apply, foldl_rewrite_id, Bool.and_eq_left_iff_imp,
          decide_eq_true_eq]
        exact early r member
      rw [ids]
      apply List.map_congr_left
      intro r _
      exact (List.foldl_append ..).symm
    · congr 1
      rw [List.filter_map, List.map_map, List.filter_eq_self.mpr]
      · apply List.map_congr_left
        intro r member
        exact foldl_rewrite_of_apart (apart r member)
      · intro r member
        exact decide_eq_true (left r member)
  · rw [second.issued, first.issued, List.length_append, Nat.add_assoc]
  · rw [List.map_append, first.ids, second.ids, first.issued, List.length_append,
      ← List.map_append, List.range'_append_1]

end Replaces

/-! ## The edit -/

/-- A removal that later steps of an edit make takes nothing that is new, as new rows hang on rows
that stay. -/
theorem Hangs.left (wellFormed : WellFormed s₁) (replaces : Replaces supply s s₁ ws rows)
    (edits : Edits supply s₁ s₂ ws' drops) (hangs : s₁.Hangs drops rows) :
    ∀ r ∈ rows, r.id ∈ s₂.widgetIds := by
  intro r member
  have stored : r.id ∈ s₁.widgetIds := List.mem_map.mpr ⟨_, replaces.stored member, rfl⟩
  refine (edits.survivors r.id stored).mpr ?_
  exact hangs.not_doomed wellFormed (fun r inside => replaces.stored inside) r member

/-- New rows hang on what stays when other widgets are edited. -/
theorem hangs_of_others (unissued : Unissued supply s) (replaces : Replaces supply s s₁ ws rows)
    {own : List String} (up : ∀ r ∈ rows, ∃ p, r.parent = some p ∧
      (p ∈ rows.map (fun r => r.id) ∨ p ∈ own))
    (safe : ∀ p ∈ own, ¬ s₁.Doomed (Missing ws') p)
    (others : ∀ u ∈ ws', u.id ∈ s.widgetIds ∧ u.id ∉ own) : s₁.Hangs (Missing ws') rows := by
  intro r member
  obtain ⟨p, given, above⟩ := up r member
  refine ⟨p, given, ?_, above.imp_right (safe p)⟩
  rintro ⟨u, inside, rfl, _⟩
  rcases above with new | listed
  · exact replaces.ne_stored unissued (others u inside).1 new
  · exact (others u inside).2 listed

/-- New rows hang on what stays when a widget drops the children that are not listed. -/
theorem hangs_of_listed (unissued : Unissued supply s) (replaces : Replaces supply s s₁ ws rows)
    {id : String} {listed own : List String}
    (up : ∀ r ∈ rows, (r.parent = some id ∧ r.id ∈ listed) ∨ ∃ p, r.parent = some p ∧
      (p ∈ rows.map (fun r => r.id) ∨ p ∈ own))
    (safe : ∀ p ∈ id :: own, ¬ s₁.Doomed (fun v y => v = id ∧ y ∉ listed) p)
    (stored : id ∈ s.widgetIds) (apart : id ∉ own) :
    s₁.Hangs (fun v y => v = id ∧ y ∉ listed) rows := by
  intro r member
  rcases up r member with ⟨top, named⟩ | ⟨p, given, above⟩
  · exact ⟨id, top, fun drop => drop.2 named, Or.inr (safe id List.mem_cons_self)⟩
  · refine ⟨p, given, ?_, above.imp_right fun old => safe p (List.mem_cons_of_mem id old)⟩
    rintro ⟨rfl, _⟩
    rcases above with new | old
    · exact replaces.ne_stored unissued stored new
    · exact apart old

/-- What goes with a dropped child lies no deeper in it than before, as no new row is among it. -/
theorem Shallow.after (unissued : Unissued supply s) (wellFormed : WellFormed s)
    {changed : String → String → Prop} (edits : Edits supply s s₁ ws changed)
    (after : WellFormed s₁) (replaces : Replaces supply s s₁ ws rows)
    (hangs : s₁.Hangs drops' rows) (shallow : s.Shallow drops)
    (part : ∀ v, ∀ y ∈ s.widgetIds, drops' v y → drops v y) : s₁.Shallow drops' := by
  have old : ∀ x p, (x, some p) ∈ parentLinks s₁.widgets → s₁.Doomed drops' x →
      x ∈ s.widgetIds ∧ (x, some p) ∈ parentLinks s.widgets := by
    intro x p link doomed
    obtain ⟨r, left, rfl, _⟩ := mem_parentLinks.mp link
    have left : r.id ∈ s₁.widgetIds := List.mem_map_of_mem left
    have before : r.id ∈ s.widgetIds := by
      refine (replaces.widgetIds_subset left).resolve_right fun new => ?_
      obtain ⟨r', member, same⟩ := List.mem_map.mp new
      exact hangs.not_doomed after (fun r inside => replaces.stored inside) r' member (same ▸ doomed)
    exact ⟨before, (edits.link_iff unissued wellFormed before left).mp link⟩
  have before : ∀ ids y, s₁.Doomed drops' y → Chain s₁.widgets (y :: ids) →
      Chain s.widgets (y :: ids) := by
    intro ids
    induction ids with
    | nil => exact fun y _ _ => List.isChain_singleton y
    | cons x ids ih =>
        intro y doomed chain
        obtain ⟨link, rest⟩ := Chain.cons_cons.mp chain
        have below := (doomed_iff_up after link).mpr (Or.inr doomed)
        exact Chain.cons_cons.mpr ⟨(old x y link below).2, ih x below rest⟩
  intro v y ids drop chain
  obtain ⟨link, rest⟩ := Chain.cons_cons.mp chain
  have doomed := (doomed_iff_up after link).mpr (Or.inl drop)
  obtain ⟨stored, link⟩ := old y v link doomed
  exact shallow v y ids (part v y stored drop) (Chain.cons_cons.mpr ⟨link, before ids y doomed rest⟩)

theorem outcome_editChild (fresh : Function.Injective supply) {w : Widget} {parent : String}
    (sound : Sound supply (fun _ => True) s) (known : parent ∈ s.widgetIds)
    (edit : w.id.isEmpty = false → ∃ s', outcome (editWidget supply w) s = (.ok (), s') ∧
      Replaces supply s s' w.edited (w.addedRows supply s.issued)) :
    ∃ s', outcome (editChild supply parent w) s =
        (.ok (if w.id.isEmpty then w.renew supply s.issued else w.fill supply s.issued).id, s') ∧
      Replaces supply s s' (if w.id.isEmpty then [] else w.edited)
        (Widget.addedChild supply s.issued parent w) := by
  rw [editChild, Widget.addedChild]
  cases named : w.id.isEmpty with
  | true =>
      have inserted := outcome_insertWidget fresh w (some parent) s (sound.unissued fresh)
        fun p same => Option.some.inj same ▸ known
      rw [if_pos rfl, if_pos rfl, if_pos rfl, if_pos rfl, Widget.id_renew]
      exact ⟨_, inserted, Replaces.extend (map_id_rows_renew w _ _)⟩
  | false =>
      obtain ⟨s', edited, replaces⟩ := edit named
      rw [if_neg (by simp), if_neg (by simp), if_neg (by simp), if_neg (by simp), Widget.id_fill]
      exact ⟨s', outcome_bind_ok.mpr ⟨(), s', edited, rfl⟩, replaces⟩

mutual

theorem outcome_editWidget (fresh : Function.Injective supply) : (w : Widget) → (s : Store) →
    Sound supply (fun _ => True) s → (∀ i ∈ w.edited.map (fun u => u.id), s.Kept drops i) →
    (w.edited.map fun u => u.id).Nodup → (∀ v y, Missing w.edited v y → drops v y) →
    WithinLimits s w.edited → ∃ s', outcome (editWidget supply w) s = (.ok (), s') ∧
      Replaces supply s s' w.edited (w.addedRows supply s.issued)
  | ⟨id, name, kind, children, props, query⟩, s, sound, kept, distinct, part, limits => by
      have unissued := sound.unissued fresh
      obtain ⟨stored, _⟩ := kept id (by simp [Widget.edited])
      have first := Edits.changeWidget supply ⟨id, name, kind, children, props, query⟩ stored
      have change := Replaces.changeWidget supply s ⟨id, name, kind, children, props, query⟩
      have changes : Keeps supply (fun _ => True) s (s.changeWidget id fun r => { r with
          name, kind, props := props.map Json.compact, query := query.map Json.compact }) :=
        Keeps.changeWidget id (fun _ => ⟨rfl, rfl⟩) fun _ _ _ => trivial
      have sound₁ := changes.1 sound
      have issued := sound.issued id stored
      rw [Widget.edited] at kept distinct part limits
      have later : ∀ i ∈ id :: (Widget.editedList children).map (fun u => u.id),
          Kept (s.changeWidget id fun r => { r with
            name, kind, props := props.map Json.compact, query := query.map Json.compact })
            drops i :=
        fun i member => (kept i member).after unissued sound.wellFormed first sound₁.wellFormed
          fun v y impossible => impossible.elim
      have limits₁ : WithinLimits (s.changeWidget id fun r => { r with
          name, kind, props := props.map Json.compact, query := query.map Json.compact })
          (⟨id, name, kind, children, props, query⟩ :: Widget.editedList children) :=
        ⟨limits.listed, limits.dropped.after unissued sound.wellFormed first sound₁.wellFormed change
          (by simp [Hangs]) fun _ _ _ missing => missing⟩
      obtain ⟨s₂, edited, replaces⟩ := outcome_editChildren fresh children id _ sound₁ later distinct
        (fun v y missing => part v y (missing.mono (List.subset_cons_self _ _)))
        (limits₁.mono (List.subset_cons_self _ _))
      obtain ⟨below, keeping⟩ := edits_editChildren fresh children id _ s₂ _ sound₁ issued edited
      have sound₂ := (leads_editChildren fresh children id _ sound₁ issued (by simp)).store.1 sound₁
      rw [edited] at sound₂
      have last := Edits.removeWidgets supply sound₂.wellFormed id
        ((Widget.fillList supply s.issued children).map fun w => w.id)
      -- Of the stored children those are removed that the widget itself does not list.
      have own : ∀ v y, (v = id ∧
          y ∉ (Widget.fillList supply s.issued children).map fun w => w.id) →
            Missing (⟨id, name, kind, children, props, query⟩ :: Widget.editedList children) v y := by
        rintro v y ⟨rfl, absent⟩
        refine ⟨_, List.mem_cons_self, rfl, fun given => absent ?_⟩
        exact keeping.listed y given
      have listed : ∀ i ∈ id :: (Widget.editedList children).map (fun u => u.id),
          ¬ s₂.Doomed (fun v y => v = id ∧
            y ∉ (Widget.fillList supply s.issued children).map fun w => w.id) i := by
        intro i member doomed
        have kept₁ := later i member
        have kept₂ := kept₁.after (sound₁.unissued fresh) sound₁.wellFormed below sound₂.wellFormed
          fun v y missing => part v y (missing.mono (List.subset_cons_self _ _))
        rw [below.doomed_iff (sound₁.unissued fresh) sound₁.wellFormed sound₂.wellFormed kept₁.1
          kept₂.1] at doomed
        exact kept₁.2 (doomed.mono fun v y _ missing => part v y (own v y missing))
      have hangs := hangs_of_listed (sound₁.unissued fresh) replaces
        (Widget.parent_of_mem_addedRowsList children s.issued id) listed
        (later id List.mem_cons_self).1 (List.nodup_cons.mp distinct).1
      have few : ((Widget.fillList supply s.issued children).map fun w => w.id).length <
          Db.Limit.parameters.most := by
        rw [List.length_map, Widget.length_fillList]
        exact limits.listed _ List.mem_cons_self
      have shallow := limits₁.dropped.after (sound₁.unissued fresh) sound₁.wellFormed below
        sound₂.wellFormed replaces hangs fun v y _ => own v y
      have removed := (outcome_removeStale_iff sound₂.wellFormed).mpr ⟨few, shallow⟩
      refine ⟨s₂.removeWidgets fun r => r.parent == some id &&
        !((Widget.fillList supply s.issued children).map fun w => w.id).contains r.id, ?_, ?_⟩
      · rw [editWidget_eq, outcome_require_ok]
        exact ⟨hasWidget_iff.mpr stored, outcome_bind_ok.mpr ⟨(), _, outcome_modify_ok.mpr rfl,
          outcome_bind_ok.mpr ⟨_, s₂, edited, removed⟩⟩⟩
      · have both := change.trans unissued replaces (by simp) (by simp)
        have left := hangs.left sound₂.wellFormed replaces last
        have whole := both.trans unissued (Replaces.removeWidgets supply sound₂.wellFormed _) left
          (by simp)
        rw [List.append_nil, List.nil_append, List.append_nil] at whole
        exact whole

theorem outcome_editChildren (fresh : Function.Injective supply) : (ws : List Widget) →
    (parent : String) → (s : Store) → Sound supply (fun _ => True) s →
    (∀ i ∈ parent :: (Widget.editedList ws).map (fun u => u.id), s.Kept drops i) →
    (parent :: (Widget.editedList ws).map fun u => u.id).Nodup →
    (∀ v y, Missing (Widget.editedList ws) v y → drops v y) →
    WithinLimits s (Widget.editedList ws) → ∃ s', outcome (editChildren supply parent ws) s =
        (.ok ((Widget.fillList supply s.issued ws).map fun w => w.id), s') ∧
      Replaces supply s s' (Widget.editedList ws) (Widget.addedRowsList supply s.issued parent ws)
  | [], parent, s, _, _, _, _, _ => by
      rw [editChildren]
      exact ⟨s, rfl, Replaces.refl supply s⟩
  | w :: rest, parent, s, sound, kept, distinct, part, limits => by
      rw [Widget.editedList, List.map_append] at kept distinct
      rw [Widget.editedList] at part limits
      have known := kept parent List.mem_cons_self
      have issued := sound.issued parent known.1
      obtain ⟨s₁, success, replaces⟩ := outcome_editChild fresh sound known.1 fun named => by
        rw [named] at kept distinct part limits
        exact outcome_editWidget fresh w s sound
          (fun i member => kept i (List.mem_cons_of_mem _ (List.mem_append_left _ member)))
          ((List.nodup_cons.mp distinct).2.sublist (List.sublist_append_left _ _))
          (fun v y missing => part v y (missing.mono (List.subset_append_left _ _)))
          (limits.mono (List.subset_append_left _ _))
      obtain ⟨one, keeping, keeps⟩ := edits_editChild fresh sound issued
        (edits_editWidget fresh w s s₁ sound) success
      have sound₁ := keeps.1 sound
      have kept₁ : ∀ i ∈ parent :: ((if w.id.isEmpty then [] else w.edited).map (fun u => u.id) ++
          (Widget.editedList rest).map fun u => u.id), s₁.Kept drops i :=
        fun i member => (kept i member).after (sound.unissued fresh) sound.wellFormed one
          sound₁.wellFormed fun v y missing => part v y (missing.mono (List.subset_append_left _ _))
      have parts : (parent :: (Widget.editedList rest).map fun u => u.id).Sublist
          (parent :: ((if w.id.isEmpty then [] else w.edited).map (fun u => u.id) ++
            (Widget.editedList rest).map fun u => u.id)) :=
        (List.sublist_append_right _ _).cons_cons parent
      -- What the other children's edits change was stored before, so it is none of the new rows.
      have old : ∀ i ∈ (Widget.editedList rest).map (fun u => u.id), i ∈ s.widgetIds :=
        fun i member => (kept i (List.mem_cons_of_mem _ (List.mem_append_right _ member))).1
      have ids := distinct
      rw [← List.cons_append] at ids
      have hangs : s₁.Hangs (Missing (Widget.editedList rest)) _ :=
        hangs_of_others (sound.unissued fresh) replaces (fun r => Widget.parent_of_mem_addedChild)
          (fun p listed doomed => (kept₁ p (List.cons_append ▸ List.mem_append_left _ listed)).2
            (doomed.mono fun v y _ missing =>
              part v y (missing.mono (List.subset_append_right _ _))))
          fun u inside => ⟨old u.id (List.mem_map_of_mem inside), fun listed =>
            (List.nodup_append.mp ids).2.2 u.id listed u.id (List.mem_map_of_mem inside) rfl⟩
      have limits₁ : WithinLimits s₁ (Widget.editedList rest) :=
        ⟨fun u inside => limits.listed u (List.mem_append_right _ inside),
          limits.dropped.after (sound.unissued fresh) sound.wellFormed one sound₁.wellFormed replaces
            hangs fun v y _ missing => missing.mono (List.subset_append_right _ _)⟩
      obtain ⟨s₂, success', replaces'⟩ := outcome_editChildren fresh rest parent s₁ sound₁
        (fun i member => kept₁ i (parts.subset member)) (distinct.sublist parts)
        (fun v y missing => part v y (missing.mono (List.subset_append_right _ _))) limits₁
      obtain ⟨others, _⟩ := edits_editChildren fresh rest parent s₁ s₂ _ sound₁ (keeps.issued issued)
        success'
      have left := hangs.left sound₁.wellFormed replaces others
      have whole := replaces.trans (sound.unissued fresh) replaces' left fun r member listed =>
        replaces.ne_stored (sound.unissued fresh) (old r.id listed) (List.mem_map_of_mem member)
      refine ⟨s₂, ?_, ?_⟩
      · rw [editChildren_cons_eq, Widget.fillList_cons s.issued parent w rest, ← replaces.issued]
        exact outcome_bind_ok.mpr ⟨_, s₁, success, outcome_bind_ok.mpr ⟨_, s₂, success', rfl⟩⟩
      · rwa [Widget.editedList, Widget.addedRowsList_cons, ← replaces.issued]

end

end QueryBoard.Store
