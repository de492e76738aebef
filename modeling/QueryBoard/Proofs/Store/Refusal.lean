import QueryBoard.Proofs.Store.Replacement

/-!
# When the database refuses an edit

An edit that succeeds has kept within the limits of the database, those that the store before it
shows.  Each of its removals says so of the store that it meets, and nothing that it removes was
changed on the way to it: a widget that goes lies in the dropped child, while what is edited before
lies in widgets that stay.
-/

set_option autoImplicit false

namespace QueryBoard.Store

open Relation (ReflTransGen TransGen)

variable {supply : Nat → String} {s s₁ s' : Store} {ws ws' : List Widget}
variable {drops drops' changed : String → String → Prop}

theorem length_of_editChildren : (ws : List Widget) → {s s' : Store} → {parent : String} →
    {kept : List String} → outcome (editChildren supply parent ws) s = (.ok kept, s') →
    kept.length = ws.length
  | [], _, _, _, _, success => by
      rw [editChildren] at success
      cases success
      rfl
  | w :: rest, _, _, _, _, success => by
      rw [editChildren_cons_eq] at success
      obtain ⟨_, _, _, rest'⟩ := outcome_bind_ok.mp success
      obtain ⟨_, _, more, same⟩ := outcome_bind_ok.mp rest'
      cases same
      rw [List.length_cons, length_of_editChildren rest more, List.length_cons]

/-- Of two widgets above a third one, one is above the other. -/
theorem under_or_under (wellFormed : WellFormed s) {x y z : String} (first : x = y ∨ s.Under x y)
    (second : x = z ∨ s.Under x z) : y = z ∨ s.Under y z ∨ s.Under z y := by
  have path : ∀ {p}, (x = p ∨ s.Under x p) →
      ReflTransGen (fun i p => (i, some p) ∈ parentLinks s.widgets) x p :=
    fun above => Relation.reflTransGen_iff_eq_or_transGen.mpr (above.imp_left Eq.symm)
  have up : Relator.RightUnique fun i p => (i, some p) ∈ parentLinks s.widgets :=
    fun _ _ _ link link' => Option.some.inj (wellFormed.link_unique _ _ _ link link')
  rcases ReflTransGen.total_of_right_unique up (path first) (path second) with above | above
  · rcases Relation.reflTransGen_iff_eq_or_transGen.mp above with same | under
    · exact Or.inl same.symm
    · exact Or.inr (Or.inl under)
  · rcases Relation.reflTransGen_iff_eq_or_transGen.mp above with same | under
    · exact Or.inl same
    · exact Or.inr (Or.inr under)

/-- What lies in a dropped child is not taken by other edits, as none of these is within the child or
takes what it lies in. -/
theorem not_doomed_below (wellFormed : WellFormed s) {v y x : String} (drop : drops v y)
    (link : (y, some v) ∈ parentLinks s.widgets) (below : x = y ∨ s.Under x y)
    (other : v ∉ ws.map fun u => u.id) (safe : ¬ s.Doomed (Missing ws) v)
    (kept : ∀ u ∈ ws, ¬ s.Doomed drops u.id) : ¬ s.Doomed (Missing ws) x := by
  rintro ⟨z, _, above, link', u, inside, rfl, absent⟩
  rcases under_or_under wellFormed below above with rfl | under | under
  · have same := Option.some.inj (wellFormed.link_unique _ _ _ link link')
    exact other (List.mem_map.mpr ⟨u, inside, same.symm⟩)
  · obtain ⟨p, first, rest⟩ := TransGen.head'_iff.mp under
    cases wellFormed.link_unique _ _ _ link first
    exact safe ⟨z, u.id, Relation.reflTransGen_iff_eq_or_transGen.mp rest |>.imp_left Eq.symm,
      link', u, inside, rfl, absent⟩
  · obtain ⟨p, first, rest⟩ := TransGen.head'_iff.mp under
    cases wellFormed.link_unique _ _ _ link' first
    exact kept u inside ⟨y, v,
      Relation.reflTransGen_iff_eq_or_transGen.mp rest |>.imp_left Eq.symm, link, drop⟩

/-- What lies in a dropped child was as deep in it before changes that leave all of it. -/
theorem Shallow.before (unissued : Unissued supply s) (wellFormed : WellFormed s)
    (edits : Edits supply s s₁ ws changed) (shallow : s₁.Shallow drops')
    (part : ∀ v y, drops v y → (y, some v) ∈ parentLinks s.widgets → drops' v y ∧
      ∀ x, x = y ∨ s.Under x y → ¬ s.Doomed changed x) : s.Shallow drops := by
  have left : ∀ {x p}, (x, some p) ∈ parentLinks s.widgets → ¬ s.Doomed changed x →
      (x, some p) ∈ parentLinks s₁.widgets := by
    intro x p link safe
    obtain ⟨r, stored, rfl, _⟩ := mem_parentLinks.mp link
    have before : r.id ∈ s.widgetIds := List.mem_map_of_mem stored
    exact (edits.link_iff unissued wellFormed before ((edits.survivors r.id before).mpr safe)).mpr
      link
  have after : ∀ ids y, (∀ x, x = y ∨ s.Under x y → ¬ s.Doomed changed x) →
      Chain s.widgets (y :: ids) → Chain s₁.widgets (y :: ids) := by
    intro ids
    induction ids with
    | nil => exact fun y _ _ => List.isChain_singleton y
    | cons i ids ih =>
        intro y safe chain
        obtain ⟨link, rest⟩ := Chain.cons_cons.mp chain
        have under : s.Under i y := TransGen.single link
        refine Chain.cons_cons.mpr ⟨left link (safe i (Or.inr under)), ih i (fun x below => ?_) rest⟩
        refine safe x (Or.inr ?_)
        rcases below with rfl | below
        · exact under
        · exact below.trans under
  intro v y ids drop chain
  obtain ⟨link, rest⟩ := Chain.cons_cons.mp chain
  obtain ⟨drop', safe⟩ := part v y drop link
  exact shallow v y ids drop'
    (Chain.cons_cons.mpr ⟨left link (safe y (Or.inl rfl)), after ids y safe rest⟩)

theorem Shallow.or (first : s.Shallow drops) (second : s.Shallow drops') :
    s.Shallow fun v y => drops v y ∨ drops' v y := by
  rintro v y ids (drop | drop) chain
  · exact first v y ids drop chain
  · exact second v y ids drop chain

theorem withinLimits_nil (s : Store) : WithinLimits s [] := by
  refine ⟨by simp, fun v y _ missing => ?_⟩
  simp [Missing] at missing

mutual

/-- An edit that succeeds is within the limits. -/
theorem withinLimits_of_editWidget (fresh : Function.Injective supply) : (w : Widget) →
    (s s' : Store) → Sound supply (fun _ => True) s →
    (∀ i ∈ w.edited.map (fun u => u.id), s.Kept drops i) → (w.edited.map fun u => u.id).Nodup →
    (∀ v y, Missing w.edited v y → drops v y) →
    outcome (editWidget supply w) s = (.ok (), s') → WithinLimits s w.edited
  | ⟨id, name, kind, children, props, query⟩, s, s', sound, kept, distinct, part, success => by
      rw [editWidget_eq, outcome_require_ok] at success
      obtain ⟨known, rest⟩ := success
      obtain ⟨_, s₁, changed, rest⟩ := outcome_bind_ok.mp rest
      obtain ⟨ids, s₂, edited, removed⟩ := outcome_bind_ok.mp rest
      cases outcome_modify_ok.mp changed
      have unissued := sound.unissued fresh
      have stored := hasWidget_iff.mp known
      have first := Edits.changeWidget supply ⟨id, name, kind, children, props, query⟩ stored
      have changes : Keeps supply (fun _ => True) s (s.changeWidget id fun r => { r with
          name, kind, props := props.map Json.compact, query := query.map Json.compact }) :=
        Keeps.changeWidget id (fun _ => ⟨rfl, rfl⟩) fun _ _ _ => trivial
      have sound₁ := changes.1 sound
      have issued := sound.issued id stored
      rw [Widget.edited] at kept distinct part ⊢
      have later : ∀ i ∈ id :: (Widget.editedList children).map (fun u => u.id),
          Kept (s.changeWidget id fun r => { r with
            name, kind, props := props.map Json.compact, query := query.map Json.compact })
            drops i :=
        fun i member => (kept i member).after unissued sound.wellFormed first sound₁.wellFormed
          fun v y impossible => impossible.elim
      have limits := withinLimits_of_editChildren fresh children id _ s₂ ids sound₁ later distinct
        (fun v y missing => part v y (missing.mono (List.subset_cons_self _ _))) edited
      obtain ⟨below, keeping⟩ := edits_editChildren fresh children id _ s₂ _ sound₁ issued edited
      have sound₂ := (leads_editChildren fresh children id _ sound₁ issued (by simp)).store.1 sound₁
      rw [edited] at sound₂
      rw [eq_of_outcome_removeStale removed, outcome_removeStale_iff sound₂.wellFormed] at removed
      obtain ⟨few, shallow⟩ := removed
      have own : Shallow (s.changeWidget id fun r => { r with
          name, kind, props := props.map Json.compact, query := query.map Json.compact })
          (Missing [⟨id, name, kind, children, props, query⟩]) := by
        refine shallow.before (sound₁.unissued fresh) sound₁.wellFormed below ?_
        rintro v y ⟨u, member, rfl, absent⟩ link
        cases List.mem_singleton.mp member
        obtain ⟨r, inside, rfl, _⟩ := mem_parentLinks.mp link
        rw [← keeping.mem_iff (sound₁.unissued fresh) (List.mem_map_of_mem inside)] at absent
        refine ⟨⟨rfl, absent⟩, fun x under => not_doomed_below sound₁.wellFormed
          (part id r.id ⟨_, List.mem_cons_self, rfl, fun given => absent (keeping.listed r.id given)⟩)
          link under (List.nodup_cons.mp distinct).1 (fun doomed => ?_) fun u inside =>
            (later u.id (List.mem_cons_of_mem id (List.mem_map_of_mem inside))).2⟩
        exact (later id List.mem_cons_self).2 (doomed.mono fun v y _ missing =>
          part v y (missing.mono (List.subset_cons_self _ _)))
      refine ⟨?_, (own.or limits.dropped).before unissued sound.wellFormed first ?_⟩
      · rintro u member
        rcases List.mem_cons.mp member with rfl | member
        · exact length_of_editChildren children edited ▸ few
        · exact limits.listed u member
      · intro v y missing _
        exact ⟨missing_append.mp missing, fun _ _ => not_doomed_false⟩

theorem withinLimits_of_editChildren (fresh : Function.Injective supply) : (ws : List Widget) →
    (parent : String) → (s s' : Store) → (ids : List String) → Sound supply (fun _ => True) s →
    (∀ i ∈ parent :: (Widget.editedList ws).map (fun u => u.id), s.Kept drops i) →
    (parent :: (Widget.editedList ws).map fun u => u.id).Nodup →
    (∀ v y, Missing (Widget.editedList ws) v y → drops v y) →
    outcome (editChildren supply parent ws) s = (.ok ids, s') →
    WithinLimits s (Widget.editedList ws)
  | [], parent, s, s', ids, _, _, _, _, _ => withinLimits_nil s
  | w :: rest, parent, s, s', ids, sound, kept, distinct, part, success => by
      rw [editChildren_cons_eq] at success
      obtain ⟨i, s₁, first, rest'⟩ := outcome_bind_ok.mp success
      obtain ⟨is, s₂, more, same⟩ := outcome_bind_ok.mp rest'
      cases same
      rw [Widget.editedList, List.map_append] at kept distinct
      rw [Widget.editedList] at part ⊢
      have issued := sound.issued parent (kept parent List.mem_cons_self).1
      obtain ⟨one, _, keeps⟩ := edits_editChild fresh sound issued (edits_editWidget fresh w s s₁ sound)
        first
      have sound₁ := keeps.1 sound
      have within : WithinLimits s (if w.id.isEmpty then [] else w.edited) := by
        cases named : w.id.isEmpty with
        | true => exact withinLimits_nil s
        | false =>
            rw [named] at kept distinct part
            rw [editChild, named] at first
            obtain ⟨_, _, edited, _⟩ := outcome_bind_ok.mp first
            exact withinLimits_of_editWidget fresh w s _ sound
              (fun i member => kept i (List.mem_cons_of_mem _ (List.mem_append_left _ member)))
              ((List.nodup_cons.mp distinct).2.sublist (List.sublist_append_left _ _))
              (fun v y missing => part v y (missing.mono (List.subset_append_left _ _))) edited
      have kept₁ : ∀ i ∈ parent :: ((if w.id.isEmpty then [] else w.edited).map (fun u => u.id) ++
          (Widget.editedList rest).map fun u => u.id), s₁.Kept drops i :=
        fun i member => (kept i member).after (sound.unissued fresh) sound.wellFormed one
          sound₁.wellFormed fun v y missing => part v y (missing.mono (List.subset_append_left _ _))
      have parts : (parent :: (Widget.editedList rest).map fun u => u.id).Sublist
          (parent :: ((if w.id.isEmpty then [] else w.edited).map (fun u => u.id) ++
            (Widget.editedList rest).map fun u => u.id)) :=
        (List.sublist_append_right _ _).cons_cons parent
      have limits := withinLimits_of_editChildren fresh rest parent s₁ s' is sound₁
        (fun i member => kept₁ i (parts.subset member)) (distinct.sublist parts)
        (fun v y missing => part v y (missing.mono (List.subset_append_right _ _))) more
      obtain ⟨_, apart⟩ := List.nodup_cons.mp distinct
      have others : s.Shallow (Missing (Widget.editedList rest)) := by
        refine limits.dropped.before (sound.unissued fresh) sound.wellFormed one ?_
        rintro v y missing link
        have drop := part v y (missing.mono (List.subset_append_right _ _))
        obtain ⟨u, inside, rfl, _⟩ := id missing
        have listed := List.mem_map_of_mem (f := fun u : Widget => u.id) inside
        refine ⟨missing, fun x under => not_doomed_below sound.wellFormed drop link under
          (fun own => (List.nodup_append.mp apart).2.2 u.id own u.id listed rfl) (fun doomed => ?_)
          fun w' own => (kept w'.id (List.mem_cons_of_mem _ (List.mem_append_left _
            (List.mem_map_of_mem own)))).2⟩
        exact (kept u.id (List.mem_cons_of_mem _ (List.mem_append_right _ listed))).2
          (doomed.mono fun v y _ missing => part v y (missing.mono (List.subset_append_left _ _)))
      refine ⟨fun u member => ?_, fun v y ids missing => ?_⟩
      · rcases List.mem_append.mp member with member | member
        · exact within.listed u member
        · exact limits.listed u member
      · exact (within.dropped.or others) v y ids (missing_append.mp missing)

end

end QueryBoard.Store
