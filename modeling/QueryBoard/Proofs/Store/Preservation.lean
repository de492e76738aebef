import QueryBoard.Proofs.Store.Runs
import QueryBoard.Proofs.Store.WellFormed
import Mathlib.Logic.Function.Basic

/-!
# Runs keep the store well formed

A call may stop at any of its changes, so each of them has to keep the rules.  The one danger is a
widget that is added below itself: it cannot come about, as a new id is never one that was issued
before, while the widgets under which others are added have such ids.
-/

set_option autoImplicit false

namespace QueryBoard

mutual

/-- The documents of a widget and of all that is in it. -/
def Widget.documents : Widget → List Json
  | ⟨_, _, _, children, props, query⟩ =>
    props.toList ++ query.toList ++ Widget.documentsList children

def Widget.documentsList : List Widget → List Json
  | [] => []
  | w :: rest => w.documents ++ Widget.documentsList rest

end

namespace Store

variable {supply : Nat → String} {texts : String → Prop} {s : Store}

/-- Whether an id was given to a row of the store. -/
def Issued (supply : Nat → String) (s : Store) (id : String) : Prop :=
  ∃ k < s.issued, id = supply k

/-- What runs keep: the rules of the store, ids that were issued, layouts of numbers that can be
read, and documents of a kind. -/
structure Sound (supply : Nat → String) (texts : String → Prop) (s : Store) : Prop where
  wellFormed : WellFormed s
  issued : ∀ id ∈ s.widgetIds, Issued supply s id
  sides : ∀ p ∈ s.placements, ∀ n ∈ [p.x, p.y, p.w, p.h], 0 ≤ n.toInt ∧ n.toInt < UInt32.size
  documents : ∀ r ∈ s.widgets, ∀ text, r.props = some text ∨ r.query = some text → texts text

theorem sound_empty : Sound supply texts {} := by
  refine ⟨wellFormed_empty, ?_, ?_, ?_⟩ <;> simp [widgetIds, rowIds]

/-- Goes from sound stores to sound ones, and never takes back an id. -/
def Keeps (supply : Nat → String) (texts : String → Prop) (s s' : Store) : Prop :=
  (Sound supply texts s → Sound supply texts s') ∧ s.issued ≤ s'.issued

namespace Keeps

theorem refl : Keeps supply texts s s := ⟨id, Nat.le_refl _⟩

theorem trans {a b c : Store} (first : Keeps supply texts a b) (second : Keeps supply texts b c) :
    Keeps supply texts a c :=
  ⟨fun sound => second.1 (first.1 sound), Nat.le_trans first.2 second.2⟩

instance : IsPreorder Store (Keeps supply texts) where
  refl := fun _ => refl
  trans := fun _ _ _ => trans

theorem issued {s' : Store} (keeps : Keeps supply texts s s') {id : String}
    (issued : Issued supply s id) : Issued supply s' id := by
  obtain ⟨k, before, same⟩ := issued
  exact ⟨k, Nat.lt_of_lt_of_le before keeps.2, same⟩

/-! ## Single changes -/

theorem issue : Keeps supply texts s { s with issued := s.issued + 1 } := by
  refine ⟨fun sound => ⟨?_, ?_, sound.sides, sound.documents⟩, Nat.le_succ _⟩
  · obtain ⟨widgets, dashboards, parents, chains, placements⟩ := sound.wellFormed
    exact ⟨widgets, dashboards, parents, chains, placements⟩
  · intro id member
    obtain ⟨k, before, same⟩ := sound.issued id member
    exact ⟨k, Nat.lt_succ_of_lt before, same⟩

theorem addWidget {s' : Store} {row : StoredWidget} (success : s.addWidget row = .ok s')
    (issued : Issued supply s row.id) (other : row.parent ≠ some row.id)
    (documents : ∀ text, row.props = some text ∨ row.query = some text → texts text) :
    Keeps supply texts s s' := by
  obtain ⟨_, _, rfl⟩ := addWidget_ok success
  refine ⟨fun sound => ⟨sound.wellFormed.addWidget success other, ?_, sound.sides, ?_⟩,
    Nat.le_refl _⟩
  · intro id member
    simp only [widgetIds, rowIds, List.map_append, List.mem_append] at member
    rcases member with member | member
    · exact sound.issued id member
    · rw [List.mem_singleton.mp member]
      exact issued
  · intro r member
    rcases List.mem_append.mp member with member | member
    · exact sound.documents r member
    · rw [List.mem_singleton.mp member]
      exact documents

theorem changeWidget (id : String) {change : StoredWidget → StoredWidget}
    (same : ∀ r, (change r).id = r.id ∧ (change r).parent = r.parent)
    (documents : ∀ r text, (change r).props = some text ∨ (change r).query = some text →
      texts text) :
    Keeps supply texts s (s.changeWidget id change) := by
  refine ⟨fun sound => ⟨sound.wellFormed.changeWidget id same, ?_, sound.sides, ?_⟩, Nat.le_refl _⟩
  · intro id' member
    obtain ⟨r, inside, rfl⟩ := List.mem_map.mp member
    obtain ⟨r', stored, rfl⟩ := List.mem_map.mp inside
    apply sound.issued
    refine List.mem_map.mpr ⟨r', stored, ?_⟩
    split
    · exact (same r').1.symm
    · rfl
  · intro r member text
    obtain ⟨r', stored, rfl⟩ := List.mem_map.mp member
    split
    · exact documents r' text
    · exact sound.documents r' stored text

theorem removeWidgets (picked : StoredWidget → Bool) :
    Keeps supply texts s (s.removeWidgets picked) := by
  have part := (s.removeWidgets_spec picked).1
  refine ⟨fun sound => ⟨sound.wellFormed.removeWidgets picked, ?_, ?_, ?_⟩, Nat.le_refl _⟩
  · intro id member
    exact sound.issued id ((part.map _).subset member)
  · intro p member
    exact sound.sides p (List.mem_filter.mp member).1
  · intro r member
    exact sound.documents r (part.subset member)

theorem addDashboard {s' : Store} {row : StoredDashboard}
    (success : s.addDashboard row = .ok s') : Keeps supply texts s s' := by
  obtain ⟨_, rfl⟩ := addDashboard_ok success
  exact ⟨fun sound => ⟨sound.wellFormed.addDashboard success, sound.issued, sound.sides,
    sound.documents⟩, Nat.le_refl _⟩

theorem addPlacements {s' : Store} {rows : List Placement}
    (success : s.addPlacements rows = .ok s')
    (sides : ∀ p ∈ rows, ∀ n ∈ [p.x, p.y, p.w, p.h], 0 ≤ n.toInt ∧ n.toInt < UInt32.size) :
    Keeps supply texts s s' := by
  obtain ⟨_, rfl⟩ := addPlacements_ok success
  refine ⟨fun sound => ⟨sound.wellFormed.addPlacements success, sound.issued, ?_,
    sound.documents⟩, Nat.le_refl _⟩
  intro p member
  rcases List.mem_append.mp member with member | member
  · exact sound.sides p member
  · exact sides p member

theorem renameDashboard (id name : String) : Keeps supply texts s (s.renameDashboard id name) :=
  ⟨fun sound => ⟨sound.wellFormed.renameDashboard id name, sound.issued, sound.sides,
    sound.documents⟩, Nat.le_refl _⟩

theorem clearDashboard (id : String) : Keeps supply texts s (s.clearDashboard id) :=
  ⟨fun sound => ⟨sound.wellFormed.clearDashboard id, sound.issued,
    fun p member => sound.sides p (List.mem_filter.mp member).1, sound.documents⟩, Nat.le_refl _⟩

theorem removeDashboard (id : String) : Keeps supply texts s (s.removeDashboard id) :=
  ⟨fun sound => ⟨sound.wellFormed.removeDashboard id, sound.issued,
    fun p member => sound.sides p (List.mem_filter.mp member).1, sound.documents⟩, Nat.le_refl _⟩

end Keeps

/-! ## Whole calls -/

theorem texts_of_documents {props query : Option Json}
    (readable : ∀ j ∈ props.toList ++ query.toList, texts j.compact) (text : String)
    (given : props.map Json.compact = some text ∨ query.map Json.compact = some text) :
    texts text := by
  rcases given with given | given
  · obtain ⟨j, present, rfl⟩ := Option.map_eq_some_iff.mp given
    exact readable j (by simp [present])
  · obtain ⟨j, present, rfl⟩ := Option.map_eq_some_iff.mp given
    exact readable j (by simp [present])

mutual

theorem leads_insertWidget (fresh : Function.Injective supply) :
    (w : Widget) → (parent : Option String) → (s : Store) →
    (∀ p, parent = some p → Issued supply s p) → (∀ j ∈ w.documents, texts j.compact) →
    Leads (Keeps supply texts) (insertWidget supply parent w) s fun id s' => Issued supply s' id
  | ⟨_, name, kind, children, props, query⟩, parent, s, known, readable => by
      have issuing : Leads (Keeps supply texts) (issue supply) s fun id s' =>
          Issued supply s' id ∧ parent ≠ some id := by
        refine Leads.issue Keeps.issue ⟨⟨s.issued, Nat.lt_succ_self _, rfl⟩, ?_⟩
        -- Were the new id that of the parent, it would have been issued before.
        intro same
        obtain ⟨k, before, again⟩ := known _ same
        exact Nat.lt_irrefl _ (fresh again ▸ before)
      rw [Widget.documents] at readable
      rw [insertWidget]
      refine issuing.bind fun id s₁ _ ⟨given, apart⟩ => ?_
      refine Leads.bind (Leads.attempt (Q := fun _ s' => Issued supply s' id)
        fun s₂ success => ?_) fun _ s₂ _ given => ?_
      · have keeps : Keeps supply texts s₁ s₂ := Keeps.addWidget success given apart
          (texts_of_documents fun j member => readable j (List.mem_append_left _ member))
        exact ⟨keeps, keeps.issued given⟩
      · have below := leads_insertChildren fresh children id s₂ given
          fun j member => readable j (List.mem_append_right _ member)
        refine below.bind fun _ s₃ keeps _ => ?_
        exact Leads.pure (keeps.issued given)

theorem leads_insertChildren (fresh : Function.Injective supply) :
    (ws : List Widget) → (parent : String) → (s : Store) →
    Issued supply s parent → (∀ j ∈ Widget.documentsList ws, texts j.compact) →
    Leads (Keeps supply texts) (insertChildren supply parent ws) s fun _ _ => True
  | [], parent, s, _, _ => by
      rw [insertChildren]
      exact Leads.pure trivial
  | w :: rest, parent, s, known, readable => by
      rw [Widget.documentsList] at readable
      rw [insertChildren]
      have first := leads_insertWidget fresh w (some parent) s
        (fun p same => Option.some.inj same ▸ known)
        fun j member => readable j (List.mem_append_left _ member)
      refine first.bind fun _ s' keeps _ => ?_
      exact leads_insertChildren fresh rest parent s' (keeps.issued known)
        fun j member => readable j (List.mem_append_right _ member)

end

mutual

theorem leads_editWidget (fresh : Function.Injective supply) :
    (w : Widget) → (s : Store) → Sound supply texts s →
    (∀ j ∈ w.documents, texts j.compact) →
    Leads (Keeps supply texts) (editWidget supply w) s fun _ _ => True
  | ⟨id, name, kind, children, props, query⟩, s, sound, readable => by
      rw [Widget.documents] at readable
      rw [editWidget_eq]
      refine Leads.require fun stored => ?_
      have known := sound.issued id (hasWidget_iff.mp stored)
      refine Leads.bind (Leads.modify (Q := fun _ _ => True)
        (Keeps.changeWidget id (fun _ => ⟨rfl, rfl⟩) fun _ => texts_of_documents
          fun j member => readable j (List.mem_append_left _ member)) trivial)
        fun _ s₁ keeps _ => ?_
      have below := leads_editChildren fresh children id s₁ (keeps.1 sound) (keeps.issued known)
        fun j member => readable j (List.mem_append_right _ member)
      refine below.bind fun kept s₂ _ _ => ?_
      exact Leads.removeStale (Keeps.removeWidgets _) trivial

theorem leads_editChildren (fresh : Function.Injective supply) :
    (ws : List Widget) → (parent : String) → (s : Store) →
    Sound supply texts s → Issued supply s parent →
    (∀ j ∈ Widget.documentsList ws, texts j.compact) →
    Leads (Keeps supply texts) (editChildren supply parent ws) s fun _ _ => True
  | [], parent, s, _, _, _ => by
      rw [editChildren]
      exact Leads.pure trivial
  | w :: rest, parent, s, sound, known, readable => by
      rw [Widget.documentsList] at readable
      have own : ∀ j ∈ w.documents, texts j.compact :=
        fun j member => readable j (List.mem_append_left _ member)
      have first : Leads (Keeps supply texts) (editChild supply parent w) s fun _ _ => True := by
        unfold editChild
        split
        · obtain ⟨store, _⟩ := leads_insertWidget fresh w (some parent) s
            (fun p same => Option.some.inj same ▸ known) own
          exact ⟨store, fun _ _ => trivial⟩
        · refine (leads_editWidget fresh w s sound own).bind fun _ s' _ _ => ?_
          exact Leads.pure trivial
      rw [editChildren_cons_eq]
      refine first.bind fun _ s₁ keeps _ => ?_
      have more := leads_editChildren fresh rest parent s₁ (keeps.1 sound) (keeps.issued known)
        fun j member => readable j (List.mem_append_right _ member)
      refine more.bind fun _ s₂ _ _ => ?_
      exact Leads.pure trivial

end

theorem leads_deleteWidget (id : String) (s : Store) :
    Leads (Keeps supply texts) (deleteWidget id) s fun _ _ => True := by
  rw [deleteWidget_eq]
  exact Leads.require fun _ => Leads.modify (Keeps.removeWidgets _) trivial

theorem sides_placement (dashboard : String) (p : PlacedWidget) :
    ∀ n ∈ [(placement dashboard p).x, (placement dashboard p).y, (placement dashboard p).w,
      (placement dashboard p).h], 0 ≤ n.toInt ∧ n.toInt < UInt32.size := by
  have side (n : UInt32) : 0 ≤ (Int64.ofNat n.toNat).toInt ∧
      (Int64.ofNat n.toNat).toInt < UInt32.size := by
    have small : n.toNat < UInt32.size := n.toNat_lt
    rw [Int64.toInt_ofNat_of_lt (Nat.lt_trans small (by decide))]
    exact ⟨Int.natCast_nonneg n.toNat, Int.ofNat_lt.mpr small⟩
  simp only [placement, List.mem_cons, List.not_mem_nil, or_false]
  rintro n (rfl | rfl | rfl | rfl) <;> exact side _

theorem leads_placements (dashboard : String) (ps : List PlacedWidget) (s : Store) :
    Leads (Keeps supply texts) (attempt (·.addPlacements (ps.map (placement dashboard)))) s
      fun _ _ => True := by
  refine Leads.attempt fun s' success => ⟨Keeps.addPlacements success ?_, trivial⟩
  intro p member
  obtain ⟨placed, _, rfl⟩ := List.mem_map.mp member
  exact sides_placement dashboard placed

theorem leads_createDashboard (d : Dashboard) (s : Store) :
    Leads (Keeps supply texts) (createDashboard supply d) s fun _ _ => True := by
  unfold createDashboard
  refine Leads.bind (Leads.issue (Q := fun _ _ => True) Keeps.issue trivial)
    fun id s₁ _ _ => ?_
  refine Leads.bind (Leads.attempt (Q := fun _ _ => True)
    fun s₂ success => ⟨Keeps.addDashboard success, trivial⟩) fun _ s₂ _ _ => ?_
  refine (leads_placements id d.widgets s₂).bind fun _ s₃ _ _ => ?_
  exact Leads.pure trivial

theorem leads_editDashboard (d : Dashboard) (s : Store) :
    Leads (Keeps supply texts) (editDashboard d) s fun _ _ => True := by
  rw [editDashboard_eq]
  refine Leads.require fun _ => ?_
  refine Leads.bind (Leads.modify (Q := fun _ _ => True)
    (Keeps.renameDashboard _ _) trivial) fun _ s₁ _ _ => ?_
  refine Leads.bind (Leads.modify (Q := fun _ _ => True)
    (Keeps.clearDashboard _) trivial) fun _ s₂ _ _ => ?_
  exact leads_placements d.id d.widgets s₂

theorem leads_deleteDashboard (id : String) (s : Store) :
    Leads (Keeps supply texts) (deleteDashboard id) s fun _ _ => True := by
  rw [deleteDashboard_eq]
  exact Leads.require fun _ => Leads.modify (Keeps.removeDashboard _) trivial

/-! ## Runs -/

def Call.documents : Call → List Json
  | .createWidget w | .editWidget w => w.documents
  | _ => []

theorem Sound.after (fresh : Function.Injective supply) (sound : Sound supply texts s) (c : Call)
    (readable : ∀ j ∈ c.documents, texts j.compact) : Sound supply texts (c.after supply s) := by
  cases c with
  | createWidget w =>
      exact (leads_insertWidget fresh w none s (by simp) readable).store.1 sound
  | editWidget w => exact (leads_editWidget fresh w s sound readable).store.1 sound
  | deleteWidget id => exact (leads_deleteWidget id s).store.1 sound
  | createDashboard d => exact (leads_createDashboard d s).store.1 sound
  | editDashboard d => exact (leads_editDashboard d s).store.1 sound
  | deleteDashboard id => exact (leads_deleteDashboard id s).store.1 sound

/-- Every run from the empty store ends in a sound one. -/
theorem sound_run (fresh : Function.Injective supply) (calls : List Call)
    (readable : ∀ c ∈ calls, ∀ j ∈ c.documents, texts j.compact) :
    Sound supply texts (run supply calls) := by
  have general : ∀ (calls : List Call) (s : Store), Sound supply texts s →
      (∀ c ∈ calls, ∀ j ∈ c.documents, texts j.compact) →
      Sound supply texts (calls.foldl (Call.after supply) s) := by
    intro calls
    induction calls with
    | nil => intro s sound _; exact sound
    | cons c rest ih =>
        intro s sound readable
        exact ih _ (sound.after fresh c (readable c (by simp)))
          fun c' member => readable c' (by simp [member])
  exact general calls {} sound_empty readable

theorem wellFormed_run (fresh : Function.Injective supply) (calls : List Call) :
    WellFormed (run supply calls) :=
  have sound : Sound supply (fun _ => True) (run supply calls) :=
    sound_run fresh calls fun _ _ _ _ => trivial
  sound.wellFormed

end Store

end QueryBoard
