import QueryBoard.Proofs.Store.Refusal
import QueryBoard.Proofs.Store.WritingBack

/-!
# After an edit the store holds the tree

An edit fits a store when every listed id is that of a stored child of the widget it is listed
under.  What is read under the id of its root is then the tree of the edit, with new ids where there
were none, and the widgets outside of the old tree stay as they are.  The children are those that
were given, but not in the order in which they were: a stored child keeps the place of its row, and
the new ones follow.
-/

set_option autoImplicit false

namespace QueryBoard.Store

open Relation (TransGen)

variable {supply : Nat → String} {s s' : Store} {ws : List Widget} {rows : List WidgetRow}

/-! ## Edits that fit -/

/-- Whether an edit lists, besides new widgets, only stored children of the widgets that it lists
them under. -/
structure Fits (s : Store) (w : Widget) : Prop where
  distinct : (listedIds w.nodes).Nodup
  root : w.id ∈ s.widgetIds
  placed : ∀ u ∈ w.nodes, ∀ c ∈ u.children, c.id ≠ "" → (c.id, some u.id) ∈ parentLinks s.widgets
  /-- What is in a new widget is new as well. -/
  bare : ∀ u ∈ w.nodes, ∀ c ∈ u.children, c.id = "" → ∀ x ∈ c.nodes, x.id = ""

/-- The stored children of a widget in the order of their rows. -/
def childIds (s : Store) (id : String) : List String :=
  rowIds (s.widgets.filter fun r => r.parent == some id)

theorem mem_childIds {i p : String} : i ∈ s.childIds p ↔ (i, some p) ∈ parentLinks s.widgets := by
  rw [mem_parentLinks]
  simp [childIds, rowIds, and_left_comm, and_comm]

theorem mem_listedIds_of_mem {c : Widget} (child : c ∈ ws) (named : c.id.isEmpty = false) :
    c.id ∈ listedIds ws :=
  List.mem_filter.mpr ⟨List.mem_map_of_mem child, by simp [named]⟩

namespace Fits

variable {w : Widget} (fits : Fits s w)
include fits

theorem link {u c : Widget} (member : u ∈ w.edited) (child : c ∈ u.children)
    (named : c.id.isEmpty = false) : (c.id, some u.id) ∈ parentLinks s.widgets := by
  refine fits.placed u (w.edited_subset_nodes member) c child fun empty => ?_
  simp [empty] at named

theorem stored {i : String} (member : i ∈ w.edited.map fun u => u.id) : i ∈ s.widgetIds := by
  have each : ∀ u ∈ w.edited, u.id ∈ s.widgetIds := by
    refine w.edited_induction fits.root fun p listed _ c child named => ?_
    obtain ⟨r, inside, is, _⟩ := mem_parentLinks.mp (fits.link listed child named)
    exact List.mem_map.mpr ⟨r, inside, is⟩
  obtain ⟨u, listed, rfl⟩ := List.mem_map.mp member
  exact each u listed

theorem within {i : String} (member : i ∈ w.edited.map fun u => u.id) :
    i = w.id ∨ s.Under i w.id := by
  have each : ∀ u ∈ w.edited, u.id = w.id ∨ s.Under u.id w.id := by
    refine w.edited_induction (Or.inl rfl) fun p listed above c child named => ?_
    have up := fits.link listed child named
    rcases above with same | above
    · exact Or.inr (same ▸ TransGen.single up)
    · exact Or.inr (above.head up)
  obtain ⟨u, listed, rfl⟩ := List.mem_map.mp member
  exact each u listed

/-- Nothing outside of the old tree is dropped. -/
theorem under_of_doomed {i : String} (doomed : s.Doomed (Missing w.edited) i) :
    s.Under i w.id := by
  obtain ⟨y, v, above, link, u, member, rfl, _⟩ := doomed
  have up : s.Under i u.id := by
    rcases above with rfl | above
    · exact TransGen.single link
    · exact above.tail link
  rcases fits.within (List.mem_map_of_mem member) with same | under
  · exact same ▸ up
  · exact up.trans under

/-- A widget is dropped when its parent does not list it, or is dropped itself. -/
theorem missing_iff {u : Widget} (member : u ∈ w.edited) {y : String} :
    Missing w.edited u.id y ↔ y ∉ listedIds u.children := by
  constructor
  · rintro ⟨v, inside, same, absent⟩
    rwa [← List.inj_on_of_nodup_map (nodup_edited w fits.distinct) inside member same]
  · exact fun absent => ⟨u, member, rfl, absent⟩

/-- No widget that the edit changes is dropped by it. -/
theorem kept (wellFormed : WellFormed s) {i : String} (member : i ∈ w.edited.map fun u => u.id) :
    s.Kept (Missing w.edited) i := by
  refine ⟨fits.stored member, ?_⟩
  have each : ∀ u ∈ w.edited, ¬ s.Doomed (Missing w.edited) u.id := by
    refine w.edited_induction (fun doomed => ?_) fun p listed safe c child named doomed => ?_
    · exact wellFormed.not_under_self w.id (fits.under_of_doomed doomed)
    · rcases (doomed_iff_up wellFormed (fits.link listed child named)).mp doomed with drop | above
      · rw [fits.missing_iff listed] at drop
        exact drop (mem_listedIds_of_mem child named)
      · exact safe above
  obtain ⟨u, listed, rfl⟩ := List.mem_map.mp member
  exact each u listed

end Fits

/-! ## The filled tree in the store -/

/-- The rows below an id are what is left of the old ones, and then the new ones. -/
theorem Replaces.childIds (replaces : Replaces supply s s' ws rows) (id : String) :
    s'.childIds id = ((s.childIds id).filter fun i => i ∈ s'.widgetIds) ++
      (childRows rows id).map fun r => r.id := by
  have old : rowIds (((s.widgets.filter fun r => r.id ∈ s'.widgetIds).map fun r =>
      ws.foldl rewrite r).filter fun r => r.parent == some id) =
        (s.childIds id).filter fun i => i ∈ s'.widgetIds := by
    rw [List.filter_map, rowIds, List.map_map, Store.childIds, rowIds, List.filter_map,
      List.filter_filter, List.filter_filter]
    have ids : ((fun r : StoredWidget => r.id) ∘ fun r => ws.foldl rewrite r) = fun r => r.id :=
      funext fun r => foldl_rewrite_id ws r
    rw [ids]
    congr 1
    apply List.filter_congr
    intro r _
    simp [foldl_rewrite_parent, Bool.and_comm]
  have new : rowIds ((rows.map WidgetRow.stored).filter fun r => r.parent == some id) =
      (childRows rows id).map fun r => r.id := by
    rw [List.filter_map, rowIds, List.map_map]
    rfl
  rw [Store.childIds]
  conv_lhs => rw [replaces.widgets]
  rw [List.filter_append, rowIds, List.map_append]
  exact congrArg₂ _ old new

theorem mem_rowIds_widgetRows (wellFormed : WellFormed s) {id x : String}
    (known : id ∈ s.widgetIds) : x ∈ rowIds (s.widgetRows id) ↔ x = id ∨ s.Under x id := by
  obtain ⟨r, stored, rfl⟩ := List.mem_map.mp known
  constructor
  · intro listed
    obtain ⟨y, found, rfl⟩ := List.mem_map.mp listed
    exact (of_mem_widgetRows wellFormed stored found).2.imp_left fun same => congrArg _ same
  · have below : ∀ x p, (x, some p) ∈ parentLinks s.widgets → p ∈ rowIds (s.widgetRows r.id) →
        x ∈ rowIds (s.widgetRows r.id) := by
      intro x p link listed
      obtain ⟨y, inside, rfl, given⟩ := mem_parentLinks.mp link
      obtain ⟨z, found, rfl⟩ := List.mem_map.mp listed
      refine List.mem_map_of_mem (mem_closure_of_follows _ found inside ?_)
      simp [given]
    have top : r.id ∈ rowIds (s.widgetRows r.id) :=
      List.mem_map_of_mem (mem_widgetRows wellFormed stored)
    rintro (rfl | under)
    · exact top
    · induction under using TransGen.head_induction_on with
      | single link => exact below _ _ link top
      | head link _ ih => exact below _ _ link ih

/-- A store after an edit that fits. -/
structure Edited (supply : Nat → String) (s s' : Store) (w : Widget) : Prop where
  fresh : Function.Injective supply
  before : Sound supply (fun _ => True) s
  after : WellFormed s'
  fits : Fits s w
  edits : Edits supply s s' w.edited (Missing w.edited)
  replaces : Replaces supply s s' w.edited (w.addedRows supply s.issued)

theorem exists_edited (fresh : Function.Injective supply) {w : Widget}
    (sound : Sound supply (fun _ => True) s) (fits : Fits s w)
    (limits : WithinLimits s w.edited) :
    ∃ s', outcome (editWidget supply w) s = (.ok (), s') ∧ Edited supply s s' w := by
  obtain ⟨s', success, replaces⟩ := outcome_editWidget fresh w s sound
    (fun i member => fits.kept sound.wellFormed member) (nodup_edited w fits.distinct)
    (fun _ _ missing => missing) limits
  have sound' := (leads_editWidget fresh w s sound (by simp)).store.1 sound
  rw [success] at sound'
  exact ⟨s', success, fresh, sound, sound'.wellFormed, fits,
    edits_editWidget fresh w s s' sound success, replaces⟩

/-- An edit that fits succeeds within the limits of the database, and not else. -/
theorem Fits.exists_ok_iff (fresh : Function.Injective supply) {w : Widget}
    (sound : Sound supply (fun _ => True) s) (fits : Fits s w) :
    (∃ s', outcome (editWidget supply w) s = (.ok (), s')) ↔ WithinLimits s w.edited := by
  constructor
  · rintro ⟨s', success⟩
    exact withinLimits_of_editWidget fresh w s s' sound
      (fun i member => fits.kept sound.wellFormed member) (nodup_edited w fits.distinct)
      (fun _ _ missing => missing) success
  · intro limits
    obtain ⟨s', success, _⟩ := exists_edited fresh sound fits limits
    exact ⟨s', success⟩

namespace Edited

variable {w u : Widget} (edited : Edited supply s s' w)
include edited

theorem unissued : Unissued supply s := edited.before.unissued edited.fresh

theorem new {r : WidgetRow} (member : r ∈ w.addedRows supply s.issued) : r.id ∉ s.widgetIds := by
  obtain ⟨k, later, same⟩ := edited.replaces.new member
  exact same ▸ edited.unissued k later

theorem nodup_ids : (w.fill supply s.issued).ids.Nodup := by
  refine (Widget.perm_ids_fill w s.issued).nodup_iff.mpr (List.nodup_append.mpr ⟨?_, ?_, ?_⟩)
  · exact nodup_edited w edited.fits.distinct
  · rw [Widget.map_id_addedRows]
    exact List.Nodup.map edited.fresh List.nodup_range'
  · rintro i listed _ added rfl
    obtain ⟨r, member, rfl⟩ := List.mem_map.mp added
    exact edited.new member (edited.fits.stored listed)

/-- What is stored among the widgets of the tree was edited. -/
theorem exists_edited_of_stored (member : u ∈ (w.fill supply s.issued).nodes)
    (stored : u.id ∈ s.widgetIds) :
    ∃ v ∈ w.edited, ∃ j, s.issued ≤ j ∧ u = v.fill supply j := by
  rcases w.filled_of_mem_fill s.issued u member with old | ⟨⟨j, later, same⟩, _⟩
  · exact old
  · exact absurd (same ▸ stored) (edited.unissued j later)

theorem mem_children_iff {v : Widget} {j : Nat} (later : s.issued ≤ j) {y : String}
    (stored : y ∈ s.widgetIds) :
    y ∈ (v.fill supply j).children.map (fun c => c.id) ↔ y ∈ listedIds v.children := by
  obtain ⟨id, name, kind, children, props, query⟩ := v
  refine Widget.mem_map_id_fillList children j fun i after same => ?_
  exact edited.unissued i (Nat.le_trans later after) (same ▸ stored)

/-- A stored child in the tree was stored at this place. -/
theorem mem_childIds_iff (member : u ∈ (w.fill supply s.issued).nodes) {y : String}
    (child : y ∈ u.children.map fun c => c.id) : y ∈ s.childIds u.id ↔ y ∈ s.widgetIds := by
  rw [mem_childIds]
  constructor
  · intro link
    obtain ⟨r, inside, is, _⟩ := mem_parentLinks.mp link
    exact List.mem_map.mpr ⟨r, inside, is⟩
  · intro stored
    rcases w.filled_of_mem_fill s.issued u member with ⟨v, inside, j, later, rfl⟩ | ⟨_, new⟩
    · rw [edited.mem_children_iff later stored] at child
      obtain ⟨listed, named⟩ := List.mem_filter.mp child
      obtain ⟨c, below, rfl⟩ := List.mem_map.mp listed
      rw [Widget.id_fill]
      exact edited.fits.link inside below (by simpa using named)
    · obtain ⟨c, below, rfl⟩ := List.mem_map.mp child
      obtain ⟨j, later, same⟩ := new c below
      exact absurd (same ▸ stored) (edited.unissued j later)

/-- Of the stored children of a widget in the tree those are left that the tree has. -/
theorem left_iff (member : u ∈ (w.fill supply s.issued).nodes) {y : String}
    (below : y ∈ s.childIds u.id) :
    y ∈ s'.widgetIds ↔ y ∈ u.children.map fun c => c.id := by
  have link := mem_childIds.mp below
  obtain ⟨r, inside, is, _⟩ := mem_parentLinks.mp link
  have stored : y ∈ s.widgetIds := List.mem_map.mpr ⟨r, inside, is⟩
  obtain ⟨v, listed, j, later, rfl⟩ :=
    edited.exists_edited_of_stored member (edited.before.wellFormed.parent_stored link)
  rw [Widget.id_fill] at link
  have safe := (edited.fits.kept edited.before.wellFormed (List.mem_map_of_mem listed)).2
  rw [edited.edits.survivors y stored, doomed_iff_up edited.before.wellFormed link,
    or_iff_left safe, edited.fits.missing_iff listed, not_not,
    edited.mem_children_iff later stored]

theorem readFrom_rows {u : Widget} (member : u ∈ (w.fill supply s.issued).nodes) :
    u.ReadFrom ((w.fill supply s.issued).rows none) := by
  have whole := Widget.readFrom_rows (w.fill supply s.issued) none [] [] edited.nodup_ids
    (by simp) (by simp [Widget.NoneBelow]) (by simp [Widget.NoneBelow])
  rw [List.nil_append, List.append_nil] at whole
  exact whole.nodes _ u member

theorem addedRows_eq : w.addedRows supply s.issued =
    ((w.fill supply s.issued).rows none).filter fun r => r.id ∉ s.widgetIds :=
  Widget.addedRows_eq_filter w s.issued none
    (fun _ member => edited.fits.stored (List.mem_map_of_mem member)) edited.unissued

theorem map_id_childRows {u : Widget} (member : u ∈ (w.fill supply s.issued).nodes) :
    (childRows (w.addedRows supply s.issued) u.id).map (fun r => r.id) =
      (u.children.map fun c => c.id).filter fun i => i ∉ s.widgetIds := by
  have read := edited.readFrom_rows member
  obtain ⟨id, name, kind, children, props, query⟩ := u
  obtain ⟨_, ids, _⟩ := read
  rw [edited.addedRows_eq, childRows, List.filter_filter]
  simp only [ids, childRows, List.filter_map, List.filter_filter]
  congr 1
  apply List.filter_congr
  intro r _
  exact Bool.and_comm ..

/-- Below each widget of the tree the store has its children, in settled order. -/
theorem childIds_eq (member : u ∈ (w.fill supply s.issued).nodes) :
    (Widget.settle (s.childIds u.id) u.children).map (fun c => c.id) = s'.childIds u.id := by
  rw [Widget.map_id_settle, edited.replaces.childIds, edited.map_id_childRows member]
  congr 1
  · apply List.filter_congr
    intro y below
    exact decide_eq_decide.mpr (edited.left_iff member below).symm
  · apply List.filter_congr
    intro y child
    exact decide_eq_decide.mpr (not_congr (edited.mem_childIds_iff member child))

/-- The store has a row of every widget of the tree. -/
theorem exists_row (member : u ∈ (w.fill supply s.issued).nodes) : ∃ parent,
    WidgetRow.stored ⟨u.id, u.name, u.kind, u.props, u.query, parent⟩ ∈ s'.widgets := by
  by_cases stored : u.id ∈ s.widgetIds
  · obtain ⟨v, listed, j, _, rfl⟩ := edited.exists_edited_of_stored member stored
    rw [Widget.id_fill] at stored
    obtain ⟨r, inside, is⟩ := List.mem_map.mp stored
    obtain ⟨known, safe⟩ := edited.fits.kept edited.before.wellFormed (List.mem_map_of_mem listed)
    have left := (edited.edits.survivors v.id known).mpr safe
    refine ⟨r.parent, ?_⟩
    rw [edited.replaces.widgets]
    refine List.mem_append_left _ (List.mem_map.mpr ⟨r, List.mem_filter.mpr ⟨inside, ?_⟩, ?_⟩)
    · exact decide_eq_true (is ▸ left)
    · rw [foldl_rewrite_of_mem (nodup_edited w edited.fits.distinct) listed is, rewrite, if_pos is]
      cases v
      cases is
      rfl
  · have read := edited.readFrom_rows member
    obtain ⟨id, name, kind, children, props, query⟩ := u
    obtain ⟨⟨parent, row⟩, _⟩ := read
    refine ⟨parent, edited.replaces.stored ?_⟩
    rw [edited.addedRows_eq]
    exact List.mem_filter.mpr ⟨row, decide_eq_true stored⟩

/-! ## Reading the tree -/

theorem mem_ids_of_child {x p : String} (inside : p ∈ (w.fill supply s.issued).ids)
    (link : (x, some p) ∈ parentLinks s'.widgets) : x ∈ (w.fill supply s.issued).ids := by
  rw [← Widget.map_id_nodes] at inside ⊢
  obtain ⟨u, member, rfl⟩ := List.mem_map.mp inside
  rw [← mem_childIds, ← edited.childIds_eq member] at link
  obtain ⟨c, settled, rfl⟩ := List.mem_map.mp link
  exact List.mem_map_of_mem (Widget.mem_nodes_of_child _ u member c (Widget.mem_of_mem_settle settled))

theorem mem_ids_of_under {x i : String} (inside : i ∈ (w.fill supply s.issued).ids)
    (under : s'.Under x i) : x ∈ (w.fill supply s.issued).ids := by
  induction under using TransGen.head_induction_on with
  | single link => exact edited.mem_ids_of_child inside link
  | head link _ ih => exact edited.mem_ids_of_child ih link

omit edited in
theorem root_mem : w.id ∈ (w.fill supply s.issued).ids := by
  have root := Widget.id_mem_ids (w.fill supply s.issued)
  rwa [Widget.id_fill] at root

theorem root_stored : w.id ∈ s'.widgetIds :=
  (edited.edits.survivors w.id edited.fits.root).mpr (edited.fits.kept edited.before.wellFormed
    (List.mem_map_of_mem w.mem_edited_self)).2

omit edited in
theorem readsBack_of_mem (readsBack : ∀ j ∈ w.documents, ReadsBack j) {u : Widget}
    (member : u ∈ (w.fill supply s.issued).nodes) :
    ∀ j ∈ u.props.toList ++ u.query.toList, ReadsBack j := by
  intro j given
  have documents : (w.fill supply s.issued).documents = w.documents :=
    Widget.documents_fill w s.issued
  apply readsBack
  rw [← documents]
  exact Widget.documents_of_mem_nodes _ u member j given

/-- The query for the root meets rows of the tree only, and they can be read. -/
theorem read_widgetRows (readsBack : ∀ j ∈ w.documents, ReadsBack j) {x : StoredWidget}
    (found : x ∈ s'.widgetRows w.id) : x.read = .ok x.row := by
  obtain ⟨r, stored, is⟩ := List.mem_map.mp edited.root_stored
  rw [← is] at found
  obtain ⟨inside, above⟩ := of_mem_widgetRows edited.after stored found
  have listed : x.id ∈ (w.fill supply s.issued).ids := by
    rcases above with rfl | under
    · exact is ▸ root_mem
    · exact edited.mem_ids_of_under (is ▸ root_mem) under
  rw [← Widget.map_id_nodes] at listed
  obtain ⟨u, member, same⟩ := List.mem_map.mp listed
  obtain ⟨parent, row⟩ := edited.exists_row member
  rw [edited.after.row_unique inside row same.symm]
  exact read_stored (readsBack_of_mem readsBack member)

theorem read (readsBack : ∀ j ∈ w.documents, ReadsBack j) :
    s'.widget w.id = .ok ((w.fill supply s.issued).settled s.childIds) := by
  have settled : ((w.fill supply s.issued).settled s.childIds).ReadFrom
      (s'.widgets.map StoredWidget.row) := by
    refine Widget.readFrom_settled _ fun u member => ⟨?_, ?_⟩
    · obtain ⟨parent, row⟩ := edited.exists_row member
      exact ⟨parent, List.mem_map.mpr ⟨_, row, row_stored (readsBack_of_mem readsBack member)⟩⟩
    · rw [edited.childIds_eq member, childIds, childRows, List.filter_map, List.map_map]
      rfl
  have is : ((w.fill supply s.issued).settled s.childIds).id = w.id := by
    rw [Widget.id_settled, Widget.id_fill]
  rw [← is]
  refine widget_of_readFrom edited.after (is ▸ edited.root_stored) (fun x found => ?_) settled
  exact edited.read_widgetRows readsBack (is ▸ found)

/-! ## Outside of the tree -/

theorem mem_subtree_iff {x : String} :
    x ∈ rowIds (s.widgetRows w.id) ↔ x = w.id ∨ s.Under x w.id :=
  mem_rowIds_widgetRows edited.before.wellFormed edited.fits.root

/-- What was stored outside of the old tree is what is stored outside of the new one. -/
theorem outside_iff {x : String} (stored : x ∈ s.widgetIds) :
    x ∉ (w.fill supply s.issued).ids ∧ x ∈ s'.widgetIds ↔ x ∉ rowIds (s.widgetRows w.id) := by
  rw [edited.mem_subtree_iff]
  constructor
  · rintro ⟨apart, left⟩ (rfl | under)
    · exact apart root_mem
    · rw [← edited.edits.under_iff edited.unissued edited.before.wellFormed edited.after stored
        left] at under
      exact apart (edited.mem_ids_of_under root_mem under)
  · intro outside
    constructor
    · intro inside
      rw [(Widget.perm_ids_fill w s.issued).mem_iff, List.mem_append] at inside
      rcases inside with listed | added
      · exact outside (edited.fits.within listed)
      · obtain ⟨r, member, rfl⟩ := List.mem_map.mp added
        exact edited.new member stored
    · exact (edited.edits.survivors x stored).mpr fun doomed =>
        outside (Or.inr (edited.fits.under_of_doomed doomed))

theorem outside :
    (s'.widgets.filter fun r => r.id ∉ (w.fill supply s.issued).ids) =
      s.widgets.filter fun r => r.id ∉ rowIds (s.widgetRows w.id) := by
  have new : (((w.addedRows supply s.issued).map WidgetRow.stored).filter fun r =>
      r.id ∉ (w.fill supply s.issued).ids) = [] := by
    rw [List.filter_eq_nil_iff]
    intro x member
    obtain ⟨r, inside, rfl⟩ := List.mem_map.mp member
    have listed : r.stored.id ∈ (w.fill supply s.issued).ids := by
      rw [(Widget.perm_ids_fill w s.issued).mem_iff]
      exact List.mem_append_right _ (List.mem_map_of_mem inside)
    simpa using listed
  have kept : (s.widgets.filter fun r => decide (r.id ∉ (w.fill supply s.issued).ids) &&
      decide (r.id ∈ s'.widgetIds)) =
        s.widgets.filter fun r => r.id ∉ rowIds (s.widgetRows w.id) := by
    apply List.filter_congr
    intro r member
    rw [← Bool.decide_and]
    exact decide_eq_decide.mpr (edited.outside_iff (List.mem_map_of_mem member))
  have ids : ((fun r : StoredWidget => decide (r.id ∉ (w.fill supply s.issued).ids)) ∘
      fun r => w.edited.foldl rewrite r) = fun r => decide (r.id ∉ (w.fill supply s.issued).ids) :=
    funext fun r => by simp only [Function.comp_apply, foldl_rewrite_id]
  conv_lhs => rw [edited.replaces.widgets]
  rw [List.filter_append, new, List.append_nil, List.filter_map, List.filter_filter, ids, kept]
  -- Of these rows none is among those that the edit rewrites.
  refine (List.map_congr_left fun r member => ?_).trans (List.map_id _)
  refine foldl_rewrite_of_apart fun listed => ?_
  have apart := of_decide_eq_true (List.mem_filter.mp member).2
  rw [edited.mem_subtree_iff] at apart
  exact apart (edited.fits.within listed)

end Edited

/-- The page with its columns the other way round. -/
def turnedPage : Widget :=
  { id := "a", name := "page", kind := "row"
    children := [{ id := "aaa", name := "right", kind := "column"
                   children := [{ id := "aaaa", name := "chart", kind := "bar" }] },
      { id := "aa", name := "left", kind := "column" }] }

/-- The page as it is read then: its columns stand as they are stored. -/
def turnedBack : Widget :=
  { id := "a", name := "page", kind := "row"
    children := [{ id := "aa", name := "left", kind := "column" },
      { id := "aaa", name := "right", kind := "column"
        children := [{ id := "aaaa", name := "chart", kind := "bar" }] }] }

theorem widget_turnedPage :
    (run letters (pageCalls ++ [.editWidget turnedPage])).widget "a" = .ok turnedBack := by
  have rows : (run letters (pageCalls ++ [.editWidget turnedPage])).widgets =
      [⟨"a", "page", "row", none, none, none⟩, ⟨"aa", "left", "column", none, none, some "a"⟩,
        ⟨"aaa", "right", "column", none, none, some "a"⟩,
        ⟨"aaaa", "chart", "bar", none, none, some "aaa"⟩] := by
    decide +kernel
  have wellFormed := wellFormed_run letters_injective (pageCalls ++ [.editWidget turnedPage])
  have stored : "a" ∈ (run letters (pageCalls ++ [.editWidget turnedPage])).widgetIds := by
    simp [widgetIds, rowIds, rows]
  have bare : ∀ r ∈ (run letters (pageCalls ++ [.editWidget turnedPage])).widgets, ∀ text,
      r.props = some text ∨ r.query = some text → Reprints text := by
    simp [rows]
  refine widget_of_readFrom (w := turnedBack) wellFormed stored
    (fun _ found => read_of_reprints wellFormed bare stored found) ?_
  simp [turnedBack, rows, StoredWidget.row, Widget.ReadFrom, Widget.ReadFromAll, childRows]

theorem widgets_documentPage (j : Json) :
    (run letters (pageCalls ++ [.editWidget (documentPage j)])).widgets =
      [⟨"a", "page", "row", some j.compact, none, none⟩] := by
  with_unfolding_all rfl

theorem outcome_documentPage (j : Json) :
    (outcome (editWidget letters (documentPage j)) (run letters pageCalls)).1 = .ok () := by
  with_unfolding_all rfl

theorem fits_wideWidget (n : Nat) :
    Fits (run letters [.createWidget (wideWidget "" 0)]) (wideWidget "a" n) := by
  have bare : ∀ u ∈ (wideWidget "a" n).nodes, ∀ c ∈ u.children, c = { name := "", kind := "" } := by
    rw [nodes_wideWidget]
    intro u member c child
    rcases List.mem_cons.mp member with rfl | member
    · exact List.eq_of_mem_replicate child
    · cases List.eq_of_mem_replicate member
      cases child
  constructor
  · rw [nodes_wideWidget, listedIds, List.map_cons, List.map_replicate, List.filter_cons_of_pos rfl,
      List.filter_replicate_of_neg (by simp)]
    exact List.nodup_singleton _
  · change "a" ∈ (run letters [.createWidget (wideWidget "" 0)]).widgetIds
    decide
  · intro u member c child named
    exact absurd (congrArg Widget.id (bare u member c child)) named
  · intro u member c child _ x inside
    rw [bare u member c child] at inside
    cases List.mem_singleton.mp inside
    rfl

/-- A widget cannot keep as many children as a statement takes parameters. -/
theorem not_exists_edited_wide :
    ¬ ∃ s', outcome (editWidget letters (wideWidget "a" 32766))
      (run letters [.createWidget (wideWidget "" 0)]) = (.ok (), s') := by
  have sound : Sound letters (fun _ => True) (run letters [.createWidget (wideWidget "" 0)]) :=
    sound_run letters_injective _ fun _ _ _ _ => trivial
  rw [(fits_wideWidget 32766).exists_ok_iff letters_injective sound]
  intro limits
  have few := limits.listed _ (Widget.mem_edited_self _)
  rw [wideWidget, List.length_replicate] at few
  exact Nat.lt_irrefl _ few

theorem fits_deepWidget (n : Nat) :
    Fits (run letters [.createWidget (deepWidget n)]) (wideWidget "a" 0) := by
  have root := id_mem_extend {} ((deepWidget n).renew letters 0)
  rw [← run_createWidget letters_injective, Widget.id_renew] at root
  have bare : ∀ u ∈ (wideWidget "a" 0).nodes, u.children = [] := by decide
  refine ⟨by decide, root, fun u member c child => ?_, fun u member c child => ?_⟩
  · rw [bare u member] at child
    cases child
  · rw [bare u member] at child
    cases child

/-- Nor can it drop a child in which widgets lie on too many levels. -/
theorem not_exists_edited_deep :
    ¬ ∃ s', outcome (editWidget letters (wideWidget "a" 0))
      (run letters [.createWidget (deepWidget 1001)]) = (.ok (), s') := by
  have sound : Sound letters (fun _ => True) (run letters [.createWidget (deepWidget 1001)]) :=
    sound_run letters_injective _ fun _ _ _ _ => trivial
  rw [(fits_deepWidget 1001).exists_ok_iff letters_injective sound]
  intro limits
  have chain := chain_deepWidget letters 1001 0 none
  rw [List.range'_succ, List.range'_succ, List.map_cons, List.map_cons] at chain
  have few := limits.dropped "a" "aa" ((List.range' 2 1000).map letters)
    ⟨_, Widget.mem_edited_self _, rfl, List.not_mem_nil⟩ (by
      rw [run_createWidget letters_injective]
      exact chain)
  rw [List.length_cons, List.length_map, List.length_range'] at few
  exact absurd few (by decide)

end QueryBoard.Store
