import QueryBoard.Proofs.Store.Lookup

/-!
# What is created is read back

Creating a widget puts the rows of the widget and of all that is in it behind those of the store,
each before the rows below it, under ids that were never given before.  From these rows the widget
is read back with the new ids, whatever else is stored.
-/

set_option autoImplicit false

namespace QueryBoard

/-- Printing a document and reading the text gives the document. -/
def ReadsBack (j : Json) : Prop := (Json.parse? j.compact).map Json.dedup = some j

/-- The row with its documents as texts. -/
def WidgetRow.stored (r : WidgetRow) : StoredWidget where
  id := r.id
  name := r.name
  kind := r.kind
  props := r.props.map Json.compact
  query := r.query.map Json.compact
  parent := r.parent

namespace Widget

mutual

/-- The widget with new ids, those of a supply from some number on. -/
def renew (supply : Nat → String) (k : Nat) : Widget → Widget
  | ⟨_, name, kind, children, props, query⟩ =>
    ⟨supply k, name, kind, renewList supply (k + 1) children, props, query⟩

def renewList (supply : Nat → String) (k : Nat) : List Widget → List Widget
  | [] => []
  | w :: rest => w.renew supply k :: renewList supply (k + w.count) rest

end

mutual

/-- The widget with no ids at all. -/
def anonymous : Widget → Widget
  | ⟨_, name, kind, children, props, query⟩ =>
    ⟨"", name, kind, anonymousList children, props, query⟩

def anonymousList : List Widget → List Widget
  | [] => []
  | w :: rest => w.anonymous :: anonymousList rest

end

mutual

/-- The rows of a widget and of all that is in it. -/
def rows (parent : Option String) : Widget → List WidgetRow
  | ⟨id, name, kind, children, props, query⟩ =>
    ⟨id, name, kind, props, query, parent⟩ :: rowsList id children

def rowsList (parent : String) : List Widget → List WidgetRow
  | [] => []
  | w :: rest => w.rows (some parent) ++ rowsList parent rest

end

/-! ## New ids -/

section

variable {supply : Nat → String}

theorem id_mem_ids (w : Widget) : w.id ∈ w.ids := by
  cases w
  simp [ids]

theorem id_renew (k : Nat) (w : Widget) : (w.renew supply k).id = supply k := by
  cases w
  rfl

theorem length_renewList : (ws : List Widget) → (k : Nat) →
    (renewList supply k ws).length = ws.length
  | [], _ => rfl
  | w :: rest, k => by
      rw [renewList, List.length_cons, length_renewList rest, List.length_cons]

mutual

theorem ids_renew : (w : Widget) → (k : Nat) →
    (w.renew supply k).ids = (List.range' k w.count).map supply
  | ⟨_, _, _, children, _, _⟩, k => by
      rw [renew, ids, count, idsList_renewList children (k + 1), List.range'_succ, List.map_cons]

theorem idsList_renewList : (ws : List Widget) → (k : Nat) →
    idsList (renewList supply k ws) = (List.range' k (countList ws)).map supply
  | [], _ => rfl
  | w :: rest, k => by
      have split : List.range' k (w.count + countList rest) =
          List.range' k w.count ++ List.range' (k + w.count) (countList rest) := by
        rw [List.range'_append_1]
      rw [renewList, idsList, countList, split, List.map_append, ids_renew w k,
        idsList_renewList rest (k + w.count)]

end

mutual

theorem anonymous_renew : (w : Widget) → (k : Nat) → (w.renew supply k).anonymous = w.anonymous
  | ⟨_, _, _, children, _, _⟩, k => by
      rw [renew, anonymous, anonymous, anonymousList_renewList children (k + 1)]

theorem anonymousList_renewList : (ws : List Widget) → (k : Nat) →
    anonymousList (renewList supply k ws) = anonymousList ws
  | [], _ => rfl
  | w :: rest, k => by
      rw [renewList, anonymousList, anonymousList, anonymous_renew w k,
        anonymousList_renewList rest (k + w.count)]

end

mutual

theorem documents_renew : (w : Widget) → (k : Nat) → (w.renew supply k).documents = w.documents
  | ⟨_, _, _, children, _, _⟩, k => by
      rw [renew, documents, documents, documentsList_renewList children (k + 1)]

theorem documentsList_renewList : (ws : List Widget) → (k : Nat) →
    documentsList (renewList supply k ws) = documentsList ws
  | [], _ => rfl
  | w :: rest, k => by
      rw [renewList, documentsList, documentsList, documents_renew w k,
        documentsList_renewList rest (k + w.count)]

end

end

/-! ## Rows of a widget -/

mutual

theorem map_id_rows : (w : Widget) → (parent : Option String) →
    (w.rows parent).map (fun r => r.id) = w.ids
  | ⟨id, _, _, children, _, _⟩, _ => by
      rw [rows, ids, List.map_cons, map_id_rowsList children id]

theorem map_id_rowsList : (ws : List Widget) → (parent : String) →
    (rowsList parent ws).map (fun r => r.id) = idsList ws
  | [], _ => rfl
  | w :: rest, parent => by
      rw [rowsList, idsList, List.map_append, map_id_rows w (some parent),
        map_id_rowsList rest parent]

end

mutual

/-- Only the first row of a widget names what is not in it. -/
theorem parent_of_mem_rows : (w : Widget) → (parent : Option String) → ∀ r ∈ w.rows parent,
    r.parent = parent ∨ ∃ p ∈ w.ids, r.parent = some p
  | ⟨id, _, _, children, _, _⟩, parent, r, member => by
      rw [rows, List.mem_cons] at member
      rw [ids]
      rcases member with rfl | member
      · exact Or.inl rfl
      · rcases parent_of_mem_rowsList children id r member with given | ⟨p, inside, given⟩
        · exact Or.inr ⟨id, List.mem_cons_self, given⟩
        · exact Or.inr ⟨p, List.mem_cons_of_mem id inside, given⟩

theorem parent_of_mem_rowsList : (ws : List Widget) → (parent : String) →
    ∀ r ∈ rowsList parent ws, r.parent = some parent ∨ ∃ p ∈ idsList ws, r.parent = some p
  | [], _, r, member => by cases member
  | w :: rest, parent, r, member => by
      rw [rowsList, List.mem_append] at member
      rw [idsList]
      rcases member with member | member
      · rcases parent_of_mem_rows w (some parent) r member with given | ⟨p, inside, given⟩
        · exact Or.inl given
        · exact Or.inr ⟨p, List.mem_append_left _ inside, given⟩
      · rcases parent_of_mem_rowsList rest parent r member with given | ⟨p, inside, given⟩
        · exact Or.inl given
        · exact Or.inr ⟨p, List.mem_append_right _ inside, given⟩

end

mutual

theorem documents_of_mem_rows : (w : Widget) → (parent : Option String) → ∀ r ∈ w.rows parent,
    ∀ j ∈ r.props.toList ++ r.query.toList, j ∈ w.documents
  | ⟨id, _, _, children, _, _⟩, parent, r, member, j, given => by
      rw [rows, List.mem_cons] at member
      rw [documents]
      rcases member with rfl | member
      · exact List.mem_append_left _ given
      · exact List.mem_append_right _ (documents_of_mem_rowsList children id r member j given)

theorem documents_of_mem_rowsList : (ws : List Widget) → (parent : String) →
    ∀ r ∈ rowsList parent ws, ∀ j ∈ r.props.toList ++ r.query.toList, j ∈ documentsList ws
  | [], _, r, member, _, _ => by cases member
  | w :: rest, parent, r, member, j, given => by
      rw [rowsList, List.mem_append] at member
      rw [documentsList]
      rcases member with member | member
      · exact List.mem_append_left _ (documents_of_mem_rows w (some parent) r member j given)
      · exact List.mem_append_right _ (documents_of_mem_rowsList rest parent r member j given)

end

/-! ## Reading rows of a widget -/

/-- Whether rows are those of no child of some widgets. -/
def NoneBelow (ids : List String) (rows : List WidgetRow) : Prop :=
  ∀ r ∈ rows, ∀ p ∈ ids, r.parent ≠ some p

theorem NoneBelow.append {ids : List String} {rows rows' : List WidgetRow}
    (first : NoneBelow ids rows) (second : NoneBelow ids rows') :
    NoneBelow ids (rows ++ rows') := by
  intro r member p listed
  rcases List.mem_append.mp member with member | member
  · exact first r member p listed
  · exact second r member p listed

theorem NoneBelow.subset {ids ids' : List String} {rows : List WidgetRow}
    (none : NoneBelow ids rows) (part : ids' ⊆ ids) : NoneBelow ids' rows :=
  fun r member p listed => none r member p (part listed)

theorem NoneBelow.childRows {ids : List String} {rows : List WidgetRow}
    (none : NoneBelow ids rows) {id : String} (member : id ∈ ids) : childRows rows id = [] := by
  rw [QueryBoard.childRows, List.filter_eq_nil_iff]
  intro r inside
  simpa using none r inside id member

theorem noneBelow_rows {w : Widget} {parent : Option String} {ids : List String}
    (apart : ∀ p ∈ ids, parent ≠ some p ∧ p ∉ w.ids) : NoneBelow ids (w.rows parent) := by
  intro r member p listed same
  rcases parent_of_mem_rows w parent r member with given | ⟨q, inside, given⟩
  · exact (apart p listed).1 (given ▸ same)
  · rw [given, Option.some.injEq] at same
    exact (apart p listed).2 (same ▸ inside)

theorem noneBelow_rowsList {ws : List Widget} {parent : String} {ids : List String}
    (apart : ∀ p ∈ ids, p ≠ parent ∧ p ∉ idsList ws) : NoneBelow ids (rowsList parent ws) := by
  intro r member p listed same
  rcases parent_of_mem_rowsList ws parent r member with given | ⟨q, inside, given⟩
  · rw [given, Option.some.injEq] at same
    exact (apart p listed).1 same.symm
  · rw [given, Option.some.injEq] at same
    exact (apart p listed).2 (same ▸ inside)

theorem childRows_append (rows rows' : List WidgetRow) (id : String) :
    QueryBoard.childRows (rows ++ rows') id =
      QueryBoard.childRows rows id ++ QueryBoard.childRows rows' id :=
  List.filter_append ..

theorem map_id_childRows_rowsList {ws : List Widget} {parent : String}
    (apart : parent ∉ idsList ws) :
    (childRows (rowsList parent ws) parent).map (fun r => r.id) = ws.map fun w => w.id := by
  induction ws with
  | nil => rfl
  | cons w rest ih =>
      obtain ⟨id, name, kind, children, props, query⟩ := w
      rw [idsList, ids, List.mem_append, List.mem_cons, not_or, not_or] at apart
      obtain ⟨⟨other, inner⟩, later⟩ := apart
      have none : NoneBelow [parent] (rowsList id children) :=
        noneBelow_rowsList (by simp [other, inner])
      have first : childRows (rows (some parent) ⟨id, name, kind, children, props, query⟩) parent =
          [⟨id, name, kind, props, query, some parent⟩] := by
        have below := none.childRows (List.mem_singleton_self parent)
        rw [childRows] at below
        rw [rows, childRows, List.filter_cons_of_pos (by simp), below]
      rw [rowsList, childRows_append, List.map_append, first, ih later]
      rfl

mutual

/-- A widget is read back from its rows, wherever they stand, if no other row is below it. -/
theorem readFrom_rows : (w : Widget) → (parent : Option String) → (before after : List WidgetRow) →
    w.ids.Nodup → (∀ p ∈ w.ids, parent ≠ some p) → NoneBelow w.ids before →
    NoneBelow w.ids after → w.ReadFrom (before ++ w.rows parent ++ after)
  | ⟨id, name, kind, children, props, query⟩, parent, before, after, distinct, outside, early,
    late => by
      rw [ids] at distinct outside early late
      obtain ⟨apart, distinct⟩ := List.nodup_cons.mp distinct
      have own : childRows [⟨id, name, kind, props, query, parent⟩] id = [] := by
        simp [childRows, outside id List.mem_cons_self]
      have split : before ++ rows parent ⟨id, name, kind, children, props, query⟩ ++ after =
          (before ++ [⟨id, name, kind, props, query, parent⟩]) ++ rowsList id children ++
            after := by
        simp [rows]
      refine ⟨⟨parent, by simp [rows]⟩, ?_, ?_⟩
      · rw [split, childRows_append, childRows_append, childRows_append,
          early.childRows List.mem_cons_self, late.childRows List.mem_cons_self, own,
          List.append_nil, List.append_nil, List.nil_append, map_id_childRows_rowsList apart]
      · -- The widget's own row joins the rows before its children.
        have top : NoneBelow (idsList children) [⟨id, name, kind, props, query, parent⟩] := by
          intro r member p listed
          rw [List.mem_singleton.mp member]
          exact outside p (List.mem_cons_of_mem id listed)
        rw [split]
        exact readFromAll_rowsList children id _ after distinct apart
          ((early.subset (List.subset_cons_self _ _)).append top)
          (late.subset (List.subset_cons_self _ _))

theorem readFromAll_rowsList : (ws : List Widget) → (parent : String) →
    (before after : List WidgetRow) → (idsList ws).Nodup → parent ∉ idsList ws →
    NoneBelow (idsList ws) before → NoneBelow (idsList ws) after →
    ReadFromAll (before ++ rowsList parent ws ++ after) ws
  | [], _, _, _, _, _, _, _ => trivial
  | w :: rest, parent, before, after, distinct, outside, early, late => by
      rw [idsList] at distinct outside early late
      obtain ⟨first, others, disjoint⟩ := List.nodup_append.mp distinct
      rw [List.mem_append, not_or] at outside
      refine ⟨?_, ?_⟩
      · have split : before ++ rowsList parent (w :: rest) ++ after =
            before ++ w.rows (some parent) ++ (rowsList parent rest ++ after) := by
          simp [rowsList]
        have siblings : NoneBelow w.ids (rowsList parent rest) := by
          refine noneBelow_rowsList fun q listed => ⟨?_, ?_⟩
          · rintro rfl
            exact outside.1 listed
          · exact fun again => disjoint q listed q again rfl
        rw [split]
        refine readFrom_rows w (some parent) before _ first ?_
          (early.subset (List.subset_append_left _ _))
          (siblings.append (late.subset (List.subset_append_left _ _)))
        rintro p listed same
        exact outside.1 (Option.some.inj same ▸ listed)
      · have split : before ++ rowsList parent (w :: rest) ++ after =
            before ++ w.rows (some parent) ++ rowsList parent rest ++ after := by
          simp [rowsList]
        have siblings : NoneBelow (idsList rest) (w.rows (some parent)) := by
          refine noneBelow_rows fun q listed => ⟨?_, fun again => disjoint q again q listed rfl⟩
          intro same
          exact outside.2 (Option.some.inj same ▸ listed)
        rw [split]
        exact readFromAll_rowsList rest parent _ after others outside.2
          ((early.subset (List.subset_append_right _ _)).append siblings)
          (late.subset (List.subset_append_right _ _))

end

end Widget

namespace Store

variable {supply : Nat → String} {s : Store}

/-- The store with more rows for widgets, for each of which an id was issued. -/
def extend (s : Store) (rows : List WidgetRow) : Store :=
  { s with
    widgets := s.widgets ++ rows.map WidgetRow.stored
    issued := s.issued + rows.length }

theorem extend_nil (s : Store) : s.extend [] = s := by
  simp [extend]

theorem extend_append (s : Store) (rows rows' : List WidgetRow) :
    s.extend (rows ++ rows') = (s.extend rows).extend rows' := by
  simp [extend, Nat.add_assoc]

theorem widgetIds_extend (s : Store) (rows : List WidgetRow) :
    (s.extend rows).widgetIds = s.widgetIds ++ rows.map fun r => r.id := by
  rw [widgetIds, extend, rowIds, List.map_append, List.map_map]
  rfl

/-- Whether no id that is still to be issued is stored. -/
def Unissued (supply : Nat → String) (s : Store) : Prop :=
  ∀ k, s.issued ≤ k → supply k ∉ s.widgetIds

theorem Sound.unissued {texts : String → Prop} (fresh : Function.Injective supply)
    (sound : Sound supply texts s) : Unissued supply s := by
  intro k later stored
  obtain ⟨j, before, same⟩ := sound.issued _ stored
  have equal : k = j := fresh same
  omega

theorem Unissued.extend (fresh : Function.Injective supply) (unissued : Unissued supply s)
    {rows : List WidgetRow}
    (ids : (rows.map fun r => r.id) = (List.range' s.issued rows.length).map supply) :
    Unissued supply (s.extend rows) := by
  intro k later stored
  have after : s.issued + rows.length ≤ k := later
  rw [widgetIds_extend, List.mem_append] at stored
  rcases stored with stored | given
  · exact unissued k (by omega) stored
  · rw [ids] at given
    obtain ⟨j, inside, same⟩ := List.mem_map.mp given
    have equal : j = k := fresh same
    rw [List.mem_range'_1] at inside
    omega

theorem addWidget_eq {row : WidgetRow} (new : row.id ∉ s.widgetIds)
    (known : ∀ p, row.parent = some p → p ∈ s.widgetIds) :
    s.addWidget row.stored = .ok { s with widgets := s.widgets ++ [row.stored] } := by
  have absent : ¬ s.hasWidget row.stored.id = true := fun stored => new (hasWidget_iff.mp stored)
  have above : (row.stored.parent.all fun p => p == row.stored.id || s.hasWidget p) = true := by
    rw [Option.all_eq_true]
    intro p given
    rw [Bool.or_eq_true]
    exact Or.inr (hasWidget_iff.mpr (known p given))
  rw [addWidget, if_neg absent, if_pos above]

theorem length_rows_renew (w : Widget) (k : Nat) (parent : Option String) :
    ((w.renew supply k).rows parent).length = w.count := by
  have ids := congrArg List.length (Widget.map_id_rows (w.renew supply k) parent)
  rw [Widget.ids_renew] at ids
  simpa using ids

theorem map_id_rows_renew (w : Widget) (k : Nat) (parent : Option String) :
    (((w.renew supply k).rows parent).map fun r => r.id) =
      (List.range' k ((w.renew supply k).rows parent).length).map supply := by
  rw [length_rows_renew, Widget.map_id_rows, Widget.ids_renew]

mutual

/-- Inserting a widget adds its rows under new ids, and does nothing else. -/
theorem outcome_insertWidget (fresh : Function.Injective supply) :
    (w : Widget) → (parent : Option String) → (s : Store) → Unissued supply s →
    (∀ p, parent = some p → p ∈ s.widgetIds) →
    outcome (insertWidget supply parent w) s =
      (.ok (supply s.issued), s.extend ((w.renew supply s.issued).rows parent))
  | ⟨_, name, kind, children, props, query⟩, parent, s, unissued, known => by
      have issued : outcome (issue supply) s =
          (.ok (supply s.issued), { s with issued := s.issued + 1 }) := rfl
      have new := unissued s.issued (Nat.le_refl _)
      have added : outcome (attempt (·.addWidget (WidgetRow.stored
          ⟨supply s.issued, name, kind, props, query, parent⟩))) { s with issued := s.issued + 1 } =
            (.ok (), s.extend [⟨supply s.issued, name, kind, props, query, parent⟩]) := by
        rw [outcome_attempt, addWidget_eq new known]
        rfl
      have below := outcome_insertChildren fresh children (supply s.issued)
        (s.extend [⟨supply s.issued, name, kind, props, query, parent⟩]) (unissued.extend fresh rfl)
        (by simp [widgetIds_extend])
      rw [insertWidget, outcome_bind, issued]
      change outcome (attempt (·.addWidget (WidgetRow.stored
        ⟨supply s.issued, name, kind, props, query, parent⟩)) >>= fun _ => _) _ = _
      rw [outcome_bind, added]
      change outcome (insertChildren supply (supply s.issued) children >>= fun _ => _) _ = _
      rw [outcome_bind, below, ← extend_append]
      rfl

theorem outcome_insertChildren (fresh : Function.Injective supply) :
    (ws : List Widget) → (parent : String) → (s : Store) → Unissued supply s →
    parent ∈ s.widgetIds →
    outcome (insertChildren supply parent ws) s =
      (.ok (), s.extend (Widget.rowsList parent (Widget.renewList supply s.issued ws)))
  | [], parent, s, _, _ => by
      rw [insertChildren, Widget.renewList, Widget.rowsList, extend_nil]
      rfl
  | w :: rest, parent, s, unissued, known => by
      have first := outcome_insertWidget fresh w (some parent) s unissued
        fun p same => Option.some.inj same ▸ known
      have more := outcome_insertChildren fresh rest parent
        (s.extend ((w.renew supply s.issued).rows (some parent)))
        (unissued.extend fresh (map_id_rows_renew w _ _))
        (by rw [widgetIds_extend]; exact List.mem_append_left _ known)
      have issued : (s.extend ((w.renew supply s.issued).rows (some parent))).issued =
          s.issued + w.count := by
        rw [extend, length_rows_renew]
      rw [issued] at more
      rw [insertChildren, outcome_bind, first]
      change outcome (insertChildren supply parent rest) _ = _
      rw [more, ← extend_append]
      rfl

end

/-! ## Reading back -/

theorem row_stored {r : WidgetRow}
    (readsBack : ∀ j ∈ r.props.toList ++ r.query.toList, ReadsBack j) : r.stored.row = r := by
  have document : ∀ d : Option Json, (∀ j, d = some j → ReadsBack j) →
      ((d.map Json.compact).bind fun text => (Json.parse? text).map Json.dedup) = d := by
    intro d reads
    cases d with
    | none => rfl
    | some j => exact reads j rfl
  have props := document r.props fun j given => readsBack j (by simp [given])
  have query := document r.query fun j given => readsBack j (by simp [given])
  cases r
  simp only [WidgetRow.stored, StoredWidget.row] at props query ⊢
  rw [props, query]

theorem read_stored {r : WidgetRow}
    (readsBack : ∀ j ∈ r.props.toList ++ r.query.toList, ReadsBack j) :
    r.stored.read = .ok r.stored.row := by
  refine StoredWidget.read_eq fun text given => ?_
  have document : ∃ j ∈ r.props.toList ++ r.query.toList, j.compact = text := by
    rcases given with given | given
    · obtain ⟨j, present, same⟩ := Option.map_eq_some_iff.mp given
      exact ⟨j, by simp [present], same⟩
    · obtain ⟨j, present, same⟩ := Option.map_eq_some_iff.mp given
      exact ⟨j, by simp [present], same⟩
  obtain ⟨j, member, rfl⟩ := document
  obtain ⟨j', parsed, _⟩ := Option.map_eq_some_iff.mp (readsBack j member)
  exact Option.isSome_iff_exists.mpr ⟨j', parsed⟩

/-- What was stored before is below no row that is new. -/
theorem stored_of_under {rows : List WidgetRow} (wellFormed : WellFormed s)
    (after : WellFormed (s.extend rows)) {id above : String}
    (under : (s.extend rows).Under id above)
    (stored : id ∈ s.widgetIds) : above ∈ s.widgetIds := by
  have parent : ∀ i p, (i, some p) ∈ parentLinks (s.extend rows).widgets → i ∈ s.widgetIds →
      p ∈ s.widgetIds := by
    intro i p link stored
    obtain ⟨r, inside, rfl⟩ := List.mem_map.mp stored
    have old : (r.id, r.parent) ∈ parentLinks (s.extend rows).widgets :=
      mem_parentLinks.mpr ⟨r, List.mem_append_left _ inside, rfl, rfl⟩
    exact wellFormed.parents r inside p (after.link_unique _ _ _ old link)
  induction under with
  | single link => exact parent _ _ link stored
  | tail _ link ih => exact parent _ _ link ih

theorem map_row_extend {rows : List WidgetRow}
    (readsBack : ∀ r ∈ rows, ∀ j ∈ r.props.toList ++ r.query.toList, ReadsBack j) :
    (s.extend rows).widgets.map StoredWidget.row = s.widgets.map StoredWidget.row ++ rows := by
  have new : (rows.map WidgetRow.stored).map StoredWidget.row = rows := by
    rw [List.map_map]
    exact (List.map_congr_left fun r member => row_stored (readsBack r member)).trans
      (List.map_id rows)
  rw [extend, List.map_append, new]

theorem id_mem_extend (s : Store) (w : Widget) : w.id ∈ (s.extend (w.rows none)).widgetIds := by
  rw [widgetIds_extend, Widget.map_id_rows]
  exact List.mem_append_right _ (Widget.id_mem_ids w)

section

variable (wellFormed : WellFormed s) {w : Widget} (after : WellFormed (s.extend (w.rows none)))
variable (new : ∀ i ∈ w.ids, i ∉ s.widgetIds) (readsBack : ∀ j ∈ w.documents, ReadsBack j)
include wellFormed after new readsBack

/-- A query for the new widget meets none of the old rows. -/
theorem read_widgetRows_extend {x : StoredWidget}
    (found : x ∈ (s.extend (w.rows none)).widgetRows w.id) : x.read = .ok x.row := by
  obtain ⟨r, stored, top⟩ := List.mem_map.mp (id_mem_extend s w)
  rw [← top] at found
  obtain ⟨inside, above⟩ := of_mem_widgetRows after stored found
  rcases List.mem_append.mp inside with old | row
  · have above : r.id ∈ s.widgetIds := by
      rcases above with rfl | above
      · exact List.mem_map_of_mem old
      · exact stored_of_under wellFormed after above (List.mem_map_of_mem old)
    exact absurd (top ▸ above) (new _ (Widget.id_mem_ids w))
  · obtain ⟨q, member, rfl⟩ := List.mem_map.mp row
    exact read_stored fun j given =>
      readsBack j (Widget.documents_of_mem_rows w none q member j given)

theorem readFrom_extend : w.ReadFrom ((s.extend (w.rows none)).widgets.map StoredWidget.row) := by
  rw [map_row_extend fun r member j given =>
    readsBack j (Widget.documents_of_mem_rows w none r member j given), ← List.append_nil (_ ++ _)]
  refine Widget.readFrom_rows w none _ [] ?_ (by simp) ?_ (by simp [Widget.NoneBelow])
  · have distinct := after.widgets
    rw [widgetIds_extend, Widget.map_id_rows] at distinct
    exact (List.nodup_append.mp distinct).2.1
  · intro r member p inside given
    obtain ⟨r', stored, rfl⟩ := List.mem_map.mp member
    exact new p inside (wellFormed.parents r' stored p given)

theorem widget_extend : (s.extend (w.rows none)).widget w.id = .ok w :=
  widget_of_readFrom after (id_mem_extend s w)
    (fun _ found => read_widgetRows_extend wellFormed after new readsBack found)
    (readFrom_extend wellFormed after new readsBack)

end

theorem not_issued_of_mem_renew (fresh : Function.Injective supply) {w : Widget} {i : String}
    (member : i ∈ (w.renew supply s.issued).ids) : ¬ Issued supply s i := by
  rw [Widget.ids_renew] at member
  obtain ⟨k, inside, rfl⟩ := List.mem_map.mp member
  rw [List.mem_range'_1] at inside
  rintro ⟨j, before, same⟩
  have equal : k = j := fresh same
  omega

theorem Sound.wellFormed_extend (fresh : Function.Injective supply)
    (sound : Sound supply (fun _ => True) s) (w : Widget) :
    WellFormed (s.extend ((w.renew supply s.issued).rows none)) := by
  have leads : Leads (Keeps supply fun _ => True) (insertWidget supply none w) s
      fun id s' => Issued supply s' id := leads_insertWidget fresh w none s (by simp) (by simp)
  have kept := (leads.store.1 sound).wellFormed
  rwa [outcome_insertWidget fresh w none s (sound.unissued fresh) (by simp)] at kept

theorem run_createWidget (fresh : Function.Injective supply) (w : Widget) :
    run supply [.createWidget w] = Store.extend {} ((w.renew supply 0).rows none) :=
  congrArg Prod.snd (outcome_insertWidget fresh w none {} (by simp [Unissued, widgetIds, rowIds])
    (by simp))

theorem widget_run_createWidget (fresh : Function.Injective supply) {w : Widget}
    (readsBack : ∀ j ∈ w.documents, ReadsBack j) :
    (run supply [.createWidget w]).widget (supply 0) = .ok (w.renew supply 0) := by
  have read := widget_extend wellFormed_empty (sound_empty.wellFormed_extend fresh w)
    (w := w.renew supply 0) (by simp [widgetIds, rowIds]) (by rwa [Widget.documents_renew])
  rwa [← run_createWidget fresh, Widget.id_renew] at read

/-- A widget that is created in a store that calls have led to is read back under a new id, with
new ids in all of it and else as it was given, and nothing besides its rows is stored.  In any such
store a widget that is read alone is the one among all widgets that has its id. -/
theorem createWidget_readBack (supply : Nat → String) (fresh : Function.Injective supply)
    (calls : List Call) :
    (∀ w : Widget, (∀ j ∈ w.documents, ReadsBack j) → ∃ id w' rows s',
      outcome (createWidget supply w) (run supply calls) = (.ok id, s') ∧
        s'.widget id = .ok w' ∧ w'.id = id ∧ w'.anonymous = w.anonymous ∧ w'.ids.Nodup ∧
        (∀ i ∈ w'.ids, ¬ Issued supply (run supply calls) i ∧ i ∉ (run supply calls).widgetIds) ∧
        s'.widgets = (run supply calls).widgets ++ rows ∧ rowIds rows = w'.ids ∧
        s'.dashboards = (run supply calls).dashboards ∧
        s'.placements = (run supply calls).placements) ∧
    ((∀ c ∈ calls, ∀ j ∈ c.documents, Readable j.compact) →
      ∃ ws, (run supply calls).allWidgets = .ok ws ∧
        ∀ id ∈ (run supply calls).widgetIds, ∃ w, (run supply calls).widget id = .ok w ∧
          ((Widget.nodesList ws).filter fun v => v.id == id) = [w]) := by
  constructor
  · intro w readsBack
    have sound : Sound supply (fun _ => True) (run supply calls) :=
      sound_run fresh calls fun _ _ _ _ => trivial
    generalize run supply calls = s at sound ⊢
    have created : outcome (insertWidget supply none w) s =
        (.ok (supply s.issued), s.extend ((w.renew supply s.issued).rows none)) :=
      outcome_insertWidget fresh w none s (sound.unissued fresh) (by simp)
    have after := sound.wellFormed_extend fresh w
    have new : ∀ i ∈ (w.renew supply s.issued).ids, ¬ Issued supply s i ∧ i ∉ s.widgetIds :=
      fun i member => ⟨not_issued_of_mem_renew fresh member,
        fun stored => not_issued_of_mem_renew fresh member (sound.issued i stored)⟩
    have read := widget_extend sound.wellFormed after (fun i member => (new i member).2)
      (by rwa [Widget.documents_renew])
    rw [Widget.id_renew] at read
    refine ⟨_, w.renew supply s.issued, _, _, created, read, Widget.id_renew _ w,
      Widget.anonymous_renew w _, ?_, new, rfl, ?_, rfl, rfl⟩
    · rw [Widget.ids_renew]
      exact List.Nodup.map fresh List.nodup_range'
    · rw [rowIds, List.map_map]
      exact Widget.map_id_rows _ none
  · intro readable
    have sound := sound_run fresh calls readable
    obtain ⟨ws, all, _⟩ := exists_allWidgets sound
    exact ⟨ws, all, fun id known => filter_allWidgets sound all known⟩

/-- A widget with ids that do not matter, two of which are the same. -/
def nestedWidget : Widget :=
  { id := "x", name := "page", kind := "row", props := some (.obj [("max", .int 10)])
    children := [{ id := "x", name := "left", kind := "column",
                   children := [{ name := "chart", kind := "bar", query := some (.arr []) }] },
      { name := "right", kind := "text" }] }

theorem createWidget_readBack_nestedWidget :
    (∃ id w' s',
      outcome (createWidget letters nestedWidget) (run letters brokenCalls) = (.ok id, s') ∧
      s'.widget id = .ok w' ∧ w'.anonymous = nestedWidget.anonymous ∧ w'.ids.Nodup) ∧
    ∃ ws, (run letters brokenCalls).allWidgets = .ok ws ∧
      ∃ w, (run letters brokenCalls).widget "aa" = .ok w ∧
        ((Widget.nodesList ws).filter fun v => v.id == "aa") = [w] := by
  have readsBack : ∀ j ∈ nestedWidget.documents, ReadsBack j := by
    have object : ReadsBack (.obj [("max", .int 10)]) := by
      unfold ReadsBack
      decide +kernel
    have array : ReadsBack (.arr []) := by
      unfold ReadsBack
      decide +kernel
    simp [nestedWidget, Widget.documents, Widget.documentsList, object, array]
  have readable : ∀ c ∈ brokenCalls, ∀ j ∈ c.documents, Readable j.compact := by
    have null : Readable (Json.compact .null) := rfl
    simp [brokenCalls, Call.documents, Widget.documents, Widget.documentsList, null]
  obtain ⟨creates, agree⟩ := createWidget_readBack letters letters_injective brokenCalls
  obtain ⟨id, w', _, s', created, read, _, same, distinct, _⟩ := creates nestedWidget readsBack
  obtain ⟨ws, all, each⟩ := agree readable
  have ids : (run letters brokenCalls).widgetIds = ["a", "aa", "aaa"] := rfl
  have stored : "aa" ∈ (run letters brokenCalls).widgetIds := by simp [ids]
  exact ⟨⟨id, w', s', created, read, same, distinct⟩, ws, all, each "aa" stored⟩

end Store

end QueryBoard
