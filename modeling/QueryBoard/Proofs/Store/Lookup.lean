import QueryBoard.Proofs.Hierarchy.SingleWidget
import QueryBoard.Proofs.Store.Reading

/-!
# One widget and all widgets

A stored widget that is read alone is the one that stands under its id in the forest of all
widgets.  The rows that are read for it are those of the widgets below it, and for each of them they
hold the same children in the same order as the whole store; that its own parent is left out makes
no difference, because a widget of a well-formed store is never below itself.
-/

set_option autoImplicit false

namespace QueryBoard

open Relation (ReflTransGen TransGen)

/-- The row with its documents, without those that cannot be read. -/
def StoredWidget.row (r : StoredWidget) : WidgetRow where
  id := r.id
  name := r.name
  kind := r.kind
  props := r.props.bind fun text => (Json.parse? text).map Json.dedup
  query := r.query.bind fun text => (Json.parse? text).map Json.dedup
  parent := r.parent

theorem readDocument_eq {text : Option String} (readable : ∀ t, text = some t → Readable t) :
    readDocument text = .ok (text.bind fun t => (Json.parse? t).map Json.dedup) := by
  cases text with
  | none => rfl
  | some t =>
      obtain ⟨j, parsed⟩ := Option.isSome_iff_exists.mp (readable t rfl)
      rw [Option.bind_some, parsed, readDocument, parsed]
      rfl

theorem StoredWidget.read_eq {r : StoredWidget}
    (readable : ∀ text, r.props = some text ∨ r.query = some text → Readable text) :
    r.read = .ok r.row := by
  have props := readDocument_eq fun t given => readable t (Or.inl given)
  have query := readDocument_eq fun t given => readable t (Or.inr given)
  rw [read, props, query]
  rfl

namespace Store

variable {supply : Nat → String} {s : Store}

theorem map_id_row (rows : List StoredWidget) :
    ((rows.map StoredWidget.row).map fun r => r.id) = rowIds rows := by
  rw [List.map_map]
  rfl

/-- Whether a widget is somewhere below another one. -/
def Under (s : Store) : String → String → Prop :=
  TransGen fun id parent => (id, some parent) ∈ parentLinks s.widgets

namespace WellFormed

theorem row_unique (wellFormed : WellFormed s) {r r' : StoredWidget} (stored : r ∈ s.widgets)
    (stored' : r' ∈ s.widgets) (same : r.id = r'.id) : r = r' :=
  List.inj_on_of_nodup_map wellFormed.widgets stored stored' same

theorem mem_rowIds_iff (wellFormed : WellFormed s) {rows : List StoredWidget}
    (part : rows ⊆ s.widgets) {r : StoredWidget} (stored : r ∈ s.widgets) :
    r.id ∈ rowIds rows ↔ r ∈ rows := by
  refine ⟨fun listed => ?_, fun member => List.mem_map_of_mem member⟩
  obtain ⟨r', member, same⟩ := List.mem_map.mp listed
  rwa [← wellFormed.row_unique (part member) stored same]

theorem link_unique (wellFormed : WellFormed s) (id : String) (p q : Option String)
    (left : (id, p) ∈ parentLinks s.widgets) (right : (id, q) ∈ parentLinks s.widgets) :
    p = q := by
  obtain ⟨r, stored, is, rfl⟩ := mem_parentLinks.mp left
  obtain ⟨r', stored', is', rfl⟩ := mem_parentLinks.mp right
  rw [wellFormed.row_unique stored stored' (is.trans is'.symm)]

theorem not_under_self (wellFormed : WellFormed s) (id : String) : ¬ s.Under id id := by
  intro cycle
  obtain ⟨p, up, _⟩ := TransGen.head'_iff.mp cycle
  obtain ⟨r, stored, rfl, _⟩ := mem_parentLinks.mp up
  exact (wellFormed.chains r stored).not_below_self wellFormed.link_unique cycle

end WellFormed

/-! ## The rows of a widget -/

section

variable (wellFormed : WellFormed s) {r x : StoredWidget} (stored : r ∈ s.widgets)
include wellFormed stored

theorem widgetRows_eq : s.widgetRows r.id =
    closure (fun a b : StoredWidget => b.parent == some a.id) s.widgets [r] := by
  rw [widgetRows, filter_eq_singleton wellFormed.widgets stored]

theorem mem_widgetRows : r ∈ s.widgetRows r.id := by
  rw [widgetRows_eq wellFormed stored]
  exact mem_closure_of_mem _ (by simp)

theorem of_mem_widgetRows (found : x ∈ s.widgetRows r.id) :
    x ∈ s.widgets ∧ (x = r ∨ s.Under x.id r.id) := by
  rw [widgetRows_eq wellFormed stored] at found
  refine of_mem_closure _ (P := fun x => x ∈ s.widgets ∧ (x = r ∨ s.Under x.id r.id)) ?_ ?_ found
  · intro q member
    rw [List.mem_singleton.mp member]
    exact ⟨stored, Or.inl rfl⟩
  · rintro y z ⟨_, above⟩ inside follows
    have link : (z.id, some y.id) ∈ parentLinks s.widgets :=
      mem_parentLinks.mpr ⟨z, inside, rfl, beq_iff_eq.mp follows⟩
    refine ⟨inside, Or.inr ?_⟩
    rcases above with rfl | above
    · exact TransGen.single link
    · exact TransGen.head link above

theorem parent_mem_widgetRows (found : x ∈ s.widgetRows r.id) (other : x.id ≠ r.id) {p : String}
    (given : x.parent = some p) : p ∈ rowIds (s.widgetRows r.id) := by
  obtain ⟨rest, whole, later⟩ := closure_eq_append
    (fun a b : StoredWidget => b.parent == some a.id) s.widgets [r]
  rw [widgetRows_eq wellFormed stored] at found ⊢
  have inside := found
  rw [whole, List.mem_append, List.mem_eraseDups, List.mem_singleton] at inside
  rcases inside with rfl | member
  · exact absurd rfl other
  · obtain ⟨_, y, visited, follows⟩ := later x member
    have parent : x.parent = some y.id := beq_iff_eq.mp follows
    rw [given, Option.some.injEq] at parent
    exact List.mem_map.mpr ⟨y, visited, parent.symm⟩

theorem nodup_ids_widgetRows : (rowIds (s.widgetRows r.id)).Nodup := by
  refine List.Nodup.map_on (fun y found z found' same => ?_) (nodup_closure _ _ _)
  exact wellFormed.row_unique (of_mem_widgetRows wellFormed stored found).1
    (of_mem_widgetRows wellFormed stored found').1 same

theorem parent_ne_of_mem_widgetRows (found : x ∈ s.widgetRows r.id) : r.parent ≠ some x.id := by
  intro up
  have link : (r.id, some x.id) ∈ parentLinks s.widgets := mem_parentLinks.mpr ⟨r, stored, rfl, up⟩
  rcases (of_mem_widgetRows wellFormed stored found).2 with rfl | below
  · exact wellFormed.not_under_self _ (TransGen.single link)
  · exact wellFormed.not_under_self _ (TransGen.head link below)

/-- Below each of its rows a query has what the whole store has there. -/
theorem filter_widgetRows (found : x ∈ s.widgetRows r.id) :
    ((s.widgetRows r.id).filter fun y => y.parent == some x.id) =
      s.widgets.filter fun y => y.parent == some x.id := by
  have distinct : s.widgets.Nodup := List.Nodup.of_map _ wellFormed.widgets
  have rows := widgetRows_eq wellFormed stored
  rw [rows] at found ⊢
  refine filter_closure (fun a b : StoredWidget => b.parent == some a.id) distinct (by simp)
    (fun y member z member' c up up' => ?_) (fun q member y visited => ?_) found
  · simp only [beq_iff_eq] at up up'
    rw [up, Option.some.injEq] at up'
    rw [← rows] at member member'
    exact wellFormed.row_unique (of_mem_widgetRows wellFormed stored member).1
      (of_mem_widgetRows wellFormed stored member').1 up'
  · rw [List.mem_singleton.mp member]
    exact beq_eq_false_iff_ne.mpr (parent_ne_of_mem_widgetRows wellFormed stored (rows ▸ visited))

/-- The query's rows without the parent of the first keep what stands below each of them. -/
theorem filter_cut_widgetRows (found : x ∈ s.widgetRows r.id) :
    ((s.widgetRows r.id).filter fun y => (y.row.cut r.id).parent == some x.id) =
      s.widgets.filter fun y => y.parent == some x.id := by
  rw [← filter_widgetRows wellFormed stored found]
  apply List.filter_congr
  intro y member
  by_cases same : y.id = r.id
  · have own := wellFormed.row_unique (of_mem_widgetRows wellFormed stored member).1 stored same
    have apart := parent_ne_of_mem_widgetRows wellFormed stored found
    simp [WidgetRow.cut, StoredWidget.row, own, apart]
  · simp [WidgetRow.cut, StoredWidget.row, same]

end

/-! ## Both readers -/

/-- A stored widget is found, as it is in the rows of the whole store. -/
theorem exists_widget (wellFormed : WellFormed s) {id : String} (known : id ∈ s.widgetIds)
    (readable : ∀ r ∈ s.widgetRows id, r.read = .ok r.row) :
    ∃ w, s.widget id = .ok w ∧ w.id = id ∧ w.ReadFrom (s.widgets.map StoredWidget.row) := by
  obtain ⟨r, stored, rfl⟩ := List.mem_map.mp known
  have distinct : (((s.widgetRows r.id).map StoredWidget.row).map fun r => r.id).Nodup := by
    rw [map_id_row]
    exact nodup_ids_widgetRows wellFormed stored
  obtain ⟨w, built, spans⟩ := exists_buildWidget ((s.widgetRows r.id).map StoredWidget.row) r.id
    (by rw [map_id_row]; exact List.mem_map_of_mem (mem_widgetRows wellFormed stored))
    (by
      rw [map_id_row]
      intro row member other p given
      obtain ⟨x, found, rfl⟩ := List.mem_map.mp (mem_of_mem_firstsBy _ member)
      exact parent_mem_widgetRows wellFormed stored found other given)
  rw [cutFirsts, firstsBy_of_nodup _ distinct] at spans
  refine ⟨w, ?_, spans.top, Widget.ReadFrom.congr ?_ w spans.read ?_⟩
  · unfold widget readWidget
    refine bind_eq_ok_iff.mpr ⟨_, mapM_eq_ok_map readable, ?_⟩
    rw [built]
    rfl
  · intro row member
    obtain ⟨_, cut, rfl⟩ := List.mem_map.mp member
    obtain ⟨x, found, rfl⟩ := List.mem_map.mp cut
    exact ⟨x.parent, List.mem_map_of_mem (of_mem_widgetRows wellFormed stored found).1⟩
  · intro row member _
    obtain ⟨_, cut, rfl⟩ := List.mem_map.mp member
    obtain ⟨x, found, rfl⟩ := List.mem_map.mp cut
    simp only [childRows, List.filter_map, List.map_map]
    exact congrArg rowIds (filter_cut_widgetRows wellFormed stored found)

/-- What the rows say of a stored widget is what is read. -/
theorem widget_of_readFrom (wellFormed : WellFormed s) {w : Widget} (known : w.id ∈ s.widgetIds)
    (readable : ∀ r ∈ s.widgetRows w.id, r.read = .ok r.row)
    (rows : w.ReadFrom (s.widgets.map StoredWidget.row)) : s.widget w.id = .ok w := by
  obtain ⟨v, found, is, read⟩ := exists_widget wellFormed known readable
  have distinct : ((s.widgets.map StoredWidget.row).map fun r => r.id).Nodup := by
    rw [map_id_row]
    exact wellFormed.widgets
  rw [found, Widget.ReadFrom.unique distinct v w read rows is]

/-- Among all widgets there is one with a stored id, and it is the one that is found under it. -/
theorem filter_allWidgets (sound : Sound supply Readable s) {ws : List Widget}
    (all : s.allWidgets = .ok ws) {id : String} (known : id ∈ s.widgetIds) :
    ∃ w, s.widget id = .ok w ∧ ((Widget.nodesList ws).filter fun v => v.id == id) = [w] := by
  have readable : ∀ r ∈ s.widgets, r.read = .ok r.row :=
    fun r stored => StoredWidget.read_eq (sound.documents r stored)
  have distinct : ((s.widgets.map StoredWidget.row).map fun r => r.id).Nodup := by
    rw [map_id_row]
    exact sound.wellFormed.widgets
  have built : buildWidgets (s.widgets.map StoredWidget.row) = .ok ws := by
    obtain ⟨rows, read, made⟩ := bind_eq_ok_iff.mp all
    rw [mapM_eq_ok_map readable] at read
    cases read
    exact mapError_eq_ok_iff.mp made
  obtain ⟨w, found, is, read⟩ := exists_widget sound.wellFormed known fun r found => by
    obtain ⟨r', stored, rfl⟩ := List.mem_map.mp known
    exact readable r (of_mem_widgetRows sound.wellFormed stored found).1
  refine ⟨w, found, ?_⟩
  rw [← is]
  exact filter_buildWidgets distinct built (by rw [map_id_row, is]; exact known) read

end Store

end QueryBoard
