import QueryBoard.Proofs.Json.Decode
import QueryBoard.Proofs.Json.Distinct
import QueryBoard.Widget.Wire

/-!
# Widgets and dashboards are read as they are written

A widget is read back when the free data in its tree is `Plain`: not null where it is given, and with
one entry per key.  What is read as a widget is plain, on a dashboard too.
-/

set_option autoImplicit false

namespace QueryBoard

attribute [local simp] ok_bind pure_eq_ok map_ok

open Document (Yields ItemsYield)

/-! ## Free data -/

/-- Whether optional data is what the reading of any value leaves of it. -/
def PlainData (data : Option Json) : Prop := ∀ j ∈ data, j ≠ .null ∧ j.Distinct

theorem plainData_none : PlainData none := by
  intro j given
  cases given

theorem Json.dedup_ne_null {j : Json} (some_ : j ≠ .null) : j.dedup ≠ .null := by
  cases j with
  | null => exact absurd rfl some_
  | _ => simp [dedup]

theorem yields_plainData : Yields Document.toAny PlainData := by
  intro d range data success j given
  unfold Document.toAny at success
  obtain ⟨value, _, success⟩ := bind_eq_ok_iff.mp success
  split at success
  · cases success
    cases given
  · next some_ =>
      cases success
      cases given
      exact ⟨Json.dedup_ne_null some_, value.distinct_dedup⟩

theorem toAny_document {data : Option Json} (plain : PlainData data) :
    Document.toAny (data.getD .null).document = .ok data := by
  cases data with
  | none => rfl
  | some j =>
      obtain ⟨some_, distinct⟩ := plain j rfl
      rw [Option.getD_some, Document.toAny, Json.toJson_document, ok_bind]
      split
      · exact absurd rfl some_
      · rw [Json.dedup_of_distinct j distinct, pure_eq_ok]

/-! ## Widgets -/

namespace Widget

mutual

def Plain : Widget → Prop
  | ⟨_, _, _, children, props, query⟩ => PlainList children ∧ PlainData props ∧ PlainData query

def PlainList : List Widget → Prop
  | [] => True
  | w :: rest => Plain w ∧ PlainList rest

end

mutual

theorem ofDocument_toJson : (w : Widget) → w.Plain → ofDocument w.toJson.document = .ok w
  | ⟨id, name, kind, children, props, query⟩, plain => by
      rw [Plain] at plain
      have readProps := toAny_document plain.2.1
      have readQuery := toAny_document plain.2.2
      have readChildren : ofDocumentChildren (Json.arr (toJsonList children)).document =
          .ok children := by
        rw [Json.document, ofDocumentChildren]
        exact ofDocumentList_toJsonList children plain.1
      simp [toJson, ofDocument, readEntries, Slots.read, Slots.finish, readProps, readQuery,
        readChildren]

theorem ofDocumentList_toJsonList : (ws : List Widget) → PlainList ws →
    ofDocumentList (Json.documentItems (toJsonList ws)) = .ok ws
  | [], _ => by rw [toJsonList, Json.documentItems, ofDocumentList]
  | w :: rest, plain => by
      rw [PlainList] at plain
      rw [toJsonList, Json.documentItems, ofDocumentList, ofDocument_toJson w plain.1,
        ofDocumentList_toJsonList rest plain.2]
      rfl

end

/-- What the slots of a widget have while it is read. -/
structure Slots.Plain (s : Slots) : Prop where
  children : ∀ ws ∈ s.children, PlainList ws
  props : ∀ data ∈ s.props, PlainData data
  query : ∀ data ∈ s.query, PlainData data

theorem Slots.plain_read {s s' : Slots} (plain : s.Plain) {e : Document.Entry}
    (range : e.2.Representable) (success : s.read e = .ok s') : s'.Plain := by
  unfold Slots.read at success
  split at success
  · obtain ⟨_, _, same⟩ := bind_eq_ok_iff.mp success
    cases same
    exact { plain with }
  · obtain ⟨_, _, same⟩ := bind_eq_ok_iff.mp success
    cases same
    exact { plain with }
  · obtain ⟨_, _, same⟩ := bind_eq_ok_iff.mp success
    cases same
    exact { plain with }
  · obtain ⟨_, filled, same⟩ := bind_eq_ok_iff.mp success
    cases same
    exact { plain with props := yields_plainData.fill range filled }
  · obtain ⟨_, filled, same⟩ := bind_eq_ok_iff.mp success
    cases same
    exact { plain with query := yields_plainData.fill range filled }
  · rw [Document.skip_eq_ok success]
    exact plain

theorem plainData_join {slot : Option (Option Json)} (plain : ∀ data ∈ slot, PlainData data) :
    PlainData slot.join := by
  intro j given
  exact plain (some j) (Option.join_eq_some_iff.mp given) j rfl

theorem Slots.plain_finish {s : Slots} (plain : s.Plain) {w : Widget} (success : s.finish = .ok w) :
    w.Plain := by
  obtain ⟨name, _, success⟩ := bind_eq_ok_iff.mp success
  obtain ⟨kind, _, same⟩ := bind_eq_ok_iff.mp success
  cases same
  rw [Widget.Plain]
  refine ⟨?_, plainData_join plain.props, plainData_join plain.query⟩
  cases given : s.children with
  | none => trivial
  | some ws => exact plain.children ws given

mutual

theorem plain_ofDocument : (d : Document) → d.Representable → ∀ w, ofDocument d = .ok w → w.Plain
  | .obj entries, range, w, success => by
      rw [ofDocument] at success
      obtain ⟨s, read, finished⟩ := bind_eq_ok_iff.mp success
      exact Slots.plain_finish
        (plain_readEntries entries range {} ⟨by simp, by simp, by simp⟩ s read) finished
  | .arr items, range, w, success => by
      rw [ofDocument] at success
      exact plain_ofItems items range w success
  | .null, _, _, success | .bool _, _, _, success | .int _, _, _, success
  | .float _, _, _, success | .str _, _, _, success | .valueless, _, _, success
  | .broken, _, _, success => by cases success

theorem plain_readEntries : (entries : List (Option String × Document)) →
    Document.RepresentableEntries entries → ∀ s : Slots, s.Plain → ∀ s',
      readEntries s entries = .ok s' → s'.Plain
  | [], _, s, plain, s', success => by
      rw [readEntries] at success
      cases success
      exact plain
  | (key, d) :: rest, range, s, plain, s', success => by
      rw [Document.RepresentableEntries] at range
      rw [readEntries] at success
      split at success
      · split at success
        · cases success
        · obtain ⟨ws, read, later⟩ := bind_eq_ok_iff.mp success
          refine plain_readEntries rest range.2 { s with children := some ws }
            { plain with children := ?_ } s' later
          intro ws' given
          cases given
          exact plain_ofDocumentChildren d range.1 ws read
      · obtain ⟨mid, first, later⟩ := bind_eq_ok_iff.mp success
        exact plain_readEntries rest range.2 mid (Slots.plain_read plain range.1 first) s' later

theorem plain_ofItems : (items : List Document) → Document.RepresentableItems items → ∀ w,
    ofItems items = .ok w → w.Plain
  | id :: name :: kind :: rest, range, w, success => by
      obtain ⟨_, _, _, range⟩ := range
      rw [ofItems] at success
      obtain ⟨id, _, success⟩ := bind_eq_ok_iff.mp success
      obtain ⟨name, _, success⟩ := bind_eq_ok_iff.mp success
      obtain ⟨kind, _, success⟩ := bind_eq_ok_iff.mp success
      cases rest with
      | nil =>
          cases success
          exact ⟨trivial, plainData_none, plainData_none⟩
      | cons children rest =>
          obtain ⟨ws, below, success⟩ := bind_eq_ok_iff.mp success
          obtain ⟨data, free, same⟩ := bind_eq_ok_iff.mp success
          cases same
          have yields : ItemsYield _ fun data : Option Json × Option Json =>
              PlainData data.1 ∧ PlainData data.2 :=
            (yields_plainData.itemOr none plainData_none).bind fun props plainProps =>
              (yields_plainData.itemOr none plainData_none).bind fun query plainQuery =>
                ItemsYield.pure (a := (props, query)) ⟨plainProps, plainQuery⟩
          have plain := yields.allItems range.2 free
          exact ⟨plain_ofDocumentChildren children range.1 ws below, plain⟩
  | [], _, _, success | [_], _, _, success | [_, _], _, _, success => by cases success

theorem plain_ofDocumentChildren : (d : Document) → d.Representable → ∀ ws,
    ofDocumentChildren d = .ok ws → PlainList ws
  | .arr items, range, ws, success => by
      rw [ofDocumentChildren] at success
      exact plain_ofDocumentList items range ws success
  | .obj _, _, _, success | .null, _, _, success | .bool _, _, _, success
  | .int _, _, _, success | .float _, _, _, success | .str _, _, _, success
  | .valueless, _, _, success | .broken, _, _, success => by cases success

theorem plain_ofDocumentList : (ds : List Document) → Document.RepresentableItems ds → ∀ ws,
    ofDocumentList ds = .ok ws → PlainList ws
  | [], _, ws, success => by
      rw [ofDocumentList] at success
      cases success
      trivial
  | d :: rest, range, ws, success => by
      rw [Document.RepresentableItems] at range
      rw [ofDocumentList] at success
      obtain ⟨w, first, success⟩ := bind_eq_ok_iff.mp success
      obtain ⟨ws, later, same⟩ := bind_eq_ok_iff.mp success
      cases same
      exact ⟨plain_ofDocument d range.1 w first, plain_ofDocumentList rest range.2 ws later⟩

end

end Widget

/-! ## Dashboards -/

@[simp]
theorem Layout.ofDocument_toJson (l : Layout) : ofDocument l.toJson.document = .ok l := by
  simp [toJson, toFields, ofDocument, ofEntries, Slots.read, Slots.finish]

namespace PlacedWidget

theorem ofDocument_toJson {p : PlacedWidget} (plain : p.widget.Plain) :
    ofDocument p.toJson.document = .ok p := by
  obtain ⟨⟨id, name, kind, children, props, query⟩, layout⟩ := p
  rw [Widget.Plain] at plain
  have readProps := toAny_document plain.2.1
  have readQuery := toAny_document plain.2.2
  have readChildren : Widget.ofDocumentChildren (Json.arr (Widget.toJsonList children)).document =
      .ok children := by
    rw [Json.document, Widget.ofDocumentChildren]
    exact Widget.ofDocumentList_toJsonList children plain.1
  simp [toJson, Widget.toJson, Layout.toFields, ofDocument, Widget.ofEntries, Widget.readEntries,
    Widget.Slots.read, Widget.Slots.finish, Layout.ofEntries, Layout.Slots.read,
    Layout.Slots.finish, readProps, readQuery, readChildren]

theorem yields_plain : Yields ofDocument fun p => p.widget.Plain := by
  intro d range p success
  unfold ofDocument at success
  split at success
  · next entries =>
      obtain ⟨_, _, success⟩ := bind_eq_ok_iff.mp success
      obtain ⟨widget, read, success⟩ := bind_eq_ok_iff.mp success
      obtain ⟨layout, _, same⟩ := bind_eq_ok_iff.mp success
      cases same
      exact Widget.plain_ofDocument (.obj entries) range widget read
  · cases success

end PlacedWidget

namespace Dashboard

def Plain (d : Dashboard) : Prop := ∀ p ∈ d.widgets, p.widget.Plain

theorem ofDocument_toJson {d : Dashboard} (plain : d.Plain) :
    ofDocument d.toJson.document = .ok d := by
  have widgets := Json.toList_arr fun p member => PlacedWidget.ofDocument_toJson (plain p member)
  simp [toJson, ofDocument, Slots.read, Slots.finish, widgets]

theorem Slots.plain_read {s s' : Slots} (plain : ∀ ps ∈ s.widgets, ∀ p ∈ ps, p.widget.Plain)
    {e : Document.Entry} (range : e.2.Representable) (success : s.read e = .ok s') :
    ∀ ps ∈ s'.widgets, ∀ p ∈ ps, p.widget.Plain := by
  unfold Slots.read at success
  split at success
  · obtain ⟨_, _, same⟩ := bind_eq_ok_iff.mp success
    cases same
    exact plain
  · obtain ⟨_, _, same⟩ := bind_eq_ok_iff.mp success
    cases same
    exact plain
  · obtain ⟨widgets, filled, same⟩ := bind_eq_ok_iff.mp success
    cases same
    exact PlacedWidget.yields_plain.toList.fill range filled
  · rw [Document.skip_eq_ok success]
    exact plain

theorem yields_plain : Yields ofDocument Plain := by
  intro d range b success
  unfold ofDocument at success
  split at success
  · next entries =>
      obtain ⟨s, read, success⟩ := bind_eq_ok_iff.mp success
      have plain := Document.foldlM_yields Slots.plain_read range
        (by simp : ∀ ps ∈ ({} : Slots).widgets, ∀ p ∈ ps, p.widget.Plain) read
      obtain ⟨name, _, same⟩ := bind_eq_ok_iff.mp success
      cases same
      exact Document.forall_mem_getD plain
  · next items =>
      have text := Document.yields_true Document.toText
      have yields : ItemsYield _ Plain :=
        text.item.bind fun id _ =>
          text.item.bind fun name _ =>
            (PlacedWidget.yields_plain.toList.itemOr [] (by simp)).bind fun widgets plain =>
              ItemsYield.pure (a := Dashboard.mk id name widgets) plain
      exact yields.allItems range success
  · cases success

end Dashboard

end QueryBoard
