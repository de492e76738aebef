import QueryBoard.Proofs.Store.Limits

/-!
# Writing back what was read

A widget that is read and written back as it is leaves every row as it was.  Each row is rewritten to
what it says, as long as printing undoes the reading of its documents, and nothing is removed,
because a widget is read with all its stored children.  So none of the steps of such an edit changes
the store, and it comes out the same whatever is stored beside the widget.  The edit gets to its end
unless some widget has more children than a statement can name.
-/

set_option autoImplicit false

namespace QueryBoard

/-- Reading a text and printing the document gives the text. -/
def Reprints (text : String) : Prop :=
  (Json.parse? text).map (fun j => j.dedup.compact) = some text

theorem Reprints.readable {text : String} (reprints : Reprints text) : Readable text := by
  obtain ⟨j, parsed, _⟩ := Option.map_eq_some_iff.mp reprints
  rw [Readable, parsed, Option.isSome_some]

theorem StoredWidget.stored_row {r : StoredWidget}
    (reprints : ∀ text, r.props = some text ∨ r.query = some text → Reprints text) :
    r.row.stored = r := by
  have document : ∀ d : Option String, (∀ text, d = some text → Reprints text) →
      (d.bind fun text => (Json.parse? text).map Json.dedup).map Json.compact = d := by
    intro d reprints
    cases d with
    | none => rfl
    | some text =>
        have same := reprints text rfl
        rwa [Option.bind_some, Option.map_map]
  have props := document r.props fun text given => reprints text (Or.inl given)
  have query := document r.query fun text given => reprints text (Or.inr given)
  cases r
  simp only [WidgetRow.stored, StoredWidget.row] at props query ⊢
  rw [props, query]

namespace Store

variable {supply : Nat → String} {s : Store}

/-! ## Steps without effect -/

/-- What is given for a widget is what its row says. -/
theorem changeWidget_eq_self (wellFormed : WellFormed s) {r : StoredWidget} (stored : r ∈ s.widgets)
    {change : StoredWidget → StoredWidget} (same : change r = r) :
    s.changeWidget r.id change = s := by
  have rows : s.widgets.map (fun x => if x.id = r.id then change x else x) = s.widgets := by
    refine (List.map_congr_left fun x member => ?_).trans (List.map_id _)
    split
    · next own => rw [wellFormed.row_unique member stored own, same, id]
    · rfl
  rw [changeWidget, rows]

section

variable {id : String} {kept : List String}
variable (listed : ∀ r ∈ s.widgets, r.parent = some id → r.id ∈ kept)
include listed

/-- No stored child of a widget is missing among all that are listed. -/
theorem removeWidgets_listed (wellFormed : WellFormed s) :
    (s.removeWidgets fun r => r.parent == some id && !kept.contains r.id) = s := by
  refine removeWidgets_eq_self wellFormed fun r stored => ?_
  by_cases below : r.parent = some id
  · simp [listed r stored below]
  · simp [below]

theorem outcome_removeStale_listed (wellFormed : WellFormed s)
    (few : kept.length < Db.Limit.parameters.most) :
    outcome (removeStale id kept) s = (.ok (), s) := by
  have shallow : s.Shallow fun v y => v = id ∧ y ∉ kept := by
    rintro v y ids ⟨rfl, absent⟩ chain
    obtain ⟨r, stored, rfl, given⟩ := mem_parentLinks.mp (Chain.cons_cons.mp chain).1
    exact absurd (listed r stored given) absent
  have removed := (outcome_removeStale_iff wellFormed).mpr ⟨few, shallow⟩
  rwa [removeWidgets_listed listed wellFormed] at removed

end

/-- An edit of a widget without children, as it is stored and as it is given, changes its row. -/
theorem outcome_edit_childless (wellFormed : WellFormed s) {id name kind : String}
    {props query : Option Json} (known : s.hasWidget id = true)
    (childless : ∀ r ∈ s.widgets, r.parent ≠ some id) :
    outcome (editWidget supply ⟨id, name, kind, [], props, query⟩) s =
      (.ok (), s.changeWidget id fun r => { r with
        name, kind, props := props.map Json.compact, query := query.map Json.compact }) := by
  have after : WellFormed (s.changeWidget id fun r => { r with
      name, kind, props := props.map Json.compact, query := query.map Json.compact }) :=
    wellFormed.changeWidget id fun _ => ⟨rfl, rfl⟩
  rw [editWidget_eq, outcome_require_ok]
  refine ⟨known, outcome_bind_ok.mpr ⟨(), _, outcome_modify_ok.mpr rfl,
    outcome_bind_ok.mpr ⟨[], _, by rw [editChildren]; rfl, ?_⟩⟩⟩
  refine outcome_removeStale_listed (fun r stored below => ?_) after (by decide)
  obtain ⟨old, before, rfl⟩ := List.mem_map.mp stored
  refine absurd ?_ (childless old before)
  split at below
  · exact below
  · exact below

/-! ## The edit -/

/-- Whether the rows of a store say what is printed for what is read of them, each under an id that
an edit takes for one. -/
structure Verbatim (s : Store) : Prop where
  wellFormed : WellFormed s
  named : ∀ r ∈ s.widgets, r.id ≠ ""
  whole : ∀ r ∈ s.widgets, r.row.stored = r

section

variable (verbatim : Verbatim s)
include verbatim

mutual

/-- To edit a widget into what the rows say of it changes none of them, and fails only where there
are too many children. -/
theorem outcome_editWidget_readFrom : (w : Widget) → w.ReadFrom (s.widgets.map StoredWidget.row) →
    (¬ Crowded w.nodes → outcome (editWidget supply w) s = (.ok (), s)) ∧
    (Crowded w.nodes → ∃ offset text, outcome (editWidget supply w) s =
      (.error (.query (.limit .parameters offset) text), s))
  | ⟨id, name, kind, children, props, query⟩, ⟨⟨parent, own⟩, ids, below⟩ => by
      obtain ⟨r, stored, row⟩ := List.mem_map.mp own
      have is : r.id = id := congrArg WidgetRow.id row
      have same : { r with
          name, kind, props := props.map Json.compact, query := query.map Json.compact } = r := by
        conv_rhs => rw [← verbatim.whole r stored, row]
        rw [WidgetRow.stored, is, show r.parent = parent from congrArg WidgetRow.parent row]
      have changed : outcome (modify (·.changeWidget id fun r => { r with
          name, kind, props := props.map Json.compact, query := query.map Json.compact })) s =
            (.ok (), s) :=
        outcome_modify_ok.mpr (is ▸ changeWidget_eq_self verbatim.wellFormed stored same)
      have listed : ∀ c ∈ s.widgets, c.parent = some id → c.id ∈ children.map fun c => c.id := by
        intro c member given
        have child : c.row ∈ childRows (s.widgets.map StoredWidget.row) id :=
          List.mem_filter.mpr ⟨List.mem_map_of_mem member, beq_iff_eq.mpr given⟩
        rw [ids]
        exact List.mem_map_of_mem child
      have known : s.hasWidget id = true := hasWidget_iff.mpr (List.mem_map.mpr ⟨r, stored, is⟩)
      obtain ⟨edited, refused⟩ := outcome_editChildren_readFrom children id below
      rw [Widget.nodes, crowded_cons, not_or, editWidget_eq, outcome_require, if_pos known,
        outcome_bind, changed]
      dsimp only
      rw [outcome_bind]
      constructor
      · rintro ⟨few, narrow⟩
        rw [edited narrow]
        refine outcome_removeStale_listed listed verbatim.wellFormed ?_
        rw [List.length_map]
        exact Nat.not_le.mp few
      · intro crowded
        by_cases narrow : Crowded (Widget.nodesList children)
        · obtain ⟨offset, text, refused⟩ := refused narrow
          exact ⟨offset, text, by rw [refused]⟩
        · have many := crowded.resolve_right narrow
          rw [← List.length_map (fun c : Widget => c.id)] at many
          obtain ⟨offset, refused⟩ := outcome_removeStale_crowded s id many
          exact ⟨offset, _, by rw [edited narrow]; exact refused⟩

theorem outcome_editChildren_readFrom : (ws : List Widget) → (parent : String) →
    Widget.ReadFromAll (s.widgets.map StoredWidget.row) ws →
    (¬ Crowded (Widget.nodesList ws) →
      outcome (editChildren supply parent ws) s = (.ok (ws.map fun w => w.id), s)) ∧
    (Crowded (Widget.nodesList ws) → ∃ offset text, outcome (editChildren supply parent ws) s =
      (.error (.query (.limit .parameters offset) text), s))
  | [], parent, _ => by
      rw [editChildren, Widget.nodesList]
      exact ⟨fun _ => rfl, fun ⟨_, inside, _⟩ => absurd inside List.not_mem_nil⟩
  | w :: rest, parent, ⟨first, all⟩ => by
      obtain ⟨edited, refused⟩ := outcome_editWidget_readFrom w first
      obtain ⟨more, refused'⟩ := outcome_editChildren_readFrom rest parent all
      have old : ¬ w.id.isEmpty = true := by
        obtain ⟨id, name, kind, children, props, query⟩ := w
        obtain ⟨⟨_, own⟩, _⟩ := first
        obtain ⟨r, stored, row⟩ := List.mem_map.mp own
        have is : r.id = id := congrArg WidgetRow.id row
        exact fun empty => verbatim.named r stored (is.trans (String.isEmpty_iff.mp empty))
      have child (narrow : ¬ Crowded w.nodes) :
          outcome (editChild supply parent w) s = (.ok w.id, s) := by
        rw [editChild, if_neg old]
        exact outcome_bind_ok.mpr ⟨(), s, edited narrow, rfl⟩
      rw [Widget.nodesList, crowded_append, not_or, editChildren_cons_eq, outcome_bind]
      constructor
      · rintro ⟨narrow, narrow'⟩
        rw [child narrow]
        exact outcome_bind_ok.mpr ⟨_, s, more narrow', rfl⟩
      · intro crowded
        by_cases narrow : Crowded w.nodes
        · obtain ⟨offset, text, refused⟩ := refused narrow
          refine ⟨offset, text, ?_⟩
          rw [editChild, if_neg old, outcome_bind, refused]
        · obtain ⟨offset, text, refused⟩ := refused' (crowded.resolve_left narrow)
          refine ⟨offset, text, ?_⟩
          rw [child narrow]
          dsimp only
          rw [outcome_bind, refused]

end

end

theorem read_of_reprints (wellFormed : WellFormed s)
    (reprints : ∀ r ∈ s.widgets, ∀ text, r.props = some text ∨ r.query = some text → Reprints text)
    {id : String} (stored : id ∈ s.widgetIds) {r : StoredWidget} (found : r ∈ s.widgetRows id) :
    r.read = .ok r.row := by
  obtain ⟨top, inside, rfl⟩ := List.mem_map.mp stored
  have member := (of_mem_widgetRows wellFormed inside found).1
  exact StoredWidget.read_eq fun text given => (reprints r member text given).readable

theorem exists_writesBack (named : ∀ k, supply k ≠ "") (sound : Sound supply (fun _ => True) s)
    (reprints : ∀ r ∈ s.widgets, ∀ text, r.props = some text ∨ r.query = some text → Reprints text)
    {id : String} (stored : id ∈ s.widgetIds) : ∃ w, s.widget id = .ok w ∧ w.id = id ∧
      (¬ Crowded w.nodes → outcome (editWidget supply w) s = (.ok (), s)) ∧
      (Crowded w.nodes → ∃ offset text, outcome (editWidget supply w) s =
        (.error (.query (.limit .parameters offset) text), s)) := by
  obtain ⟨w, found, is, read⟩ := exists_widget sound.wellFormed stored fun _ found =>
    read_of_reprints sound.wellFormed reprints stored found
  refine ⟨w, found, is, outcome_editWidget_readFrom ⟨sound.wellFormed, fun r member => ?_,
    fun r member => StoredWidget.stored_row (reprints r member)⟩ w read⟩
  obtain ⟨k, _, same⟩ := sound.issued r.id (List.mem_map_of_mem member)
  exact same ▸ named k

/-- In a store that calls have led to, every widget that is stored, in another one or not, can be
read, and to write it back as it was read leaves the store as it is.  It succeeds unless a widget in
it has more children than a statement can name, and is refused for this reason else. -/
theorem editWidget_writesBack (supply : Nat → String) (fresh : Function.Injective supply)
    (named : ∀ k, supply k ≠ "") (calls : List Call)
    (reprints : ∀ r ∈ (run supply calls).widgets, ∀ text,
      r.props = some text ∨ r.query = some text → Reprints text)
    (id : String) (stored : id ∈ (run supply calls).widgetIds) :
    ∃ w, (run supply calls).widget id = .ok w ∧ w.id = id ∧
      (¬ Crowded w.nodes →
        outcome (editWidget supply w) (run supply calls) = (.ok (), run supply calls)) ∧
      (Crowded w.nodes → ∃ offset text, outcome (editWidget supply w) (run supply calls) =
        (.error (.query (.limit .parameters offset) text), run supply calls)) :=
  exists_writesBack named (sound_run fresh calls fun _ _ _ _ => trivial) reprints stored

/-- The nested widget, and a dashboard that places one of the widgets in it. -/
def nestedCalls : List Call :=
  [.createWidget nestedWidget,
    .createDashboard { name := "board", widgets := [⟨{ id := "aa", name := "", kind := "" }, {}⟩] }]

theorem letters_ne_empty (k : Nat) : letters k ≠ "" := by
  intro empty
  simpa [letters] using congrArg String.toList empty

theorem editWidget_writesBack_nestedCalls :
    "aa" ∈ (run letters nestedCalls).widgetIds ∧
    ∃ w, (run letters nestedCalls).widget "aa" = .ok w ∧ w.id = "aa" ∧ ¬ Crowded w.nodes ∧
      outcome (editWidget letters w) (run letters nestedCalls) =
        (.ok (), run letters nestedCalls) := by
  have rows : (run letters nestedCalls).widgets =
      [⟨"a", "page", "row", some (Json.obj [("max", .int 10)]).compact, none, none⟩,
        ⟨"aa", "left", "column", none, none, some "a"⟩,
        ⟨"aaa", "chart", "bar", none, some (Json.arr []).compact, some "aa"⟩,
        ⟨"aaaa", "right", "text", none, none, some "a"⟩] := rfl
  have object : Reprints (Json.obj [("max", .int 10)]).compact := by
    unfold Reprints
    decide +kernel
  have array : Reprints (Json.arr []).compact := by
    unfold Reprints
    decide +kernel
  have stored : "aa" ∈ (run letters nestedCalls).widgetIds := by
    simp [widgetIds, rowIds, rows]
  have reprints : ∀ r ∈ (run letters nestedCalls).widgets, ∀ text,
      r.props = some text ∨ r.query = some text → Reprints text := by
    rw [rows]
    simp [object, array]
  have wellFormed := wellFormed_run letters_injective nestedCalls
  obtain ⟨j, parsed, _⟩ := Option.map_eq_some_iff.mp array
  have said : Widget.ReadFrom ((run letters nestedCalls).widgets.map StoredWidget.row)
      { id := "aa", name := "left", kind := "column"
        children := [{ id := "aaa", name := "chart", kind := "bar", query := some j.dedup }] } := by
    simp [rows, StoredWidget.row, parsed, Widget.ReadFrom, Widget.ReadFromAll, childRows]
  have read := widget_of_readFrom wellFormed stored
    (fun _ found => read_of_reprints wellFormed reprints stored found) said
  obtain ⟨w, found, is, writes, _⟩ :=
    editWidget_writesBack letters letters_injective letters_ne_empty nestedCalls reprints "aa" stored
  cases found.symm.trans read
  have narrow : ¬ Crowded (Widget.nodes
      { id := "aa", name := "left", kind := "column"
        children := [{ id := "aaa", name := "chart", kind := "bar", query := some j.dedup }] }) := by
    simp [Crowded, Widget.nodes, Widget.nodesList, Db.Limit.most]
  exact ⟨stored, _, read, rfl, narrow, writes narrow⟩

/-! ## What cannot be written back -/

theorem exists_widget_refused :
    (∀ r ∈ (run letters [.createWidget (wideWidget "" 32766)]).widgets, ∀ text,
      r.props = some text ∨ r.query = some text → Reprints text) ∧
    ∃ w, (run letters [.createWidget (wideWidget "" 32766)]).widget "a" = .ok w ∧
      (outcome (editWidget letters w)
        (run letters [.createWidget (wideWidget "" 32766)])).1 ≠ .ok () := by
  have documents : ((wideWidget "" 32766).renew letters 0).documents = [] := by
    rw [Widget.documents_renew, documents_wideWidget]
  have reprints : ∀ r ∈ (run letters [.createWidget (wideWidget "" 32766)]).widgets, ∀ text,
      r.props = some text ∨ r.query = some text → Reprints text := by
    intro r member
    rw [run_createWidget letters_injective] at member
    obtain ⟨row, inside, rfl⟩ := List.mem_map.mp member
    have none := Widget.documents_of_mem_rows _ none row inside
    rw [documents] at none
    rintro text (given | given)
    · obtain ⟨j, present, _⟩ := Option.map_eq_some_iff.mp given
      exact absurd (none j (by simp [present])) List.not_mem_nil
    · obtain ⟨j, present, _⟩ := Option.map_eq_some_iff.mp given
      exact absurd (none j (by simp [present])) List.not_mem_nil
  have read := widget_run_createWidget letters_injective (w := wideWidget "" 32766)
    (by simp [documents_wideWidget])
  have stored : "a" ∈ (run letters [.createWidget (wideWidget "" 32766)]).widgetIds := by
    have top := id_mem_extend {} ((wideWidget "" 32766).renew letters 0)
    rwa [← run_createWidget letters_injective, Widget.id_renew] at top
  obtain ⟨w, found, _, _, refuses⟩ := exists_writesBack letters_ne_empty
    (sound_run letters_injective _ fun _ _ _ _ => trivial) reprints stored
  cases found.symm.trans read
  have crowded : Crowded ((wideWidget "" 32766).renew letters 0).nodes := by
    rw [wideWidget, Widget.renew, Widget.nodes, crowded_cons, Widget.length_renewList,
      List.length_replicate]
    exact Or.inl (Nat.le_refl _)
  obtain ⟨offset, text, refused⟩ := refuses crowded
  refine ⟨reprints, _, read, ?_⟩
  rw [refused]
  simp

/-- The page with a document and nothing in it. -/
def documentPage (j : Json) : Widget := { id := "a", name := "page", kind := "row", props := some j }

theorem widget_documentPage (wellFormed : WellFormed s) {j j' : Json}
    (alone : s.widgets = [⟨"a", "page", "row", some j.compact, none, none⟩])
    (parsed : Json.parse? j.compact = some j') : s.widget "a" = .ok (documentPage j'.dedup) := by
  have stored : (⟨"a", "page", "row", some j.compact, none, none⟩ : StoredWidget) ∈ s.widgets := by
    simp [alone]
  have readable : ∀ r ∈ s.widgetRows "a", r.read = .ok r.row := by
    intro r found
    have inside := (of_mem_widgetRows wellFormed stored found).1
    rw [alone, List.mem_singleton] at inside
    rw [inside]
    refine StoredWidget.read_eq fun text given => ?_
    simp only [Option.some.injEq, reduceCtorEq, or_false] at given
    rw [← given, Readable, parsed, Option.isSome_some]
  have row : s.widgets.map StoredWidget.row = [⟨"a", "page", "row", some j'.dedup, none, none⟩] := by
    simp [alone, StoredWidget.row, parsed]
  have page : (documentPage j'.dedup).ReadFrom (s.widgets.map StoredWidget.row) := by
    rw [row]
    exact ⟨⟨none, List.mem_singleton_self _⟩, rfl, trivial⟩
  exact widget_of_readFrom wellFormed (List.mem_map_of_mem stored) readable page

/-- A number whose text is read as the number before it, which is true of that one as well. -/
def sinking : Json := .float ⟨0x3e069813a00da98c⟩

def belowSinking : Json := .float ⟨0x3e069813a00da98b⟩

theorem compact_float {x : Binary64} {c : Nat} {t : Int} (finite : x.isFinite = true)
    (positive : x.isNegative = false) (nonzero : x.isZero = false)
    (same : Shortest.digits x = (c, t)) :
    (Json.float x).compact = Shortest.jsonLayout.write c t := by
  rw [Json.compact, Json.floatText, if_pos finite, Shortest.text, nonzero, positive, same]
  exact String.empty_append

/-- Sixteen digits of which the first is the tenth one behind the point. -/
theorem write_sixteen {c : Nat} {digits : String} (same : Nat.toDigits 10 c = digits.toList)
    (sixteen : digits.length = 16) :
    Shortest.jsonLayout.write c (-25) =
      String.ofList (digits.toList.take 1) ++ "." ++ String.ofList (digits.toList.drop 1) ++
        "e-10" := by
  have text : toString c = digits := by
    rw [Nat.toString_eq_repr, ← String.toList_inj, Nat.toList_repr, same]
  have tail : digits.toList.tail ≠ [] := by
    rw [Ne, ← List.length_eq_zero_iff, List.length_tail, String.length_toList, sixteen]
    decide
  have exponent : (-10 : Int).repr = "-10" := rfl
  simp [Shortest.Layout.write, text, sixteen, Shortest.jsonLayout, tail, exponent,
    String.append_assoc]

theorem compact_sinking : sinking.compact = "6.575733847251497e-10" := by
  have digits : Shortest.digits ⟨0x3e069813a00da98c⟩ = (6575733847251497, -25) := by decide +kernel
  rw [sinking, compact_float (by decide) (by decide) (by decide) digits,
    write_sixteen (by decide +kernel : _ = "6575733847251497".toList) (by decide)]
  decide

theorem parse?_sinking : Json.parse? sinking.compact = some belowSinking := by
  rw [compact_sinking]
  decide +kernel

theorem compact_belowSinking : belowSinking.compact = "6.575733847251496e-10" := by
  have digits : Shortest.digits ⟨0x3e069813a00da98b⟩ = (6575733847251496, -25) := by decide +kernel
  rw [belowSinking, compact_float (by decide) (by decide) (by decide) digits,
    write_sixteen (by decide +kernel : _ = "6575733847251496".toList) (by decide)]
  decide

theorem widgets_run_documentPage (j : Json) :
    (run letters [.createWidget (documentPage j)]).widgets =
      [⟨"a", "page", "row", some j.compact, none, none⟩] :=
  rfl

theorem outcome_edit_documentPage (j j' : Json) :
    (outcome (editWidget letters (documentPage j'))
      (run letters [.createWidget (documentPage j)])).1 = .ok () ∧
    (outcome (editWidget letters (documentPage j'))
      (run letters [.createWidget (documentPage j)])).2.widgets =
        [⟨"a", "page", "row", some j'.compact, none, none⟩] := by
  have rows := widgets_run_documentPage j
  have wellFormed := wellFormed_run letters_injective [.createWidget (documentPage j)]
  have edited : outcome (editWidget letters (documentPage j'))
      (run letters [.createWidget (documentPage j)]) = (.ok (), _) :=
    outcome_edit_childless wellFormed (by simp [hasWidget_iff, widgetIds, rowIds, rows])
      (by simp [rows])
  rw [edited]
  exact ⟨rfl, by simp [changeWidget, rows]⟩

/-- A widget with as many children as a statement takes parameters cannot be written back, and a
document that printing does not give back is written otherwise. -/
theorem editWidget_writesOtherwise :
    ((∀ r ∈ (run letters [.createWidget (wideWidget "" 32766)]).widgets, ∀ text,
        r.props = some text ∨ r.query = some text → Reprints text) ∧
      ∃ w, (run letters [.createWidget (wideWidget "" 32766)]).widget "a" = .ok w ∧
        (outcome (editWidget letters w)
          (run letters [.createWidget (wideWidget "" 32766)])).1 ≠ .ok ()) ∧
    ∃ w, (run letters [.createWidget (documentPage sinking)]).widget "a" = .ok w ∧
      (outcome (editWidget letters w) (run letters [.createWidget (documentPage sinking)])).1 =
        .ok () ∧
      (outcome (editWidget letters w) (run letters [.createWidget (documentPage sinking)])).2 ≠
        run letters [.createWidget (documentPage sinking)] := by
  have wellFormed := wellFormed_run letters_injective [.createWidget (documentPage sinking)]
  have read := widget_documentPage wellFormed (widgets_run_documentPage sinking) parse?_sinking
  obtain ⟨success, after⟩ := outcome_edit_documentPage sinking belowSinking
  refine ⟨exists_widget_refused, _, read, success, fun same => ?_⟩
  have rows := after.symm.trans ((congrArg Store.widgets same).trans
    (widgets_run_documentPage sinking))
  rw [compact_sinking, compact_belowSinking] at rows
  exact absurd rows (by decide)

end Store

end QueryBoard
