import QueryBoard.Json.Decode
import QueryBoard.Proofs.Fallible
import QueryBoard.Proofs.Number.Finite

/-!
# What decoders yield

A JSON value has integers of 64 bits, with a sign or without, and finite numbers beside them.
`Yields` says what every value has that a decoder makes of such a document; it goes through options,
lists, the entries of an object and the items of an array that stands for one.
-/

set_option autoImplicit false

namespace QueryBoard

variable {α β : Type}

attribute [local simp] ok_bind pure_eq_ok map_ok

/-! ## Numbers -/

namespace Json

mutual

/-- Whether every number in the value is one that a JSON value can have. -/
def Representable : Json → Prop
  | .int n => -Int.pow 2 63 ≤ n ∧ n < Int.pow 2 64
  | .float x => x.isFinite = true
  | .arr items => RepresentableItems items
  | .obj fields => RepresentableFields fields
  | .null | .bool _ | .str _ => True

def RepresentableItems : List Json → Prop
  | [] => True
  | j :: rest => Representable j ∧ RepresentableItems rest

def RepresentableFields : List (String × Json) → Prop
  | [] => True
  | (_, j) :: rest => Representable j ∧ RepresentableFields rest

end

end Json

namespace Document

mutual

def Representable : Document → Prop
  | .int n => -Int.pow 2 63 ≤ n ∧ n < Int.pow 2 64
  | .float x => x.isFinite = true
  | .arr items => RepresentableItems items
  | .obj entries => RepresentableEntries entries
  | .null | .bool _ | .str _ | .valueless | .broken => True

def RepresentableItems : List Document → Prop
  | [] => True
  | d :: rest => Representable d ∧ RepresentableItems rest

def RepresentableEntries : List (Option String × Document) → Prop
  | [] => True
  | (_, d) :: rest => Representable d ∧ RepresentableEntries rest

end

theorem representableItems_iff (ds : List Document) :
    RepresentableItems ds ↔ ∀ d ∈ ds, d.Representable := by
  induction ds with
  | nil => simp [RepresentableItems]
  | cons d rest ih => simp [RepresentableItems, ih]

end Document

namespace Json

mutual

theorem representable_document : (j : Json) → j.Representable → j.document.Representable
  | .int _, range | .float _, range => range
  | .arr items, range => by
      rw [document, Document.Representable]
      rw [Representable] at range
      exact representable_documentItems items range
  | .obj fields, range => by
      rw [document, Document.Representable]
      rw [Representable] at range
      exact representable_documentFields fields range
  | .null, _ | .bool _, _ | .str _, _ => trivial

theorem representable_documentItems : (items : List Json) → RepresentableItems items →
    Document.RepresentableItems (documentItems items)
  | [], _ => trivial
  | j :: rest, range => by
      rw [documentItems, Document.RepresentableItems]
      rw [RepresentableItems] at range
      exact ⟨representable_document j range.1, representable_documentItems rest range.2⟩

theorem representable_documentFields : (fields : List (String × Json)) →
    RepresentableFields fields → Document.RepresentableEntries (documentFields fields)
  | [], _ => trivial
  | (_, j) :: rest, range => by
      rw [documentFields, Document.RepresentableEntries]
      rw [RepresentableFields] at range
      exact ⟨representable_document j range.1, representable_documentFields rest range.2⟩

end

end Json

namespace Document

mutual

theorem representable_json? : (d : Document) → d.Representable → ∀ j, d.json? = some j →
    j.Representable
  | .int _, range, j, value | .float _, range, j, value => by
      cases value
      exact range
  | .arr items, range, j, value => by
      rw [json?] at value
      rw [Representable] at range
      obtain ⟨js, each, rfl⟩ := Option.map_eq_some_iff.mp value
      rw [Json.Representable]
      exact representable_jsonItems? items range js each
  | .obj entries, range, j, value => by
      rw [json?] at value
      rw [Representable] at range
      obtain ⟨fields, each, rfl⟩ := Option.map_eq_some_iff.mp value
      rw [Json.Representable]
      exact representable_jsonFields? entries range fields each
  | .null, _, j, value | .bool _, _, j, value | .str _, _, j, value => by
      cases value
      trivial
  | .valueless, _, _, value | .broken, _, _, value => by cases value

theorem representable_jsonItems? : (ds : List Document) → RepresentableItems ds → ∀ js,
    jsonItems? ds = some js → Json.RepresentableItems js
  | [], _, js, value => by
      cases value
      trivial
  | d :: rest, range, js, value => by
      rw [RepresentableItems] at range
      obtain ⟨j, first, value⟩ := Option.bind_eq_some_iff.mp value
      obtain ⟨js, later, same⟩ := Option.bind_eq_some_iff.mp value
      cases same
      exact ⟨representable_json? d range.1 j first, representable_jsonItems? rest range.2 js later⟩

theorem representable_jsonFields? : (entries : List (Option String × Document)) →
    RepresentableEntries entries → ∀ fields, jsonFields? entries = some fields →
    Json.RepresentableFields fields
  | [], _, fields, value => by
      cases value
      trivial
  | (key, d) :: rest, range, fields, value => by
      rw [RepresentableEntries] at range
      obtain ⟨key, _, value⟩ := Option.bind_eq_some_iff.mp value
      obtain ⟨j, first, value⟩ := Option.bind_eq_some_iff.mp value
      obtain ⟨fields, later, same⟩ := Option.bind_eq_some_iff.mp value
      cases same
      exact ⟨representable_json? d range.1 j first,
        representable_jsonFields? rest range.2 fields later⟩

end

theorem toJson_eq_ok_iff {d : Document} {j : Json} : d.toJson = .ok j ↔ d.json? = some j := by
  unfold toJson
  cases d.json? <;> simp

/-- Only null has the value null. -/
theorem eq_null_of_json? {d : Document} (value : d.json? = some .null) : d = .null := by
  cases d with
  | null => rfl
  | arr items =>
      rw [json?] at value
      obtain ⟨_, _, same⟩ := Option.map_eq_some_iff.mp value
      cases same
  | obj entries =>
      rw [json?] at value
      obtain ⟨_, _, same⟩ := Option.map_eq_some_iff.mp value
      cases same
  | _ => cases value

/-! ## What a decoder yields -/

/-- Whether every value that a decoder makes of a representable document has a property. -/
def Yields (read : Document → Decoded α) (P : α → Prop) : Prop :=
  ∀ d, d.Representable → ∀ a, read d = .ok a → P a

variable {read : Document → Decoded α} {P : α → Prop}

theorem yields_true (read : Document → Decoded α) : Yields read fun _ => True :=
  fun _ _ _ _ => trivial

theorem Yields.toOption (yields : Yields read P) :
    Yields (Document.toOption read) fun o => ∀ a ∈ o, P a := by
  intro d range o success a member
  unfold Document.toOption at success
  split at success
  · cases success
    cases member
  · obtain ⟨b, decoded, same⟩ := bind_eq_ok_iff.mp success
    cases same
    cases member
    exact yields d range a decoded

theorem Yields.toList (yields : Yields read P) :
    Yields (Document.toList read) fun as => ∀ a ∈ as, P a := by
  intro d range as success a member
  unfold Document.toList at success
  split at success
  · next items =>
      rw [Representable, representableItems_iff] at range
      obtain ⟨d, inside, decoded⟩ := exists_of_mem_mapM success a member
      exact yields d (range d inside) a decoded
  · cases success

/-- What is in a slot after one more entry. -/
theorem Yields.fill (yields : Yields read P) {d : Document} (range : d.Representable)
    {slot filled : Option α} (success : Document.fill slot read d = .ok filled) :
    ∀ a ∈ filled, P a := by
  unfold Document.fill at success
  split at success
  · obtain ⟨b, decoded, same⟩ := bind_eq_ok_iff.mp success
    cases same
    intro a member
    cases member
    exact yields d range b decoded
  · cases success

/-- What holds of the slots before an object's entries are read, and after one more entry, holds of
them after all. -/
theorem foldlM_yields {S : Type} {step : S → Entry → Decoded S} {P : S → Prop}
    (each : ∀ {s s' : S}, P s → ∀ {e : Entry}, e.2.Representable → step s e = .ok s' → P s') :
    ∀ {entries : List Entry}, RepresentableEntries entries → ∀ {s s' : S}, P s →
      entries.foldlM step s = .ok s' → P s'
  | [], _, s, s', start, success => by
      cases success
      exact start
  | e :: rest, range, s, s', start, success => by
      rw [RepresentableEntries] at range
      rw [List.foldlM_cons] at success
      obtain ⟨mid, first, later⟩ := bind_eq_ok_iff.mp success
      exact foldlM_yields each range.2 (each start range.1 first) later

/-- An entry that is left out changes nothing. -/
theorem skip_eq_ok {a b : α} {entry : Entry} (success : skip a entry = .ok b) : b = a := by
  unfold skip at success
  split at success <;> cases success
  rfl

theorem keep_eq_ok {a b : α} {entry : Entry} (success : keep a entry = .ok b) : b = a := by
  unfold keep at success
  split at success <;> cases success
  rfl

theorem required_eq_ok {name : String} {slot : Option α} {a : α}
    (success : required name slot = .ok a) : slot = some a := by
  cases slot <;> cases success
  rfl

/-- What holds of every element of a list in a slot holds of every element of the list that comes
out, none being left when the slot is empty. -/
theorem forall_mem_getD {slot : Option (List α)} (each : ∀ as ∈ slot, ∀ a ∈ as, P a) :
    ∀ a ∈ slot.getD [], P a := by
  cases slot with
  | none => simp
  | some as => exact each as rfl

/-! ## Arrays that stand for objects -/

/-- What a reading of items yields, while it leaves representable ones. -/
def ItemsYield (reading : Items α) (P : α → Prop) : Prop :=
  ∀ ds, RepresentableItems ds → ∀ a rest, reading.run ds = .ok (a, rest) →
    P a ∧ RepresentableItems rest

theorem ItemsYield.pure {a : α} (holds : P a) : ItemsYield (Pure.pure a) P := by
  intro ds range b rest success
  cases success
  exact ⟨holds, range⟩

theorem ItemsYield.bind {reading : Items α} (first : ItemsYield reading P) {next : α → Items β}
    {Q : β → Prop} (then_ : ∀ a, P a → ItemsYield (next a) Q) : ItemsYield (reading >>= next) Q := by
  intro ds range b rest success
  obtain ⟨⟨a, mid⟩, read, later⟩ := bind_eq_ok_iff.mp success
  obtain ⟨holds, left⟩ := first ds range a mid read
  exact then_ a holds mid left b rest later

theorem Yields.item (yields : Yields read P) : ItemsYield (Document.item read) P := by
  intro ds range a rest success
  cases ds with
  | nil => cases success
  | cons d ds =>
      rw [RepresentableItems] at range
      obtain ⟨b, decoded, same⟩ := bind_eq_ok_iff.mp success
      cases same
      exact ⟨yields d range.1 a decoded, range.2⟩

theorem Yields.itemOr (yields : Yields read P) (default : α) (holds : P default) :
    ItemsYield (Document.itemOr default read) P := by
  intro ds range a rest success
  cases ds with
  | nil =>
      cases success
      exact ⟨holds, trivial⟩
  | cons d ds =>
      rw [RepresentableItems] at range
      obtain ⟨b, decoded, same⟩ := bind_eq_ok_iff.mp success
      cases same
      exact ⟨yields d range.1 a decoded, range.2⟩

theorem ItemsYield.allItems {reading : Items α} (yields : ItemsYield reading P) {ds : List Document}
    (range : RepresentableItems ds) {a : α} (success : Document.allItems reading ds = .ok a) :
    P a := by
  obtain ⟨⟨b, rest⟩, read, last⟩ := bind_eq_ok_iff.mp success
  have same : b = a := by
    simp only at last
    split at last <;> cases last
    rfl
  exact same ▸ (yields ds range b rest read).1

end Document

/-! ## Round trips -/

namespace Json

theorem documentItems_eq_map (items : List Json) : documentItems items = items.map document := by
  induction items with
  | nil => rfl
  | cons j rest ih => rw [documentItems, ih, List.map_cons]

theorem documentFields_eq_map (fields : List (String × Json)) :
    documentFields fields = fields.map fun e => (some e.1, e.2.document) := by
  induction fields with
  | nil => rfl
  | cons e rest ih => rw [documentFields, ih, List.map_cons]

@[simp]
theorem document_obj (fields : List (String × Json)) :
    (obj fields).document = .obj (fields.map fun e => (some e.1, e.2.document)) := by
  rw [document, documentFields_eq_map]

mutual

theorem isUnbroken_document : (j : Json) → j.document.isUnbroken = true
  | .null | .bool _ | .int _ | .float _ | .str _ => rfl
  | .arr items => by
      rw [document, Document.isUnbroken]
      exact allUnbroken_documentItems items
  | .obj fields => by
      rw [document, Document.isUnbroken]
      exact entriesUnbroken_documentFields fields

theorem allUnbroken_documentItems : (items : List Json) →
    Document.allUnbroken (documentItems items) = true
  | [] => rfl
  | j :: rest => by
      rw [documentItems, Document.allUnbroken, isUnbroken_document j, allUnbroken_documentItems rest]
      rfl

theorem entriesUnbroken_documentFields : (fields : List (String × Json)) →
    Document.entriesUnbroken (documentFields fields) = true
  | [] => rfl
  | (_, j) :: rest => by
      rw [documentFields, Document.entriesUnbroken, isUnbroken_document j,
        entriesUnbroken_documentFields rest]
      rfl

end

@[simp]
theorem toJson_document (j : Json) : j.document.toJson = .ok j :=
  Document.toJson_eq_ok_iff.mpr j.json?_document

@[simp]
theorem skip_document (a : α) (key : String) (j : Json) :
    Document.skip a (some key, j.document) = .ok a := by
  simp [Document.skip, isUnbroken_document]

@[simp]
theorem keep_document (a : α) (key : String) (j : Json) :
    Document.keep a (some key, j.document) = .ok a := by
  simp [Document.keep, json?_document]

@[simp]
theorem fill_none (read : Document → Decoded α) (d : Document) :
    Document.fill none read d = some <$> read d := rfl

@[simp]
theorem required_some (name : String) (a : α) : Document.required name (some a) = .ok a := rfl

@[simp]
theorem toText_str (s : String) : (str s).document.toText = .ok s := rfl

@[simp]
theorem toBool_bool (b : Bool) : (bool b).document.toBool = .ok b := rfl

theorem toNatBelow_int {bound n : Nat} (below : n < bound) :
    (int n).document.toNatBelow bound = .ok n := by
  rw [document, Document.toNatBelow, if_pos ⟨by omega, by omega⟩, Int.toNat_natCast]

@[simp]
theorem toUInt8_int (n : UInt8) : (int n.toNat).document.toUInt8 = .ok n := by
  rw [Document.toUInt8, toNatBelow_int n.toNat_lt, map_ok, UInt8.ofNat_toNat]

@[simp]
theorem toUInt32_int (n : UInt32) : (int n.toNat).document.toUInt32 = .ok n := by
  rw [Document.toUInt32, toNatBelow_int n.toNat_lt, map_ok, UInt32.ofNat_toNat]

@[simp]
theorem toUInt64_int (n : UInt64) : (int n.toNat).document.toUInt64 = .ok n := by
  rw [Document.toUInt64, toNatBelow_int n.toNat_lt, map_ok, UInt64.ofNat_toNat]

@[simp]
theorem toOption_str (s : String) :
    Document.toOption Document.toText (str s).document = .ok (some s) := rfl

theorem toOption_eq_map {j : Json} (some_ : j ≠ .null) (read : Document → Decoded α) :
    Document.toOption read j.document = some <$> read j.document := by
  cases j with
  | null => exact absurd rfl some_
  | _ => rfl

theorem toOption_document {read : Document → Decoded α} {j : Json} {a : α} (some_ : j ≠ .null)
    (success : read j.document = .ok a) :
    Document.toOption read j.document = .ok (some a) := by
  rw [toOption_eq_map some_, success, map_ok]

/-- A list is decoded from its items' values if each item is. -/
theorem toList_arr_map {read : Document → Decoded β} {write : α → Json} {f : α → β} {as : List α}
    (each : ∀ a ∈ as, read (write a).document = .ok (f a)) :
    Document.toList read (Json.arr (as.map write)).document = .ok (as.map f) := by
  have mapped : (as.map (document ∘ write)).mapM read = .ok (as.map f) := by
    rw [mapM_eq_ok_iff, List.forall₂_map_left_iff, List.forall₂_map_right_iff, List.forall₂_same]
    exact each
  rw [document, Document.toList, documentItems_eq_map, List.map_map]
  exact mapped

theorem toList_arr {read : Document → Decoded α} {write : α → Json} {as : List α}
    (each : ∀ a ∈ as, read (write a).document = .ok a) :
    Document.toList read (Json.arr (as.map write)).document = .ok as := by
  simpa using toList_arr_map (f := id) each

end Json

end QueryBoard
