import QueryBoard.Proofs.Number.Nearest
import QueryBoard.Proofs.Wire.Query

/-!
# Which JSON is a value

Every JSON value without an object in it is a value, and is what that value is written as, but for
integers beyond 64 bits with a sign, which become floating point.  Null is a value of its own in a
list and where a value stands alone; in a column it is no value.
-/

set_option autoImplicit false

namespace QueryBoard

attribute [local simp] ok_bind pure_eq_ok map_ok

namespace Json

/-- Whether a JSON value stands somewhere in another one, at any depth. -/
inductive Within (i : Json) : Json → Prop where
  | here : Within i i
  | item {items : List Json} {j : Json} : j ∈ items → Within i j → Within i (.arr items)
  | entry {fields : List (String × Json)} {e : String × Json} :
      e ∈ fields → Within i e.2 → Within i (.obj fields)

theorem representable_of_mem {j : Json} : ∀ {items : List Json}, j ∈ items →
    RepresentableItems items → j.Representable
  | _ :: _, .head _, range => range.1
  | _ :: _, .tail _ member, range => representable_of_mem member range.2

theorem representable_of_mem_fields {e : String × Json} : ∀ {fields : List (String × Json)},
    e ∈ fields → RepresentableFields fields → e.2.Representable
  | _ :: _, .head _, range => range.1
  | _ :: _, .tail _ member, range => representable_of_mem_fields member range.2

theorem Within.representable {i j : Json} (within : Within i j) (range : j.Representable) :
    i.Representable := by
  induction within with
  | here => exact range
  | item member _ ih => exact ih (representable_of_mem member range)
  | entry member _ ih => exact ih (representable_of_mem_fields member range)

/-- Whether an integer fits 64 bits with a sign. -/
def FitsInt64 (n : Int) : Prop := -Int.pow 2 63 ≤ n ∧ n < Int.pow 2 63

instance (n : Int) : Decidable (FitsInt64 n) := inferInstanceAs (Decidable (_ ∧ _))

/-- Whether a JSON value means a value: null, truth values, texts and floating-point numbers mean
themselves, and so does an integer that fits; another one means the number that it rounds to.  A
list means the list of what its items mean. -/
inductive Means : Json → Value → Prop where
  | null : Means .null .null
  | bool (b : Bool) : Means (.bool b) (.bool b)
  | str (s : String) : Means (.str s) (.str s)
  | float (x : Binary64) : Means (.float x) (.float x)
  | int {n : Int} : FitsInt64 n → Means (.int n) (.int (Int64.ofInt n))
  | beyond {n : Int} : ¬ FitsInt64 n → Means (.int n) (.float (Binary64.ofInt n))
  | list {items : List Json} {vs : List Value} :
      List.Forall₂ Means items vs → Means (.arr items) (.list vs)

mutual

/-- The value with floating-point numbers in the place of integers that do not fit. -/
def rounded : Json → Json
  | .int n => if FitsInt64 n then .int n else .float (Binary64.ofInt n)
  | .arr items => .arr (roundedItems items)
  | .obj fields => .obj fields
  | .null => .null
  | .bool b => .bool b
  | .float x => .float x
  | .str s => .str s

def roundedItems : List Json → List Json
  | [] => []
  | j :: rest => rounded j :: roundedItems rest

end

end Json

open Json (Within Means FitsInt64)

namespace Value

/-! ## Reading -/

theorem decode_eq_ofJson (j : Json) : j.decode ofDocument = ofJson j := by
  rw [Json.decode, ofDocument, Json.toJson_document, ok_bind]

mutual

theorem means_of_ofJson : (j : Json) → (v : Value) → ofJson j = .ok v → j.Means v
  | .null, _, read => by
      cases read
      exact .null
  | .bool b, _, read => by
      cases read
      exact .bool b
  | .str s, _, read => by
      cases read
      exact .str s
  | .float x, _, read => by
      cases read
      exact .float x
  | .int n, _, read => by
      cases read
      unfold ofInt
      split
      · next fits => exact .int fits
      · next beyond => exact .beyond beyond
  | .arr items, _, read => by
      obtain ⟨vs, each, same⟩ := bind_eq_ok_iff.mp read
      cases same
      exact .list (means_of_ofJsonList items vs each)
  | .obj _, _, read => by cases read

theorem means_of_ofJsonList : (items : List Json) → (vs : List Value) →
    ofJsonList items = .ok vs → List.Forall₂ Means items vs
  | [], _, read => by
      cases read
      exact .nil
  | j :: rest, _, read => by
      obtain ⟨v, first, read⟩ := bind_eq_ok_iff.mp read
      obtain ⟨vs, later, same⟩ := bind_eq_ok_iff.mp read
      cases same
      exact .cons (means_of_ofJson j v first) (means_of_ofJsonList rest vs later)

end

mutual

theorem ofJson_of_means : (j : Json) → (v : Value) → j.Means v → ofJson j = .ok v
  | .null, _, .null | .bool _, _, .bool _ | .str _, _, .str _ | .float _, _, .float _ => rfl
  | .int _, _, .int fits => congrArg Except.ok (if_pos fits)
  | .int _, _, .beyond beyond => congrArg Except.ok (if_neg beyond)
  | .arr items, .list vs, .list each => by
      rw [ofJson, ofJsonList_of_means items vs each, map_ok]

theorem ofJsonList_of_means : (items : List Json) → (vs : List Value) →
    List.Forall₂ Means items vs → ofJsonList items = .ok vs
  | [], _, .nil => rfl
  | j :: rest, v :: vs, .cons first later => by
      rw [ofJsonList, ofJson_of_means j v first, ok_bind, ofJsonList_of_means rest vs later,
        ok_bind]
      rfl

end

/-- Reading gives what is meant. -/
theorem decode_eq_ok_iff {j : Json} {v : Value} : j.decode ofDocument = .ok v ↔ j.Means v := by
  rw [decode_eq_ofJson]
  exact ⟨means_of_ofJson j v, ofJson_of_means j v⟩

/-! ## Objects -/

mutual

theorem exists_means_iff : (j : Json) → (∃ v, j.Means v) ↔ ∀ fields, ¬ Within (.obj fields) j
  | .null => ⟨fun _ _ => nofun, fun _ => ⟨.null, .null⟩⟩
  | .bool b => ⟨fun _ _ => nofun, fun _ => ⟨.bool b, .bool b⟩⟩
  | .str s => ⟨fun _ _ => nofun, fun _ => ⟨.str s, .str s⟩⟩
  | .float x => ⟨fun _ _ => nofun, fun _ => ⟨.float x, .float x⟩⟩
  | .int n => by
      refine ⟨fun _ _ => nofun, fun _ => ?_⟩
      by_cases fits : FitsInt64 n
      · exact ⟨_, .int fits⟩
      · exact ⟨_, .beyond fits⟩
  | .arr items => by
      constructor
      · rintro ⟨_, means⟩ fields within
        cases means with
        | list each =>
            cases within with
            | item member within =>
                exact (exists_means_items_iff items).mp ⟨_, each⟩ _ member fields within
      · intro free
        obtain ⟨vs, each⟩ := (exists_means_items_iff items).mpr
          fun j member fields within => free fields (.item member within)
        exact ⟨.list vs, .list each⟩
  | .obj fields => by
      constructor
      · rintro ⟨_, means⟩
        cases means
      · intro free
        exact absurd Within.here (free fields)

theorem exists_means_items_iff : (items : List Json) →
    (∃ vs, List.Forall₂ Means items vs) ↔ ∀ j ∈ items, ∀ fields, ¬ Within (.obj fields) j
  | [] => ⟨fun _ _ => nofun, fun _ => ⟨[], .nil⟩⟩
  | j :: rest => by
      rw [List.forall_mem_cons, ← exists_means_iff j, ← exists_means_items_iff rest]
      constructor
      · rintro ⟨_, each⟩
        cases each with
        | cons first later => exact ⟨⟨_, first⟩, _, later⟩
      · rintro ⟨⟨v, first⟩, vs, later⟩
        exact ⟨v :: vs, .cons first later⟩

end

/-! ## Writing -/

mutual

theorem toJson_of_means : (j : Json) → j.Representable → (v : Value) → j.Means v →
    v.toJson = j.rounded
  | .null, _, _, .null | .bool _, _, _, .bool _ | .str _, _, _, .str _ => rfl
  | .float _, finite, _, .float _ => if_pos finite
  | .int n, _, _, .int fits => by
      rw [toJson, Json.rounded, if_pos fits, Int64.toInt_ofInt_of_le fits.1 fits.2]
  | .int n, range, _, .beyond beyond => by
      rw [toJson, Json.rounded, if_neg beyond, floatJson,
        if_pos (Binary64.isFinite_ofInt range.1 range.2)]
  | .arr items, range, .list vs, .list each => by
      rw [toJson, Json.rounded, toJsonList_of_means items range vs each]

theorem toJsonList_of_means : (items : List Json) → Json.RepresentableItems items →
    (vs : List Value) → List.Forall₂ Means items vs → toJsonList vs = Json.roundedItems items
  | [], _, _, .nil => rfl
  | j :: rest, range, v :: vs, .cons first later => by
      rw [toJsonList, Json.roundedItems, toJson_of_means j range.1 v first,
        toJsonList_of_means rest range.2 vs later]

end

end Value

namespace Json

mutual

/-- Without integers that do not fit nothing is rounded. -/
theorem rounded_of_fits : (j : Json) → (∀ n, Within (.int n) j → FitsInt64 n) → j.rounded = j
  | .null, _ | .bool _, _ | .str _, _ | .float _, _ | .obj _, _ => rfl
  | .int n, fits => by rw [rounded, if_pos (fits n .here)]
  | .arr items, fits => by
      rw [rounded, roundedItems_of_fits items
        fun j member n within => fits n (.item member within)]

theorem roundedItems_of_fits : (items : List Json) →
    (∀ j ∈ items, ∀ n, Within (.int n) j → FitsInt64 n) → roundedItems items = items
  | [], _ => rfl
  | j :: rest, fits => by
      rw [roundedItems, rounded_of_fits j (fits j List.mem_cons_self),
        roundedItems_of_fits rest fun j member => fits j (List.mem_cons_of_mem _ member)]

end

/-- Whether a JSON value gives a column a value: null gives none, and no other one does. -/
inductive Gives : Json → Option Value → Prop where
  | absent : Gives .null none
  | present {j : Json} {v : Value} : j ≠ .null → j.Means v → Gives j (some v)

end Json

open Json (Gives)

/-! ## Columns -/

namespace ColumnRef

theorem gives_iff {j : Json} {o : Option Value} :
    Document.toOption Value.ofDocument j.document = .ok o ↔ j.Gives o := by
  constructor
  · intro read
    by_cases null : j = .null
    · subst null
      cases read
      exact .absent
    · obtain ⟨v, means, same⟩ := bind_eq_ok_iff.mp ((Json.toOption_eq_map null _).symm.trans read)
      cases same
      exact .present null (Value.decode_eq_ok_iff.mp means)
  · rintro (_ | ⟨some_, means⟩)
    · rfl
    · exact Json.toOption_document some_ (Value.decode_eq_ok_iff.mpr means)

/-- The reading of another entry neither looks at the value nor sets it. -/
theorem Slots.read_value (s : Slots) (o : Option (Option Value)) {e : Document.Entry}
    (other : e.1 ≠ some "value") :
    ({ s with value := o } : Slots).read e = (fun s => { s with value := o }) <$> s.read e := by
  unfold Slots.read
  split
  · next d => cases Document.fill s.tableKey TableKey.ofDocument d <;> rfl
  · next d => cases Document.fill s.func Aggregate.ofDocument? d <;> rfl
  · next d => cases Document.fill s.payload Payload.ofDocument d <;> rfl
  · exact absurd rfl other
  · unfold Document.keep
    split <;> rfl

theorem Slots.foldlM_value (o : Option (Option Value)) :
    ∀ (entries : List Document.Entry) (s : Slots), (∀ e ∈ entries, e.1 ≠ some "value") →
    entries.foldlM Slots.read { s with value := o } =
      (fun s => { s with value := o }) <$> entries.foldlM Slots.read s
  | [], _, _ => rfl
  | e :: rest, s, others => by
      rw [List.foldlM_cons, List.foldlM_cons, Slots.read_value s o (others e List.mem_cons_self)]
      cases s.read e with
      | error e => rfl
      | ok s' =>
          exact foldlM_value o rest s' fun x member => others x (List.mem_cons_of_mem e member)

/-- Other entries leave the value as it is. -/
theorem Slots.value_eq {entries : List Document.Entry} {s s' : Slots}
    (others : ∀ e ∈ entries, e.1 ≠ some "value") (read : entries.foldlM Slots.read s = .ok s') :
    s'.value = s.value := by
  have kept := Slots.foldlM_value s.value entries s others
  rw [read, map_ok] at kept
  have same : s' = { s' with value := s.value } := Except.ok.inj kept
  rw [same]

theorem Column.ofEntries_value (before after : List Document.Entry) (j : Json) :
    Column.ofEntries (before ++ (some "value", j.document) :: after) =
      Column.ofEntries (before ++ after) := by
  have skipped (s : Column.Slots) : s.read (some "value", j.document) = .ok s :=
    Json.skip_document s "value" j
  unfold Column.ofEntries
  rw [List.foldlM_append, List.foldlM_append]
  simp only [List.foldlM_cons, skipped, ok_bind]

theorem ne_value_of_fields {fields : List (String × Json)} (others : ∀ e ∈ fields, e.1 ≠ "value") :
    ∀ e ∈ fields.map fun e => (some e.1, e.2.document), e.1 ≠ some "value" :=
  List.forall_mem_map.mpr fun e member same => others e member (Option.some.inj same)

/-- A value that is added to a column without one is the value of the column, and nothing else of
the column changes. -/
theorem ofDocument_value {before after : List (String × Json)} {c : ColumnRef} (j : Json)
    (others : ∀ e ∈ before ++ after, e.1 ≠ "value")
    (success : (Json.obj (before ++ after)).decode ofDocument = .ok c) :
    (Json.obj (before ++ ("value", j) :: after)).decode ofDocument =
      (fun o => { c with value := o }) <$> Document.toOption Value.ofDocument j.document := by
  rw [Json.decode, Json.document_obj, List.map_append] at success
  obtain ⟨s, read, success⟩ := bind_eq_ok_iff.mp success
  obtain ⟨column, fields, same⟩ := bind_eq_ok_iff.mp success
  cases same
  rw [List.foldlM_append] at read
  obtain ⟨s₁, first, later⟩ := bind_eq_ok_iff.mp read
  have ⟨othersBefore, othersAfter⟩ := List.forall_mem_append.mp others
  have empty : s₁.value = none := Slots.value_eq (ne_value_of_fields othersBefore) first
  have here : s₁.read (some "value", j.document) =
      (fun o => { s₁ with value := some o }) <$> Document.toOption Value.ofDocument j.document := by
    rw [Slots.read, empty, Json.fill_none]
    cases Document.toOption Value.ofDocument j.document <;> rfl
  rw [Json.decode, Json.document_obj, List.map_append, List.map_cons, ofDocument,
    List.foldlM_append, first, ok_bind, List.foldlM_cons, here, Column.ofEntries_value, fields]
  cases Document.toOption Value.ofDocument j.document with
  | error e => rfl
  | ok o =>
      rw [map_ok, ok_bind, Slots.foldlM_value (some o) _ s₁ (ne_value_of_fields othersAfter),
        later]
      rfl

theorem value_eq_none {fields : List (String × Json)} {c : ColumnRef}
    (others : ∀ e ∈ fields, e.1 ≠ "value")
    (success : (Json.obj fields).decode ofDocument = .ok c) : c.value = none := by
  rw [Json.decode, Json.document_obj] at success
  obtain ⟨s, read, success⟩ := bind_eq_ok_iff.mp success
  obtain ⟨column, _, same⟩ := bind_eq_ok_iff.mp success
  cases same
  have empty : s.value = none := Slots.value_eq (ne_value_of_fields others) read
  rw [empty, Option.join_none]

end ColumnRef

/-! ## Values and JSON -/

/-- A JSON value is a value exactly when it has no object in it, and then it is the value that it
means; written back it is the same, in the same order and nesting, but for integers that do not fit,
which are the numbers nearest to them.  As the value of a column, null and nothing else is no
value. -/
theorem Json.reads_as_value (j : Json) (range : j.Representable) :
    ((∃ v, j.decode Value.ofDocument = .ok v) ↔ ∀ fields, ¬ Within (.obj fields) j) ∧
    (∀ v, j.decode Value.ofDocument = .ok v ↔ j.Means v) ∧
    (∀ v, j.decode Value.ofDocument = .ok v → v.toJson = j.rounded ∧
      ((∀ n, Within (.int n) j → FitsInt64 n) → v.toJson = j)) ∧
    (∀ n, Within (.int n) j → ¬ FitsInt64 n → Binary64.Rounds n (Binary64.ofInt n)) ∧
    (∀ before after c, (∀ e ∈ before ++ after, e.1 ≠ "value") →
      (Json.obj (before ++ after)).decode ColumnRef.ofDocument = .ok c →
      c.value = none ∧ ∀ c',
        (Json.obj (before ++ ("value", j) :: after)).decode ColumnRef.ofDocument = .ok c' ↔
          ∃ o, j.Gives o ∧ c' = { c with value := o }) := by
  refine ⟨?_, fun v => Value.decode_eq_ok_iff, ?_, ?_, ?_⟩
  · simp only [Value.decode_eq_ok_iff, Value.exists_means_iff]
  · intro v read
    have written := Value.toJson_of_means j range v (Value.decode_eq_ok_iff.mp read)
    exact ⟨written, fun fits => written.trans (rounded_of_fits j fits)⟩
  · intro n within beyond
    have range := Within.representable within range
    have low := range.1
    refine Binary64.rounds_ofInt ?_ range.2
    unfold FitsInt64 at beyond
    omega
  · intro before after c others success
    refine ⟨ColumnRef.value_eq_none others success, fun c' => ?_⟩
    rw [ColumnRef.ofDocument_value j others success]
    constructor
    · intro read
      obtain ⟨o, gives, same⟩ := bind_eq_ok_iff.mp read
      exact ⟨o, ColumnRef.gives_iff.mp gives, (Except.ok.inj same).symm⟩
    · rintro ⟨o, gives, rfl⟩
      rw [ColumnRef.gives_iff.mpr gives, map_ok]

/-- Nulls in a list and in a list of that list, beside the integers at both ends of the range and
the first one beyond it. -/
def edgesJson : Json :=
  .arr [.null, .arr [.int (-9223372036854775808), .null, .int 9223372036854775807],
    .int 9223372036854775808, .bool false]

def edgesValue : Value :=
  .list [.null, .list [.int Int64.minValue, .null, .int Int64.maxValue],
    .float (Binary64.ofInt 9223372036854775808), .bool false]

def idColumn : ColumnRef :=
  { column := { name := "id", type := .unsupported, required := false, primaryKey := false }
    tableKey := ⟨"", 0⟩, func := none, payload := {}, value := none }

theorem Json.reads_as_value_edges :
    edgesJson.Representable ∧ edgesJson.decode Value.ofDocument = .ok edgesValue ∧
    edgesValue.toJson = edgesJson.rounded ∧
    (Json.obj [("name", .str "id")]).decode ColumnRef.ofDocument = .ok idColumn ∧
    (Json.obj [("value", edgesJson), ("name", .str "id")]).decode ColumnRef.ofDocument =
      .ok { idColumn with value := some edgesValue } ∧
    (Json.obj [("value", .null), ("name", .str "id")]).decode ColumnRef.ofDocument =
      .ok idColumn := by
  have range : edgesJson.Representable := by
    refine ⟨trivial, ⟨?_, trivial, ?_, trivial⟩, ?_, trivial, trivial⟩ <;> constructor <;> decide
  have means : edgesJson.Means edgesValue := by
    refine .list (.cons .null (.cons (.list ?_) (.cons (.beyond (by decide)) ?_)))
    · exact .cons (.int (by decide)) (.cons .null (.cons (.int (by decide)) .nil))
    · exact .cons (.bool false) .nil
  have column : (Json.obj [("name", .str "id")]).decode ColumnRef.ofDocument = .ok idColumn := rfl
  have others : ∀ e ∈ [] ++ [("name", Json.str "id")], e.1 ≠ "value" := by decide
  obtain ⟨-, reads, writes, -, columns⟩ := reads_as_value edgesJson range
  have read := (reads edgesValue).mpr means
  have nulls := reads_as_value .null trivial
  exact ⟨range, read, (writes edgesValue read).1, column,
    ((columns [] _ _ others column).2 _).mpr ⟨_, .present nofun means, rfl⟩,
    ((nulls.2.2.2.2 [] _ _ others column).2 _).mpr ⟨_, .absent, rfl⟩⟩

end QueryBoard
