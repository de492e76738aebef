import QueryBoard.Proofs.Json.Distinct
import QueryBoard.Proofs.Wire.Schema
import QueryBoard.Query.Wire

/-!
# Queries are read as they are written

A query is read back when its columns are `Plain`: the other keys of a payload are distinct and none
of the known ones, their contents name no key twice, and a value is given only where it is not null
and has finite numbers.  What is read as a query has plain columns only.
-/

set_option autoImplicit false

namespace QueryBoard

attribute [local simp] ok_bind pure_eq_ok map_ok

open Document (Yields ItemsYield)

@[simp]
theorem Operation.ofDocument_toJson (o : Operation) : ofDocument o.toJson.document = .ok o := by
  cases o <;> rfl

@[simp]
theorem JoinKind.ofDocument_toJson (k : JoinKind) : ofDocument k.toJson.document = .ok k := by
  cases k <;> rfl

@[simp]
theorem Aggregate.ofDocument?_toJson (f : Aggregate) :
    ofDocument? f.toJson.document = .ok (some f) := by
  cases f <;> rfl

@[simp]
theorem TableKey.ofDocument_toJson (k : TableKey) : ofDocument k.toJson.document = .ok k := by
  simp [toJson, toFields, ofDocument, ofEntries, Slots.read, Slots.finish]

/-! ## Payloads -/

namespace Payload

/-- Whether the other entries are what the reading of a payload leaves of them. -/
structure Plain (p : Payload) : Prop where
  distinct : (p.extra.map Prod.fst).Nodup
  others : ∀ e ∈ p.extra, e.1 ≠ "metaKey" ∧ e.1 ≠ "order"
  contents : ∀ e ∈ p.extra, e.2.Distinct

theorem read_other {key : String} (noMetaKey : key ≠ "metaKey") (noOrder : key ≠ "order")
    (s : Slots) (d : Document) : s.read (some key, d) = do
      return { s with extra := Json.upsert s.extra key (← d.toJson).dedup } := by
  unfold Slots.read
  split
  · next same => exact absurd (Option.some.inj (congrArg Prod.fst same)) noMetaKey
  · next same => exact absurd (Option.some.inj (congrArg Prod.fst same)) noOrder
  · next same =>
      cases same
      rfl
  · next same => cases same

/-- Further entries are put behind the ones already read. -/
theorem foldlM_others : ∀ (entries : List (String × Json)) (s : Slots),
    ((s.extra ++ entries).map Prod.fst).Nodup →
    (∀ e ∈ entries, e.1 ≠ "metaKey" ∧ e.1 ≠ "order") → (∀ e ∈ entries, e.2.Distinct) →
    (entries.map fun e => (some e.1, e.2.document)).foldlM Slots.read s =
      .ok { s with extra := s.extra ++ entries }
  | [], s, _, _, _ => by
      rw [List.append_nil]
      rfl
  | e :: rest, s, distinct, others, contents => by
      have known := others e List.mem_cons_self
      have new : e.1 ∉ s.extra.map Prod.fst := by
        rw [List.map_append, List.nodup_append] at distinct
        intro earlier
        exact distinct.2.2 e.1 earlier e.1 (by simp) rfl
      have later := foldlM_others rest { s with extra := s.extra ++ [e] } (by simpa using distinct)
        (fun x member => others x (List.mem_cons_of_mem e member))
        fun x member => contents x (List.mem_cons_of_mem e member)
      rw [List.map_cons, List.foldlM_cons, read_other known.1 known.2, Json.toJson_document]
      simp only [ok_bind, Json.dedup_of_distinct e.2 (contents e List.mem_cons_self),
        Json.upsert_of_not_mem new]
      simpa using later

theorem ofDocument_toJson {p : Payload} (plain : p.Plain) :
    ofDocument p.toJson.document = .ok p := by
  obtain ⟨metaKey, order, extra⟩ := p
  have others (metaKey order : Option (Option String)) :
      (extra.map fun e => (some e.1, e.2.document)).foldlM Slots.read { metaKey, order } =
        .ok { metaKey, order, extra } :=
    foldlM_others extra { metaKey, order } plain.distinct plain.others plain.contents
  cases metaKey <;> cases order <;> simp [toJson, ofDocument, Slots.read, others]

/-- What the slots of a payload have while it is read. -/
structure Slots.Plain (s : Slots) : Prop where
  distinct : (s.extra.map Prod.fst).Nodup
  others : ∀ e ∈ s.extra, e.1 ≠ "metaKey" ∧ e.1 ≠ "order"
  contents : ∀ e ∈ s.extra, e.2.Distinct

theorem Slots.plain_read {s s' : Slots} (plain : s.Plain) {e : Document.Entry}
    (_range : e.2.Representable) (success : s.read e = .ok s') : s'.Plain := by
  unfold Slots.read at success
  split at success
  · obtain ⟨metaKey, _, same⟩ := bind_eq_ok_iff.mp success
    cases same
    exact ⟨plain.distinct, plain.others, plain.contents⟩
  · obtain ⟨order, _, same⟩ := bind_eq_ok_iff.mp success
    cases same
    exact ⟨plain.distinct, plain.others, plain.contents⟩
  · next key d noMetaKey noOrder =>
      obtain ⟨j, _, same⟩ := bind_eq_ok_iff.mp success
      cases same
      refine ⟨Json.nodup_upsert plain.distinct key j.dedup, ?_, ?_⟩
      · intro x member
        rcases Json.mem_upsert member with earlier | rfl
        · exact plain.others x earlier
        · exact ⟨noMetaKey, noOrder⟩
      · intro x member
        rcases Json.mem_upsert member with earlier | rfl
        · exact plain.contents x earlier
        · exact j.distinct_dedup
  · cases success

theorem yields_plain : Yields ofDocument Plain := by
  intro d range p success
  unfold ofDocument at success
  split at success
  · next entries =>
      obtain ⟨s, read, same⟩ := bind_eq_ok_iff.mp success
      cases same
      have plain := Document.foldlM_yields Slots.plain_read range
        (⟨List.nodup_nil, by simp, by simp⟩ : Slots.Plain {}) read
      exact ⟨plain.distinct, plain.others, plain.contents⟩
  · cases success

end Payload

/-! ## Columns -/

theorem Value.ofJson_eq_null {j : Json} (success : ofJson j = .ok .null) : j = .null := by
  cases j with
  | null => rfl
  | int n =>
      rw [ofJson, ofInt] at success
      split at success <;> cases success
  | arr items =>
      rw [ofJson] at success
      obtain ⟨vs, _, same⟩ := bind_eq_ok_iff.mp success
      cases same
  | _ => cases success

theorem Value.toJson_ne_null {v : Value} (finite : v.Finite) (some_ : v ≠ .null) :
    v.toJson ≠ .null := by
  intro null
  have read := ofJson_toJson v finite
  rw [null, ofJson] at read
  exact some_ (Except.ok.inj read).symm

namespace ColumnRef

structure Plain (c : ColumnRef) : Prop where
  payload : c.payload.Plain
  value : ∀ v ∈ c.value, v.Finite ∧ v ≠ .null

theorem ofDocument_toJson {c : ColumnRef} (plain : c.Plain) :
    ofDocument c.toJson.document = .ok c := by
  obtain ⟨column, tableKey, func, payload, value⟩ := c
  have readPayload : Payload.ofDocument payload.toJson.document = .ok payload :=
    Payload.ofDocument_toJson plain.payload
  cases value with
  | none =>
      cases func <;> simp [toJson, Column.toFields, ofDocument, Slots.read, Column.ofEntries,
        Column.Slots.read, Column.Slots.finish, readPayload]
  | some v =>
      have given := plain.value v rfl
      have readValue := Json.toOption_document (Value.toJson_ne_null given.1 given.2)
        (Value.ofDocument_toJson given.1)
      cases func <;> simp [toJson, Column.toFields, ofDocument, Slots.read, Column.ofEntries,
        Column.Slots.read, Column.Slots.finish, readPayload, readValue]

/-- A value that is given is not null: null is the same as no value. -/
theorem yields_value : Yields (Document.toOption Value.ofDocument) fun o =>
    ∀ v ∈ o, v.Finite ∧ v ≠ .null := by
  intro d range o success v given
  refine ⟨Value.yields_finite.toOption d range o success v given, ?_⟩
  rintro rfl
  unfold Document.toOption at success
  split at success
  · cases success
    cases given
  · next some_ =>
      obtain ⟨w, read, same⟩ := bind_eq_ok_iff.mp success
      cases same
      cases given
      obtain ⟨j, value, read⟩ := bind_eq_ok_iff.mp read
      rw [Value.ofJson_eq_null read, Document.toJson_eq_ok_iff] at value
      exact some_ (Document.eq_null_of_json? value)

/-- What the slots of a column have while it is read. -/
structure Slots.Plain (s : Slots) : Prop where
  payload : ∀ p ∈ s.payload, p.Plain
  value : ∀ o ∈ s.value, ∀ v ∈ o, v.Finite ∧ v ≠ .null

theorem Slots.plain_read {s s' : Slots} (plain : s.Plain) {e : Document.Entry}
    (range : e.2.Representable) (success : s.read e = .ok s') : s'.Plain := by
  unfold Slots.read at success
  split at success
  · obtain ⟨_, _, same⟩ := bind_eq_ok_iff.mp success
    cases same
    exact ⟨plain.payload, plain.value⟩
  · obtain ⟨_, _, same⟩ := bind_eq_ok_iff.mp success
    cases same
    exact ⟨plain.payload, plain.value⟩
  · obtain ⟨payload, filled, same⟩ := bind_eq_ok_iff.mp success
    cases same
    exact ⟨Payload.yields_plain.fill range filled, plain.value⟩
  · obtain ⟨value, filled, same⟩ := bind_eq_ok_iff.mp success
    cases same
    exact ⟨plain.payload, yields_value.fill range filled⟩
  · rw [Document.keep_eq_ok success]
    exact plain

theorem yields_plain : Yields ofDocument Plain := by
  intro d range c success
  unfold ofDocument at success
  split at success
  · next entries =>
      obtain ⟨s, read, success⟩ := bind_eq_ok_iff.mp success
      obtain ⟨column, _, same⟩ := bind_eq_ok_iff.mp success
      cases same
      have plain := Document.foldlM_yields Slots.plain_read range
        (⟨by simp, by simp⟩ : Slots.Plain {}) read
      constructor
      · cases given : s.payload with
        | none => exact ⟨List.nodup_nil, by simp, by simp⟩
        | some p => exact plain.payload p given
      · intro v given
        have inside := Option.join_eq_some_iff.mp given
        exact plain.value (some v) inside v rfl
  · cases success

end ColumnRef

/-! ## Joins -/

namespace JoinCondition

def Plain (c : JoinCondition) : Prop := c.left.Plain ∧ c.right.Plain

theorem ofDocument_toJson {c : JoinCondition} (plain : c.Plain) :
    ofDocument c.toJson.document = .ok c := by
  have left := ColumnRef.ofDocument_toJson plain.1
  have right := ColumnRef.ofDocument_toJson plain.2
  have columns : columnsOfDocument (Json.arr [c.left.toJson, c.right.toJson]).document =
      .ok (c.left, c.right) := by
    simp [Json.document, Json.documentItems, columnsOfDocument, Document.allItems, Document.item,
      left, right]
  simp [toJson, ofDocument, Slots.read, Slots.finish, columns]

theorem yields_columns : Yields columnsOfDocument fun c => c.1.Plain ∧ c.2.Plain := by
  intro d range c success
  unfold columnsOfDocument at success
  split at success
  · next items =>
      have yields : ItemsYield (do
          let left ← Document.item ColumnRef.ofDocument
          let right ← Document.item ColumnRef.ofDocument
          return (left, right)) fun c => c.1.Plain ∧ c.2.Plain :=
        ColumnRef.yields_plain.item.bind fun left plainLeft =>
          ColumnRef.yields_plain.item.bind fun right plainRight =>
            ItemsYield.pure ⟨plainLeft, plainRight⟩
      exact yields.allItems range success
  · cases success

structure Slots.Plain (s : Slots) : Prop where
  columns : ∀ c ∈ s.columns, c.1.Plain ∧ c.2.Plain

theorem Slots.plain_read {s s' : Slots} (plain : s.Plain) {e : Document.Entry}
    (range : e.2.Representable) (success : s.read e = .ok s') : s'.Plain := by
  unfold Slots.read at success
  split at success
  · obtain ⟨columns, filled, same⟩ := bind_eq_ok_iff.mp success
    cases same
    exact ⟨yields_columns.fill range filled⟩
  · obtain ⟨_, _, same⟩ := bind_eq_ok_iff.mp success
    cases same
    exact ⟨plain.columns⟩
  · rw [Document.skip_eq_ok success]
    exact plain

theorem yields_plain : Yields ofDocument Plain := by
  intro d range c success
  unfold ofDocument at success
  split at success
  · next entries =>
      obtain ⟨s, read, success⟩ := bind_eq_ok_iff.mp success
      have plain := Document.foldlM_yields Slots.plain_read range
        (⟨by simp⟩ : Slots.Plain {}) read
      obtain ⟨columns, given, success⟩ := bind_eq_ok_iff.mp success
      obtain ⟨operator, _, same⟩ := bind_eq_ok_iff.mp success
      cases same
      exact plain.columns columns (Document.required_eq_ok given)
  · next items =>
      have yields : ItemsYield _ Plain :=
        yields_columns.item.bind fun columns plain =>
          (Document.yields_true Document.toText).item.bind fun operator _ =>
            ItemsYield.pure (a := JoinCondition.mk columns.1 columns.2 operator) plain
      exact yields.allItems range success
  · cases success

end JoinCondition

namespace JoinRule

def Plain (r : JoinRule) : Prop := ∀ c ∈ r.conditions, c.Plain

theorem ofDocument_toJson {r : JoinRule} (plain : r.Plain) :
    ofDocument r.toJson.document = .ok r := by
  have conditions := Json.toList_arr fun c member =>
    JoinCondition.ofDocument_toJson (plain c member)
  simp [toJson, ofDocument, Slots.read, Slots.finish, conditions]

structure Slots.Plain (s : Slots) : Prop where
  conditions : ∀ cs ∈ s.conditions, ∀ c ∈ cs, c.Plain

theorem Slots.plain_read {s s' : Slots} (plain : s.Plain) {e : Document.Entry}
    (range : e.2.Representable) (success : s.read e = .ok s') : s'.Plain := by
  unfold Slots.read at success
  split at success
  · obtain ⟨_, _, same⟩ := bind_eq_ok_iff.mp success
    cases same
    exact ⟨plain.conditions⟩
  · obtain ⟨conditions, filled, same⟩ := bind_eq_ok_iff.mp success
    cases same
    exact ⟨JoinCondition.yields_plain.toList.fill range filled⟩
  · rw [Document.skip_eq_ok success]
    exact plain

theorem yields_plain : Yields ofDocument Plain := by
  intro d range r success
  unfold ofDocument at success
  split at success
  · next entries =>
      obtain ⟨s, read, success⟩ := bind_eq_ok_iff.mp success
      have plain := Document.foldlM_yields Slots.plain_read range
        (⟨by simp⟩ : Slots.Plain {}) read
      obtain ⟨kind, _, same⟩ := bind_eq_ok_iff.mp success
      cases same
      exact Document.forall_mem_getD plain.conditions
  · next items =>
      have yields : ItemsYield _ Plain :=
        (Document.yields_true JoinKind.ofDocument).item.bind fun kind _ =>
          (JoinCondition.yields_plain.toList.itemOr [] (by simp)).bind fun conditions plain =>
            ItemsYield.pure (a := JoinRule.mk kind conditions) plain
      exact yields.allItems range success
  · cases success

end JoinRule

/-! ## Table trees -/

namespace TableNode

mutual

/-- Whether the rules of a tree are plain. -/
def Plain : TableNode → Prop
  | ⟨_, next, rule⟩ => PlainList next ∧ ∀ r ∈ rule, r.Plain

def PlainList : List TableNode → Prop
  | [] => True
  | t :: rest => Plain t ∧ PlainList rest

end

mutual

theorem ofDocument_toJson : (t : TableNode) → t.Plain → ofDocument t.toJson.document = .ok t
  | ⟨key, next, rule⟩, plain => by
      rw [Plain] at plain
      have readRule : ∀ r ∈ rule, Document.toOption JoinRule.ofDocument r.toJson.document =
          .ok (some r) := fun r given =>
        Json.toOption_document (by simp [JoinRule.toJson])
          (JoinRule.ofDocument_toJson (plain.2 r given))
      cases next with
      | nil =>
          cases rule with
          | none =>
              simp [toJson, ofDocument, readEntries, TableKey.toFields, TableKey.ofEntries,
                TableKey.Slots.read, TableKey.Slots.finish, Slots.finish]
          | some r =>
              simp [toJson, ofDocument, readEntries, TableKey.toFields, TableKey.ofEntries,
                TableKey.Slots.read, TableKey.Slots.finish, Slots.finish, readRule r rfl]
      | cons t rest =>
          have readNext : ofDocumentNext (Json.arr (toJsonList (t :: rest))).document =
              .ok (t :: rest) := by
            rw [Json.document, ofDocumentNext]
            exact ofDocumentList_toJsonList (t :: rest) plain.1
          rw [toJsonList] at readNext
          cases rule with
          | none =>
              simp [toJson, ofDocument, readEntries, TableKey.toFields, TableKey.ofEntries,
                TableKey.Slots.read, TableKey.Slots.finish, Slots.finish, readNext]
          | some r =>
              simp [toJson, ofDocument, readEntries, TableKey.toFields, TableKey.ofEntries,
                TableKey.Slots.read, TableKey.Slots.finish, Slots.finish, readNext, readRule r rfl]

theorem ofDocumentList_toJsonList : (ts : List TableNode) → PlainList ts →
    ofDocumentList (Json.documentItems (toJsonList ts)) = .ok ts
  | [], _ => by
      rw [toJsonList, Json.documentItems, ofDocumentList]
  | t :: rest, plain => by
      rw [PlainList] at plain
      rw [toJsonList, Json.documentItems, ofDocumentList, ofDocument_toJson t plain.1,
        ofDocumentList_toJsonList rest plain.2]
      rfl

end

theorem plainList_iff (ts : List TableNode) : PlainList ts ↔ ∀ t ∈ ts, t.Plain := by
  induction ts with
  | nil => simp [PlainList]
  | cons t rest ih => simp [PlainList, ih]

structure Slots.Plain (s : Slots) : Prop where
  next : ∀ ts ∈ s.next, PlainList ts
  rule : ∀ o ∈ s.rule, ∀ r ∈ o, r.Plain

theorem Slots.plain_finish {s : Slots} (plain : s.Plain) (key : TableKey) :
    (s.finish key).Plain := by
  rw [finish, TableNode.Plain]
  constructor
  · cases given : s.next with
    | none => trivial
    | some ts => exact plain.next ts given
  · intro r given
    exact plain.rule (some r) (Option.join_eq_some_iff.mp given) r rfl

mutual

theorem plain_ofDocument : (d : Document) → d.Representable → ∀ t, ofDocument d = .ok t → t.Plain
  | .obj entries, range, t, success => by
      rw [ofDocument] at success
      obtain ⟨s, read, success⟩ := bind_eq_ok_iff.mp success
      obtain ⟨key, _, same⟩ := bind_eq_ok_iff.mp success
      cases same
      exact Slots.plain_finish (plain_readEntries entries range {} ⟨by simp, by simp⟩ s read) key
  | .arr _, _, _, success | .null, _, _, success | .bool _, _, _, success
  | .int _, _, _, success | .float _, _, _, success | .str _, _, _, success
  | .valueless, _, _, success | .broken, _, _, success => by cases success

theorem plain_readEntries : (entries : List (Option String × Document)) →
    Document.RepresentableEntries entries → ∀ s : Slots, s.Plain → ∀ s',
      readEntries s entries = .ok s' → s'.Plain
  | [], _, s, plain, s', success => by
      rw [readEntries] at success
      cases success
      exact plain
  | (key, d) :: rest, range, s, plain, s', success => by
      rw [Document.RepresentableEntries] at range
      rw [readEntries] at success
      split at success
      · split at success
        · cases success
        · obtain ⟨ts, read, later⟩ := bind_eq_ok_iff.mp success
          refine plain_readEntries rest range.2 { s with next := some ts } ⟨?_, plain.rule⟩ s' later
          intro ts' given
          cases given
          exact plain_ofDocumentNext d range.1 ts read
      · split at success
        · obtain ⟨rule, filled, later⟩ := bind_eq_ok_iff.mp success
          have plainRule := JoinRule.yields_plain.toOption.fill range.1 filled
          exact plain_readEntries rest range.2 { s with rule } ⟨plain.next, plainRule⟩ s' later
        · obtain ⟨kept, same, later⟩ := bind_eq_ok_iff.mp success
          cases Document.keep_eq_ok same
          exact plain_readEntries rest range.2 s plain s' later

theorem plain_ofDocumentNext : (d : Document) → d.Representable → ∀ ts,
    ofDocumentNext d = .ok ts → PlainList ts
  | .arr items, range, ts, success => by
      rw [ofDocumentNext] at success
      exact plain_ofDocumentList items range ts success
  | .obj _, _, _, success | .null, _, _, success | .bool _, _, _, success
  | .int _, _, _, success | .float _, _, _, success | .str _, _, _, success
  | .valueless, _, _, success | .broken, _, _, success => by cases success

theorem plain_ofDocumentList : (ds : List Document) → Document.RepresentableItems ds → ∀ ts,
    ofDocumentList ds = .ok ts → PlainList ts
  | [], _, ts, success => by
      rw [ofDocumentList] at success
      cases success
      trivial
  | d :: rest, range, ts, success => by
      rw [Document.RepresentableItems] at range
      rw [ofDocumentList] at success
      obtain ⟨t, first, success⟩ := bind_eq_ok_iff.mp success
      obtain ⟨ts, later, same⟩ := bind_eq_ok_iff.mp success
      cases same
      exact ⟨plain_ofDocument d range.1 t first, plain_ofDocumentList rest range.2 ts later⟩

end

end TableNode

/-! ## Queries -/

namespace Query

structure Plain (q : Query) : Prop where
  table : q.table.Plain
  columns : ∀ c ∈ q.columns, c.Plain
  filters : ∀ c ∈ q.filters, c.Plain
  orderBy : ∀ c ∈ q.orderBy, c.Plain

theorem ofDocument_toJson {q : Query} (plain : q.Plain) : ofDocument q.toJson.document = .ok q := by
  have table := TableNode.ofDocument_toJson q.table plain.table
  have list {cs : List ColumnRef} (each : ∀ c ∈ cs, c.Plain) :
      Document.toList ColumnRef.ofDocument (Json.arr (cs.map ColumnRef.toJson)).document = .ok cs :=
    Json.toList_arr fun c member => ColumnRef.ofDocument_toJson (each c member)
  simp [toJson, ofDocument, Slots.read, Slots.finish, table, list plain.columns, list plain.filters,
    list plain.orderBy]

structure Slots.Plain (s : Slots) : Prop where
  table : ∀ t ∈ s.table, t.Plain
  columns : ∀ cs ∈ s.columns, ∀ c ∈ cs, c.Plain
  filters : ∀ cs ∈ s.filters, ∀ c ∈ cs, c.Plain
  orderBy : ∀ cs ∈ s.orderBy, ∀ c ∈ cs, c.Plain

theorem Slots.plain_read {s s' : Slots} (plain : s.Plain) {e : Document.Entry}
    (range : e.2.Representable) (success : s.read e = .ok s') : s'.Plain := by
  have columns := ColumnRef.yields_plain.toList
  unfold Slots.read at success
  split at success
  · obtain ⟨_, _, same⟩ := bind_eq_ok_iff.mp success
    cases same
    exact { plain with }
  · obtain ⟨_, filled, same⟩ := bind_eq_ok_iff.mp success
    cases same
    exact { plain with table := Document.Yields.fill TableNode.plain_ofDocument range filled }
  · obtain ⟨_, filled, same⟩ := bind_eq_ok_iff.mp success
    cases same
    exact { plain with columns := columns.fill range filled }
  · obtain ⟨_, filled, same⟩ := bind_eq_ok_iff.mp success
    cases same
    exact { plain with filters := columns.fill range filled }
  · obtain ⟨_, filled, same⟩ := bind_eq_ok_iff.mp success
    cases same
    exact { plain with orderBy := columns.fill range filled }
  · obtain ⟨_, _, same⟩ := bind_eq_ok_iff.mp success
    cases same
    exact { plain with }
  · obtain ⟨_, _, same⟩ := bind_eq_ok_iff.mp success
    cases same
    exact { plain with }
  · rw [Document.skip_eq_ok success]
    exact plain

theorem yields_plain : Yields ofDocument Plain := by
  intro d range q success
  have columns := ColumnRef.yields_plain.toList
  unfold ofDocument at success
  split at success
  · next entries =>
      obtain ⟨s, read, success⟩ := bind_eq_ok_iff.mp success
      have plain := Document.foldlM_yields Slots.plain_read range
        (⟨by simp, by simp, by simp, by simp⟩ : Slots.Plain {}) read
      obtain ⟨operation, _, success⟩ := bind_eq_ok_iff.mp success
      obtain ⟨table, given, same⟩ := bind_eq_ok_iff.mp success
      cases same
      exact {
        table := plain.table table (Document.required_eq_ok given)
        columns := Document.forall_mem_getD plain.columns
        filters := Document.forall_mem_getD plain.filters
        orderBy := Document.forall_mem_getD plain.orderBy }
  · next items =>
      have table : Yields TableNode.ofDocument TableNode.Plain := TableNode.plain_ofDocument
      have number := Document.yields_true Document.toUInt64
      have yields : ItemsYield _ Plain :=
        (Document.yields_true Operation.ofDocument).item.bind fun operation _ =>
          table.item.bind fun table plainTable =>
            (columns.itemOr [] (by simp)).bind fun columns plainColumns =>
              (ColumnRef.yields_plain.toList.itemOr [] (by simp)).bind fun filters plainFilters =>
                (ColumnRef.yields_plain.toList.itemOr [] (by simp)).bind fun orderBy plainOrder =>
                  (number.itemOr 0 trivial).bind fun limit _ =>
                    (number.itemOr 0 trivial).bind fun offset _ =>
                      ItemsYield.pure
                        (a := Query.mk operation table columns filters orderBy limit offset)
                        ⟨plainTable, plainColumns, plainFilters, plainOrder⟩
      exact yields.allItems range success
  · cases success

end Query

namespace SourceQuery

theorem ofDocument_toJson {r : SourceQuery} (plain : r.query.Plain) :
    ofDocument r.toJson.document = .ok r := by
  have query := Query.ofDocument_toJson plain
  simp [toJson, ofDocument, Slots.read, Slots.finish, query]

theorem Slots.plain_read {s s' : Slots} (plain : ∀ q ∈ s.query, q.Plain) {e : Document.Entry}
    (range : e.2.Representable) (success : s.read e = .ok s') : ∀ q ∈ s'.query, q.Plain := by
  unfold Slots.read at success
  split at success
  · obtain ⟨_, _, same⟩ := bind_eq_ok_iff.mp success
    cases same
    exact plain
  · obtain ⟨query, filled, same⟩ := bind_eq_ok_iff.mp success
    cases same
    exact Query.yields_plain.fill range filled
  · rw [Document.skip_eq_ok success]
    exact plain

theorem yields_plain : Yields ofDocument fun r => r.query.Plain := by
  intro d range r success
  unfold ofDocument at success
  split at success
  · next entries =>
      obtain ⟨s, read, success⟩ := bind_eq_ok_iff.mp success
      have plain := Document.foldlM_yields Slots.plain_read range
        (by simp : ∀ q ∈ ({} : Slots).query, q.Plain) read
      obtain ⟨sourceId, _, success⟩ := bind_eq_ok_iff.mp success
      obtain ⟨query, given, same⟩ := bind_eq_ok_iff.mp success
      cases same
      exact plain query (Document.required_eq_ok given)
  · next items =>
      have yields : ItemsYield _ fun r : SourceQuery => r.query.Plain :=
        (Document.yields_true Document.toText).item.bind fun sourceId _ =>
          Query.yields_plain.item.bind fun query plain =>
            ItemsYield.pure (a := SourceQuery.mk sourceId query) plain
      exact yields.allItems range success
  · cases success

end SourceQuery

end QueryBoard
