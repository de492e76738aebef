import QueryBoard.Proofs.Json.Decode
import QueryBoard.Schema.Wire
import QueryBoard.Value

/-!
# Schemas and values are read as they are written

Whatever schema is written is read back.  A value is read back when its numbers are finite, and
every value that is read is one of those.
-/

set_option autoImplicit false

namespace QueryBoard

attribute [local simp] ok_bind pure_eq_ok map_ok

/-! ## Schemas -/

@[simp]
theorem SemanticType.ofDocument_toJson (t : SemanticType) :
    ofDocument t.toJson.document = .ok t := by
  rw [ofDocument, toJson, Json.toText_str, map_ok, ofName_name]

@[simp]
theorem Column.ofDocument_toJson (c : Column) : ofDocument c.toJson.document = .ok c := by
  simp [toJson, toFields, ofDocument, ofEntries, Slots.read, Slots.finish]

@[simp]
theorem Table.ofDocument_toJson (t : Table) : ofDocument t.toJson.document = .ok t := by
  have columns : Document.toList Column.ofDocument
      (Json.arr (t.columns.map Column.toJson)).document = .ok t.columns :=
    Json.toList_arr fun c _ => c.ofDocument_toJson
  simp [toJson, ofDocument, Slots.read, Slots.finish, columns]

theorem Catalog.ofDocument_toJson (c : Catalog) : ofDocument c.toJson.document = .ok c :=
  Json.toList_arr fun t _ => t.ofDocument_toJson

/-! ## Values -/

namespace Value

mutual

/-- Whether every number in the value is finite. -/
def Finite : Value → Prop
  | .float x => x.isFinite = true
  | .list items => FiniteItems items
  | .null | .bool _ | .int _ | .str _ => True

def FiniteItems : List Value → Prop
  | [] => True
  | v :: rest => Finite v ∧ FiniteItems rest

end

theorem finite_ofInt {n : Int} (low : -Int.pow 2 63 ≤ n) (high : n < Int.pow 2 64) :
    (ofInt n).Finite := by
  unfold ofInt
  split
  · trivial
  · exact Binary64.isFinite_ofInt low high

mutual

theorem finite_ofJson : (j : Json) → j.Representable → ∀ v, ofJson j = .ok v → v.Finite
  | .int n, range, v, success => by
      cases success
      exact finite_ofInt range.1 range.2
  | .float x, range, v, success => by
      cases success
      exact range
  | .arr items, range, v, success => by
      rw [ofJson] at success
      rw [Json.Representable] at range
      obtain ⟨vs, each, same⟩ := bind_eq_ok_iff.mp success
      cases same
      exact finite_ofJsonList items range vs each
  | .obj _, _, _, success => by cases success
  | .null, _, v, success | .bool _, _, v, success | .str _, _, v, success => by
      cases success
      trivial

theorem finite_ofJsonList : (items : List Json) → Json.RepresentableItems items → ∀ vs,
    ofJsonList items = .ok vs → FiniteItems vs
  | [], _, vs, success => by
      cases success
      trivial
  | j :: rest, range, vs, success => by
      rw [Json.RepresentableItems] at range
      obtain ⟨v, first, success⟩ := bind_eq_ok_iff.mp success
      obtain ⟨vs, later, same⟩ := bind_eq_ok_iff.mp success
      cases same
      exact ⟨finite_ofJson j range.1 v first, finite_ofJsonList rest range.2 vs later⟩

end

/-- What is read as a value has finite numbers only. -/
theorem yields_finite : Document.Yields ofDocument Finite := by
  intro d range v success
  obtain ⟨j, value, read⟩ := bind_eq_ok_iff.mp success
  have known := d.representable_json? range j (Document.toJson_eq_ok_iff.mp value)
  exact finite_ofJson j known v read

mutual

theorem ofJson_toJson : (v : Value) → v.Finite → ofJson v.toJson = .ok v
  | .int n, _ => by
      have low := n.le_toInt
      have high := n.toInt_lt
      have pow : Int.pow 2 63 = 2 ^ 63 := rfl
      rw [toJson, ofJson, ofInt, if_pos (by rw [pow]; omega), Int64.ofInt_toInt]
  | .float x, finite => by
      have known : x.isFinite = true := finite
      rw [toJson, floatJson, if_pos known, ofJson]
  | .list items, finite => by
      rw [toJson, ofJson, ofJsonList_toJsonList items finite, map_ok]
  | .null, _ | .bool _, _ | .str _, _ => rfl

theorem ofJsonList_toJsonList : (vs : List Value) → FiniteItems vs →
    ofJsonList (toJsonList vs) = .ok vs
  | [], _ => rfl
  | v :: rest, finite => by
      rw [FiniteItems] at finite
      rw [toJsonList, ofJsonList, ofJson_toJson v finite.1, ofJsonList_toJsonList rest finite.2]
      rfl

end

theorem ofDocument_toJson {v : Value} (finite : v.Finite) :
    ofDocument v.toJson.document = .ok v := by
  rw [ofDocument, Json.toJson_document, ok_bind, ofJson_toJson v finite]

end Value

end QueryBoard
