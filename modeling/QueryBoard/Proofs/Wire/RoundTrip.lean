import QueryBoard.Proofs.Wire.Query
import QueryBoard.Proofs.Wire.Response
import QueryBoard.Proofs.Wire.Widget

/-!
# Documents survive being read and written

What is read is written in one way only: whichever document it was read from, in whichever order, with
whichever parts left out, given as null or named by a second name, and as an object or as an array.
So reading what was written gives the same again, and writing that the same document.
-/

set_option autoImplicit false

namespace QueryBoard

/-- Whether reading what was written gives back whatever was read from a JSON value, and writing that
gives the same document again. -/
def RoundTrips {α : Type} (read : Document → Decoded α) (write : α → Json) : Prop :=
  ∀ (j : Json) (a : α), j.Representable → j.decode read = .ok a →
    ∃ b, (write a).decode read = .ok b ∧ b = a ∧ write b = write a

theorem Document.Yields.roundTrips {α : Type} {read : Document → Decoded α} {write : α → Json}
    {P : α → Prop} (yields : Document.Yields read P)
    (written : ∀ a, P a → read (write a).document = .ok a) : RoundTrips read write := by
  intro j a range success
  have plain := yields j.document (j.representable_document range) a success
  exact ⟨a, written a plain, rfl, rfl⟩

theorem roundTrips_of_all {α : Type} {read : Document → Decoded α} {write : α → Json}
    (written : ∀ a, read (write a).document = .ok a) : RoundTrips read write :=
  (Document.yields_true read).roundTrips fun a _ => written a

/-- Every document type survives being read and written. -/
theorem wire_roundTrips :
    RoundTrips Query.ofDocument Query.toJson ∧
    RoundTrips SourceQuery.ofDocument SourceQuery.toJson ∧
    RoundTrips TableNode.ofDocument TableNode.toJson ∧
    RoundTrips JoinRule.ofDocument JoinRule.toJson ∧
    RoundTrips JoinCondition.ofDocument JoinCondition.toJson ∧
    RoundTrips ColumnRef.ofDocument ColumnRef.toJson ∧
    RoundTrips Payload.ofDocument Payload.toJson ∧
    RoundTrips Value.ofDocument Value.toJson ∧
    RoundTrips Column.ofDocument Column.toJson ∧
    RoundTrips Table.ofDocument Table.toJson ∧
    RoundTrips Catalog.ofDocument Catalog.toJson ∧
    RoundTrips Widget.ofDocument Widget.toJson ∧
    RoundTrips PlacedWidget.ofDocument PlacedWidget.toJson ∧
    RoundTrips Dashboard.ofDocument Dashboard.toJson ∧
    RoundTrips SelectData.ofDocument SelectData.toJson ∧
    RoundTrips QueryResponse.ofDocument QueryResponse.toJson := by
  have table : Document.Yields TableNode.ofDocument TableNode.Plain := TableNode.plain_ofDocument
  have widget : Document.Yields Widget.ofDocument Widget.Plain := Widget.plain_ofDocument
  exact ⟨
    Query.yields_plain.roundTrips fun _ plain => Query.ofDocument_toJson plain,
    SourceQuery.yields_plain.roundTrips fun _ plain => SourceQuery.ofDocument_toJson plain,
    table.roundTrips fun t plain => t.ofDocument_toJson plain,
    JoinRule.yields_plain.roundTrips fun _ plain => JoinRule.ofDocument_toJson plain,
    JoinCondition.yields_plain.roundTrips fun _ plain => JoinCondition.ofDocument_toJson plain,
    ColumnRef.yields_plain.roundTrips fun _ plain => ColumnRef.ofDocument_toJson plain,
    Payload.yields_plain.roundTrips fun _ plain => Payload.ofDocument_toJson plain,
    Value.yields_finite.roundTrips fun _ finite => Value.ofDocument_toJson finite,
    roundTrips_of_all Column.ofDocument_toJson,
    roundTrips_of_all Table.ofDocument_toJson,
    roundTrips_of_all Catalog.ofDocument_toJson,
    widget.roundTrips fun w plain => w.ofDocument_toJson plain,
    PlacedWidget.yields_plain.roundTrips fun _ plain => PlacedWidget.ofDocument_toJson plain,
    Dashboard.yields_plain.roundTrips fun _ plain => Dashboard.ofDocument_toJson plain,
    SelectData.yields_plain.roundTrips fun _ plain => SelectData.ofDocument_toJson plain,
    QueryResponse.yields_plain.roundTrips fun _ plain => QueryResponse.ofDocument_toJson plain⟩

/-- A query as an array: with a join by its second name, a column type that is none, no function, a
payload with other keys around one that is null, and a value above the signed integers. -/
def looseQuery : Json :=
  .arr [.str "select",
    .obj [("next", .arr [.obj [("rule", .arr [.str "join"]), ("name", .str "u")]]),
      ("name", .str "t")],
    .arr [.obj [("func", .str ""), ("name", .str "a"), ("type", .str "date"),
      ("payload", .obj [("width", .int 3), ("order", .null), ("align", .str "left")]),
      ("value", .int 9223372036854775808)]]]

/-- What it is read as: an inner join, a column of an unsupported type and without a function, the
other keys of the payload in their order, and the value as a number with a point. -/
def looseQueryRead : Query where
  operation := .select
  table := { key := ⟨"t", 0⟩, next := [⟨⟨"u", 0⟩, [], some { kind := .inner, conditions := [] }⟩] }
  columns :=
    [{ column := { name := "a", type := .unsupported }
       payload := { extra := [("width", .int 3), ("align", .str "left")] }
       value := some (.float ⟨0x43e0000000000000⟩) }]

theorem looseQuery_representable : looseQuery.Representable := by
  simp [looseQuery, Json.Representable, Json.RepresentableItems, Json.RepresentableFields]

theorem wire_roundTrips_looseQuery :
    looseQuery.Representable ∧ looseQuery.decode Query.ofDocument = .ok looseQueryRead ∧
      ∃ b, looseQueryRead.toJson.decode Query.ofDocument = .ok b ∧ b = looseQueryRead ∧
        b.toJson = looseQueryRead.toJson := by
  have decoded : looseQuery.decode Query.ofDocument = .ok looseQueryRead := rfl
  exact ⟨looseQuery_representable, decoded,
    wire_roundTrips.1 looseQuery looseQueryRead looseQuery_representable decoded⟩

end QueryBoard
