import QueryBoard.Execution.Basic
import QueryBoard.Proofs.Json.Printing
import QueryBoard.Proofs.Schema.Rows
import QueryBoard.Proofs.Wire.Schema

/-!
# Compiling without a connection

The schema of a database can be written to a file and read again.  The tables that are read are those
that were written, and each is found under the name under which the database finds it.  A query
therefore compiles against the file to what it compiles to against the database.
-/

set_option autoImplicit false

namespace QueryBoard

open Db (Database)

/-! ## The schema as a text -/

theorem Column.fits_toJson (c : Column) (room : Nat) : Json.Fits (room + 1) c.toJson := by
  simp [toJson, toFields, SemanticType.toJson, Json.Fits, Json.FitsFields]

theorem Table.fits_toJson (t : Table) (room : Nat) : Json.Fits (room + 3) t.toJson := by
  have columns : Json.Fits (room + 2) (.arr (t.columns.map Column.toJson)) := by
    rw [Json.Fits, Json.fitsItems_iff]
    intro j member
    obtain ⟨c, _, rfl⟩ := List.mem_map.mp member
    exact c.fits_toJson room
  exact ⟨trivial, columns, trivial⟩

theorem Catalog.fits_toJson (c : Catalog) : Json.Fits Json.depthLimit c.toJson := by
  have room : Json.depthLimit = 123 + 4 := rfl
  rw [room, toJson, Json.Fits, Json.fitsItems_iff]
  intro j member
  obtain ⟨t, _, rfl⟩ := List.mem_map.mp member
  exact t.fits_toJson 123

/-- A schema is read from its compact text as it was written. -/
theorem Catalog.decodeText_compact (c : Catalog) :
    Document.decodeText ofDocument c.toJson.compact = .ok c :=
  (Json.decodeText_compact ofDocument c.fits_toJson).trans c.ofDocument_toJson

/-- A schema is read from its indented text as it was written. -/
theorem Catalog.decodeText_pretty (c : Catalog) :
    Document.decodeText ofDocument (c.toJson.pretty ++ "\n") = .ok c :=
  (Json.decodeText_pretty ofDocument c.fits_toJson (by simp [Json.Gap, Json.isJsonBlank])).trans
    c.ofDocument_toJson

/-! ## Look-ups -/

theorem Catalog.table_cases (c : Catalog) (name : String) :
    (∃ t ∈ c, t.name = name ∧ c.table name = .ok t) ∨
      name ∉ c.map (fun t => t.name) ∧ c.table name = .error (.tableNotFound name) := by
  rw [table]
  cases found : List.find? (fun t : Table => t.name == name) c with
  | some t =>
      exact Or.inl ⟨t, List.mem_of_find?_eq_some found, by simpa using List.find?_some found, rfl⟩
  | none =>
      refine Or.inr ⟨fun listed => ?_, rfl⟩
      obtain ⟨t, member, same⟩ := List.mem_map.mp listed
      exact absurd same (by simpa using List.find?_eq_none.mp found t member)

namespace Storage

variable {s : Storage} {tables : List Table}

theorem tables_eq_ok_iff : s.tables = .ok tables ↔ ∃ db, s = .database db ∧ db.schema = .ok tables := by
  cases s with
  | database db => simp [Storage.tables, open?]
  | other => simp [Storage.tables, open?]

theorem table_eq (read : s.tables = .ok tables) : s.table = Catalog.table tables := by
  obtain ⟨db, rfl, schema⟩ := tables_eq_ok_iff.mp read
  exact Database.schemaTable_eq schema

end Storage

/-- Where a database can be asked what it holds, its answer, written out and read again, serves as
well as the database: every table is found in both or in neither, and every query compiles to the
same.  The answer lists every table and view once with all its columns, and a table that is asked
for by name is the one of that name in it. -/
theorem offline_agrees (s : Storage) (tables : List Table) (read : s.tables = .ok tables) :
    (∃ catalog : Catalog,
      Document.decodeText Catalog.ofDocument (Catalog.toJson tables).compact = .ok catalog ∧
        Document.decodeText Catalog.ofDocument ((Catalog.toJson tables).pretty ++ "\n") =
          .ok catalog ∧
        ∀ (q : Query) (d : Sql.Dialect), q.compile d s.table = q.compile d catalog.table) ∧
      (∀ name, (∃ t ∈ tables, t.name = name ∧ s.table name = .ok t) ∨
        name ∉ tables.map (fun t => t.name) ∧ s.table name = .error (.tableNotFound name)) ∧
      ∀ db, s = .database db → db.Named → db.Listed tables := by
  have same := Storage.table_eq read
  refine ⟨⟨tables, Catalog.decodeText_compact tables, Catalog.decodeText_pretty tables,
    fun q d => by rw [same]⟩, fun name => ?_, fun db is named => ?_⟩
  · rw [same]
    exact Catalog.table_cases tables name
  · obtain ⟨db', found, schema⟩ := Storage.tables_eq_ok_iff.mp read
    cases is.symm.trans found
    exact Database.listed_of_schema named schema

/-- A table whose key does not come first, and a view of it. -/
def shop : Database :=
  { tables :=
      [{ name := "order"
         columns := [{ name := "total", type := "NUMERIC(10, 2)", notNull := true },
           { name := "id", type := "INTEGER" }]
         key := [1] }]
    views := [{ name := "big", table := "order", columns := ["id"] }] }

/-- What is defined in it. -/
def shopDefined : List Table :=
  [⟨"order", [{ name := "total", type := .number, required := true },
      { name := "id", type := .number, primaryKey := true }]⟩,
    ⟨"big", [{ name := "id", type := .number }]⟩]

/-- What it says it holds. -/
def shopTables : List Table :=
  [⟨"big", [{ name := "id", type := .number }]⟩,
    ⟨"order", [{ name := "id", type := .number, primaryKey := true },
      { name := "total", type := .number, required := true }]⟩]

theorem tables_shop : (Storage.database shop).tables = .ok shopTables := by
  have defined : shop.schemaTables (fun name => !Db.isInternal name && Option.all (· == name) none) =
      .ok shopDefined := by
    decide +kernel
  have sorted : Db.SchemaRow.ofTables shopDefined = shopTables.flatMap Db.SchemaRow.ofTable :=
    Db.SchemaRow.ofTables_eq (by decide +kernel) (by decide +kernel) (by decide +kernel)
  refine Storage.tables_eq_ok_iff.mpr ⟨shop, rfl, Database.readTables_eq_ok_iff.mpr
    ⟨_, Database.schemaRows_eq_ok_iff.mpr ⟨_, defined, rfl⟩, ?_⟩⟩
  rw [sorted]
  rfl

theorem offline_agrees_shop : ∃ catalog : Catalog,
    Document.decodeText Catalog.ofDocument ((Catalog.toJson shopTables).pretty ++ "\n") =
        .ok catalog ∧
      (∀ (q : Query) (d : Sql.Dialect),
        q.compile d (Storage.database shop).table = q.compile d catalog.table) ∧
      (Storage.database shop).table "orders" = .error (.tableNotFound "orders") ∧
      shop.Listed shopTables := by
  obtain ⟨⟨catalog, _, read, compiles⟩, tables, listed⟩ :=
    offline_agrees (.database shop) shopTables tables_shop
  refine ⟨catalog, read, compiles, ?_, listed shop rfl ?_⟩
  · rcases tables "orders" with ⟨t, member, name, _⟩ | ⟨_, missing⟩
    · simp [shopTables] at member
      rcases member with rfl | rfl <;> simp at name
    · exact missing
  · constructor <;> simp [shop, Database.names]

end QueryBoard
