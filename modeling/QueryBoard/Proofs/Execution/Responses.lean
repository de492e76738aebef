import QueryBoard.Execution.Basic
import QueryBoard.Proofs.Fallible
import Mathlib

/-!
# What a response says of its query

A query is refused when it is compiled, or its statement fails, or it runs.  Each of these shows in
the response, and only the last one may change the storage.  So of queries that run one after the
other those that fail, like those that only read, could as well have been left out.
-/

set_option autoImplicit false

namespace QueryBoard

/-! ## Statements -/

/-- The text of the statement that is run for a compiled query. -/
def Compiled.sentText (c : Compiled) : String := c.statement.withTotal.text backendDialect

theorem Query.operation_of_statement {schema : SchemaLookup} {q : Query} {s : Sql.Statement}
    (made : q.statement schema = .ok s) : q.operation = .select ↔ ∃ b, s = .select b := by
  unfold statement at made
  cases kind : q.operation with
  | select =>
      rw [kind] at made
      obtain ⟨b, _, same⟩ := bind_eq_ok_iff.mp made
      cases same
      exact ⟨fun _ => ⟨b, rfl⟩, fun _ => rfl⟩
  | insert | update =>
      rw [kind] at made
      obtain ⟨_, _, same⟩ := bind_eq_ok_iff.mp made
      cases same
      simp
  | delete =>
      rw [kind] at made
      cases made
      simp

theorem Sql.Statement.withTotal_eq_select_iff {s : Sql.Statement} :
    (∃ b, s.withTotal = .select b) ↔ ∃ b, s = .select b := by
  cases s <;> simp [withTotal]

theorem Query.operation_of_compile {schema : SchemaLookup} {q : Query} {c : Compiled}
    (compiled : q.compile backendDialect schema = .ok c) :
    q.operation = .select ↔ ∃ b, c.statement.withTotal = .select b := by
  obtain ⟨s, made, same⟩ := bind_eq_ok_iff.mp compiled
  cases same
  rw [Sql.Statement.withTotal_eq_select_iff]
  exact operation_of_statement made

/-- A select gives data and has no effect, and any other statement gives none. -/
theorem runStatement_ok {rules : Rules} {db db' : Db.Database} {s : Sql.Statement}
    {data : Option SelectData} (success : runStatement rules db s = .ok (data, db')) :
    (∃ b r, s = .select b ∧ db.select b = .ok r ∧ data = some (selectData rules r) ∧ db' = db) ∨
      (¬ ∃ b, s = .select b) ∧ data = none := by
  cases s with
  | select b =>
      obtain ⟨r, selected, same⟩ := bind_eq_ok_iff.mp success
      cases same
      exact Or.inl ⟨b, r, rfl, selected, rfl, rfl⟩
  | insert | update | delete =>
      obtain ⟨_, _, same⟩ := bind_eq_ok_iff.mp success
      cases same
      exact Or.inr ⟨by simp, rfl⟩

namespace Storage

/-! ## One query -/

/-- The ways that a query goes. -/
inductive Goes (s : Storage) (q : Query) : Outcome × Storage → Prop
  | refused {e : CompileError} (refused : q.compile backendDialect s.table = .error e) :
      Goes s q (.failed (.compile e) none, s)
  | failed {c : Compiled} {e : Db.DbError} (compiled : q.compile backendDialect s.table = .ok c)
      (fails : (s.open? >>= fun db => runStatement c.rules db c.statement.withTotal) = .error e) :
      Goes s q (.failed (.execute e c.sentText) (some c.sentText), s)
  | ran {c : Compiled} {db db' : Db.Database} {data : Option SelectData}
      (compiled : q.compile backendDialect s.table = .ok c) (opened : s.open? = .ok db)
      (runs : runStatement c.rules db c.statement.withTotal = .ok (data, db')) :
      Goes s q (⟨.ok data, some c.sentText⟩, .database db')

theorem goes_execute (s : Storage) (q : Query) : s.Goes q (s.execute q) := by
  unfold execute
  split
  · next e refused => exact .refused refused
  · next c compiled =>
    dsimp only
    split
    · next data db' success =>
      obtain ⟨db, opened, runs⟩ := bind_eq_ok_iff.mp success
      exact .ran compiled opened runs
    · next e fails => exact .failed compiled fails

theorem eq_database_of_open {s : Storage} {db : Db.Database} (opened : s.open? = .ok db) :
    s = .database db := by
  cases s with
  | database db' =>
      cases opened
      rfl
  | other => cases opened

namespace Goes

variable {s : Storage} {q : Query} {r : Outcome × Storage}

theorem rawSql (goes : s.Goes q r) : r.1.response.rawSql =
    (q.compile backendDialect s.table).toOption.map Compiled.sentText := by
  cases goes with
  | refused refused => rw [refused]; rfl
  | failed compiled _ | ran compiled _ _ => rw [compiled]; rfl

theorem err_eq_none_iff (goes : s.Goes q r) : r.1.response.err = none ↔
    ∃ c db done, q.compile backendDialect s.table = .ok c ∧ s.open? = .ok db ∧
      runStatement c.rules db c.statement.withTotal = .ok done := by
  cases goes with
  | refused refused =>
      refine iff_of_false (by rintro ⟨⟩) ?_
      rintro ⟨c, _, _, compiled, _⟩
      cases refused.symm.trans compiled
  | failed compiled fails =>
      refine iff_of_false (by rintro ⟨⟩) ?_
      rintro ⟨c, db, done, same, opened, runs⟩
      cases compiled.symm.trans same
      rw [opened, ok_bind, runs] at fails
      cases fails
  | ran compiled opened runs => exact iff_of_true rfl ⟨_, _, _, compiled, opened, runs⟩

theorem of_err (goes : s.Goes q r) (failed : r.1.response.err ≠ none) :
    r.2 = s ∧ r.1.response.data = none := by
  cases goes with
  | refused _ | failed _ _ => exact ⟨rfl, rfl⟩
  | ran _ _ _ => exact absurd rfl failed

theorem of_done (goes : s.Goes q r) (done : r.1.response.err = none) :
    r.1.response.rawSql ≠ none ∧ (r.1.response.data ≠ none ↔ q.operation = .select) ∧
      ∀ d, r.1.response.data = some d →
        ∃ c, q.compile backendDialect s.table = .ok c ∧ d.rules = c.rules := by
  cases goes with
  | refused _ | failed _ _ => cases done
  | @ran c _ _ data compiled _ runs =>
      rw [Query.operation_of_compile compiled]
      refine ⟨Option.some_ne_none _, ?_⟩
      rcases runStatement_ok runs with ⟨b, _, selects, _, rfl, _⟩ | ⟨writes, rfl⟩
      · refine ⟨iff_of_true (Option.some_ne_none _) ⟨b, selects⟩, fun d shown => ?_⟩
        cases shown
        exact ⟨c, compiled, rfl⟩
      · refine ⟨iff_of_false (fun some => some rfl) writes, fun d shown => ?_⟩
        cases shown

/-- The data and the new state are those of the statement whose text is shown. -/
theorem of_run (goes : s.Goes q r) (done : r.1.response.err = none) :
    ∃ c db db', q.compile backendDialect s.table = .ok c ∧ s.open? = .ok db ∧
      r.1.response.rawSql = some (c.statement.withTotal.text backendDialect) ∧
      runStatement c.rules db c.statement.withTotal = .ok (r.1.response.data, db') ∧
      r.2 = .database db' := by
  cases goes with
  | refused _ | failed _ _ => cases done
  | ran compiled opened runs => exact ⟨_, _, _, compiled, opened, rfl, runs, rfl⟩

theorem of_select (goes : s.Goes q r) (selects : q.operation = .select) : r.2 = s := by
  cases goes with
  | refused _ | failed _ _ => rfl
  | ran compiled opened runs =>
      rcases runStatement_ok runs with ⟨_, _, _, _, _, rfl⟩ | ⟨writes, _⟩
      · exact (eq_database_of_open opened).symm
      · exact absurd ((Query.operation_of_compile compiled).mp selects) writes

end Goes

/-- What the response to a query says.  It has the text of the statement that was run if the query
compiles, and an error if it does not or if running that statement fails.  With an error there is no
data and no change; without one there is data for a select, with the rules it was compiled with, and
the data and the new state are those of the statement whose text is shown.  A select changes nothing
either way. -/
theorem responses_consistent (s : Storage) (q : Query) :
    let compiled := q.compile backendDialect s.table
    let response := (s.execute q).1.response
    let after := (s.execute q).2
    response.rawSql = compiled.toOption.map Compiled.sentText ∧
    (response.err = none ↔ ∃ c db done, compiled = .ok c ∧ s.open? = .ok db ∧
      runStatement c.rules db c.statement.withTotal = .ok done) ∧
    (response.err ≠ none → after = s ∧ response.data = none) ∧
    (response.err = none → response.rawSql ≠ none ∧
      (response.data ≠ none ↔ q.operation = .select) ∧
      ∀ d, response.data = some d → ∃ c, compiled = .ok c ∧ d.rules = c.rules) ∧
    (response.err = none → ∃ c db db', compiled = .ok c ∧ s.open? = .ok db ∧
      response.rawSql = some (c.statement.withTotal.text backendDialect) ∧
      runStatement c.rules db c.statement.withTotal = .ok (response.data, db') ∧
      after = .database db') ∧
    (q.operation = .select → after = s) :=
  have goes := s.goes_execute q
  ⟨goes.rawSql, goes.err_eq_none_iff, goes.of_err, goes.of_done, goes.of_run, goes.of_select⟩

/-- Books that have to have a title. -/
def shelf : Storage :=
  .database
    { tables :=
        [{ name := "books"
           columns := [{ name := "title", type := "TEXT", notNull := true }]
           rows := [⟨1, [.ofString "Emma"]⟩] }] }

def titles : Query where
  operation := .select
  table := { key := ⟨"books", 0⟩ }
  columns := [(ColumnRef.of ⟨"books", 0⟩ "title").asPrimaryKey]

def addBook (title : Value) : Query where
  operation := .insert
  table := { key := ⟨"books", 0⟩ }
  columns := [(ColumnRef.named "title").withValue title]

theorem responses_consistent_shelf :
    ((shelf.execute (addBook .null)).1.response.err ≠ none ∧
      (shelf.execute (addBook .null)).2 = shelf ∧
      (shelf.execute (addBook .null)).1.response.data = none) ∧
    ((shelf.execute titles).1.response.err = none ∧ titles.operation = .select ∧
      (shelf.execute titles).1.response.rawSql ≠ none ∧
      (shelf.execute titles).1.response.data ≠ none ∧ (shelf.execute titles).2 = shelf) := by
  have untitled : (shelf.execute (addBook .null)).1.result =
      .error (.execute (.notNull "books" "title") "INSERT INTO \"books\" (\"title\") VALUES (?)") := by
    cbv
  have failed : (shelf.execute (addBook .null)).1.response.err ≠ none := by
    rw [Outcome.response, untitled]
    exact Option.some_ne_none _
  have shown : (shelf.execute titles).1.response.err = none := by
    cbv
  obtain ⟨_, _, unchanged, _⟩ := shelf.responses_consistent (addBook .null)
  obtain ⟨_, _, _, done, _, read⟩ := shelf.responses_consistent titles
  obtain ⟨text, data, _⟩ := done shown
  exact ⟨⟨failed, unchanged failed⟩, shown, rfl, text, data.mpr rfl, read rfl⟩

/-! ## Queries one after the other -/

/-- The storage that queries leave. -/
def after (s : Storage) (qs : List Query) : Storage := qs.foldl (fun s q => (s.execute q).2) s

/-- Queries with the responses to them. -/
def responses (s : Storage) : List Query → List (Query × QueryResponse)
  | [] => []
  | q :: rest => (q, (s.execute q).1.response) :: (s.execute q).2.responses rest

/-- Whether a query that is no select succeeded, and so may have written something. -/
def wrote (e : Query × QueryResponse) : Bool := e.2.isOk && e.1.operation != .select

theorem execute_unchanged {s : Storage} {q : Query}
    (idle : wrote (q, (s.execute q).1.response) = false) : (s.execute q).2 = s := by
  have goes := s.goes_execute q
  rw [wrote, Bool.and_eq_false_iff] at idle
  rcases idle with error | read
  · exact (goes.of_err fun none => by simp [QueryResponse.isOk, none] at error).1
  · exact goes.of_select (by simpa using read)

/-- The queries that may have written something leave the same without the others, and get the same
responses. -/
theorem after_wrote (qs : List Query) (s : Storage) :
    let writes := (s.responses qs).filter wrote
    s.after (writes.map Prod.fst) = s.after qs ∧ s.responses (writes.map Prod.fst) = writes := by
  induction qs generalizing s with
  | nil => exact ⟨rfl, rfl⟩
  | cons q rest ih =>
      obtain ⟨left, same⟩ := ih (s.execute q).2
      dsimp only at left same ⊢
      rw [responses]
      by_cases effect : wrote (q, (s.execute q).1.response) = true
      · rw [List.filter_cons_of_pos effect, List.map_cons, responses]
        exact ⟨left, congrArg _ same⟩
      · rw [List.filter_cons_of_neg effect]
        have idle := execute_unchanged (Bool.eq_false_iff.mpr effect)
        have skipped : s.after (q :: rest) = s.after rest := by
          rw [after, List.foldl_cons, idle, ← after]
        rw [idle] at left same ⊢
        exact ⟨left.trans skipped.symm, same⟩

end Storage

end QueryBoard
