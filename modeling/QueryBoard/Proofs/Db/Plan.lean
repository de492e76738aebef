import QueryBoard.Db.Select
import QueryBoard.Proofs.Fallible
import QueryBoard.Proofs.Sql.Block

/-!
# Plans of statements

A block is planned by looking its names up, and its text is only asked whether it can be written.  A
plan knows nothing of limit and offset, which cut the result at last.  So a statement that runs also
runs with any other page, and gives that page of the same result.
-/

set_option autoImplicit false

namespace QueryBoard.Db

open Sql (Token Tokens)

/-! ## Texts that can be written -/

theorem check_eq_ok_iff {l : Limit} {n : Nat} : l.check n = .ok () ↔ n ≤ l.most := by
  unfold Limit.check
  split
  · next few => exact iff_of_true rfl few
  · next many => exact iff_of_false (by simp) many

/-- Whether a token is written in full. -/
def IsWhole (t : Token) : Prop := '\x00' ∉ (t.text .sqlite 1).toList

theorem brokenToken?_eq_none_iff {ts : Tokens} : brokenToken? ts = none ↔ ∀ t ∈ ts, IsWhole t := by
  induction ts with
  | nil => simp [brokenToken?]
  | cons t ts ih =>
      simp only [brokenToken?, List.forall_mem_cons, IsWhole, String.contains_char_eq,
        decide_eq_true_eq]
      split
      · next broken => simp [broken]
      · next whole => simp [whole, ih, IsWhole]

theorem checkNames_eq_ok_iff {ts : Tokens} : checkNames ts = .ok () ↔ ∀ t ∈ ts, IsWhole t := by
  rw [← brokenToken?_eq_none_iff, checkNames]
  cases brokenToken? ts <;> simp

theorem checkParamCount_eq_ok_iff {ts : Tokens} :
    checkParamCount ts = .ok () ↔ ts.params.length ≤ Limit.parameters.most := by
  simp only [checkParamCount]
  split
  · next few => exact iff_of_true rfl few
  · next many => exact iff_of_false (by simp) many

/-- A text can be written if its tokens are whole and it keeps within the limits. -/
theorem checkText_eq_ok_iff {ts : Tokens} {sources : Nat} {filters : List Sql.Expr} :
    checkText ts sources filters = .ok () ↔ (∀ t ∈ ts, IsWhole t) ∧
      sources ≤ Limit.sources.most ∧ ts.params.length ≤ Limit.parameters.most ∧
        ((Sql.Expr.conjunction filters).map levels).getD 0 ≤ Limit.depth.most := by
  rw [← checkNames_eq_ok_iff, ← check_eq_ok_iff, ← checkParamCount_eq_ok_iff, ← check_eq_ok_iff, checkText]
  simp only [bind_eq_ok_iff]
  constructor
  · rintro ⟨_, first, _, second, _, third, fourth⟩
    exact ⟨first, second, third, fourth⟩
  · rintro ⟨first, second, third, fourth⟩
    exact ⟨(), first, (), second, (), third, fourth⟩

theorem isWhole_int (n : Int64) : IsWhole (.literal (.int n)) := by
  have digits (m : Nat) : '\x00' ∉ Nat.toDigits 10 m := by
    intro member
    have digit := Nat.isDigit_of_mem_toDigits (by decide) (by decide) member
    revert digit
    decide
  rw [IsWhole, Token.text, Int.toString_eq_repr, Int.repr_eq_if]
  split
  · rw [Nat.toList_repr]
    exact digits _
  · rw [String.toList_append, Nat.toList_repr, List.mem_append]
    rintro (sign | member)
    · revert sign
      decide
    · exact digits _ member

/-- A limit can always be written. -/
theorem isWhole_limitTokens (s : Sql.Select) : ∀ t ∈ s.limitTokens, IsWhole t := by
  have space : IsWhole .space := by simp [IsWhole, Token.text]
  have line : IsWhole (.newline 0) := by simp [IsWhole, Token.text]
  have limit : IsWhole (.keyword "LIMIT") := by simp [IsWhole, Token.text]
  have offset : IsWhole (.keyword "OFFSET") := by simp [IsWhole, Token.text]
  have count (n : UInt64) : IsWhole (.literal (Sql.rowCount n)) := isWhole_int _
  unfold Sql.Select.limitTokens
  cases s.limit with
  | none => simp
  | some n => cases s.offset <;> simp [space, line, limit, offset, count]

/-! ## Plans -/

namespace Term

theorem allSlots_eq_flatMap (ts : List Term) : allSlots ts = ts.flatMap slots := by
  induction ts with
  | nil => rfl
  | cons t ts ih => rw [allSlots, ih, List.flatMap_cons]

theorem anyAggregate_eq_any (ts : List Term) : anyAggregate ts = ts.any hasAggregate := by
  induction ts with
  | nil => rfl
  | cons t ts ih => rw [anyAggregate, ih, List.any_cons]

end Term

theorem length_resolveList (names : Names) : ∀ (es : List Sql.Expr) (ts : List Term),
    resolveList names es = .ok ts → ts.length = es.length := by
  intro es
  induction es with
  | nil =>
      intro ts success
      cases success
      rfl
  | cons e rest ih =>
      intro ts success
      rw [resolveList] at success
      obtain ⟨t, _, success⟩ := bind_eq_ok_iff.mp success
      obtain ⟨more, later, same⟩ := bind_eq_ok_iff.mp success
      cases same
      rw [List.length_cons, List.length_cons, ih more later]

theorem resolveList_concat_eq_ok {names : Names} {es : List Sql.Expr} {e : Sql.Expr} {t : Term}
    (last : resolve names e = .ok t) {ts : List Term}
    (success : resolveList names (es ++ [e]) = .ok ts) :
    ∃ before, resolveList names es = .ok before ∧ ts = before ++ [t] := by
  induction es generalizing ts with
  | nil =>
      simp only [List.nil_append, resolveList, last, ok_bind] at success
      cases success
      exact ⟨[], rfl, rfl⟩
  | cons first es ih =>
      rw [List.cons_append, resolveList] at success
      obtain ⟨head, found, success⟩ := bind_eq_ok_iff.mp success
      obtain ⟨more, later, same⟩ := bind_eq_ok_iff.mp success
      cases same
      obtain ⟨before, resolved, rfl⟩ := ih later
      refine ⟨head :: before, ?_, rfl⟩
      rw [resolveList, found, ok_bind, resolved]
      rfl

/-- A plan of a block: what its names stand for, within the limits.  Where the block stands in a
statement only tells the place of a fault. -/
inductive Plans (bindings : List Binding) (s : Sql.Select) : Plan → Prop where
  | of {items filters conditions keys groupBy : List Term} :
      listWidth bindings s.items ≤ Limit.resultColumns.most →
      resolveList (selectNames bindings) (s.items.map (·.expr)) = .ok items →
      resolveList (selectNames bindings) s.filters = .ok filters →
      resolveList (selectNames bindings) (s.joins.map (·.condition)) = .ok conditions →
      resolveList (selectNames bindings) (s.orderBy.map (·.expr)) = .ok keys →
      keys.length ≤ Limit.orderTerms.most →
      resolveList (selectNames bindings) s.groupBy = .ok groupBy →
      groupBy.length ≤ Limit.groupTerms.most →
      bindings.length ≤ Limit.joined.most →
      checkOrder groupBy items keys = .ok () →
      Plans bindings s {
        bindings
        columns := (if s.items.isEmpty then allColumns bindings
          else (s.items.zip items).map fun e => (outputName bindings e.1 e.2, e.2)).map (·.1)
        items := (if s.items.isEmpty then allColumns bindings
          else (s.items.zip items).map fun e => (outputName bindings e.1 e.2, e.2)).map (·.2)
        filters
        joins := (s.joins.map (·.type)).zip conditions
        groupBy
        orderBy := keys.zip (s.orderBy.map (·.dir)) }

theorem planBlock_eq_ok_iff {statement : Tokens} {bindings : List Binding} {s : Sql.Select}
    {p : Plan} : planBlock statement bindings s = .ok p ↔ Plans bindings s p := by
  constructor
  · intro success
    obtain ⟨_, width, success⟩ := bind_eq_ok_iff.mp success
    obtain ⟨items, listed, success⟩ := bind_eq_ok_iff.mp success
    obtain ⟨filters, filtered, success⟩ := bind_eq_ok_iff.mp success
    obtain ⟨conditions, joined, success⟩ := bind_eq_ok_iff.mp success
    obtain ⟨keys, ordered, success⟩ := bind_eq_ok_iff.mp success
    obtain ⟨_, orderTerms, success⟩ := bind_eq_ok_iff.mp success
    obtain ⟨groupBy, grouped, success⟩ := bind_eq_ok_iff.mp success
    obtain ⟨_, groupTerms, success⟩ := bind_eq_ok_iff.mp success
    obtain ⟨_, tables, success⟩ := bind_eq_ok_iff.mp success
    obtain ⟨_, aggregates, same⟩ := bind_eq_ok_iff.mp success
    cases same
    exact Plans.of (check_eq_ok_iff.mp width) (mapError_eq_ok_iff.mp listed)
      (mapError_eq_ok_iff.mp filtered) joined (mapError_eq_ok_iff.mp ordered)
      (check_eq_ok_iff.mp orderTerms) (mapError_eq_ok_iff.mp grouped)
      (check_eq_ok_iff.mp groupTerms) (check_eq_ok_iff.mp tables) aggregates
  · rintro ⟨width, listed, filtered, joined, ordered, orderTerms, grouped, groupTerms, tables,
      aggregates⟩
    simp only [planBlock, listed, filtered, joined, ordered, grouped, aggregates,
      check_eq_ok_iff.mpr width, check_eq_ok_iff.mpr orderTerms, check_eq_ok_iff.mpr groupTerms,
      check_eq_ok_iff.mpr tables, Except.mapError, ok_bind]
    rfl

/-- The page of a block does not count for its plan. -/
theorem Plans.paged {bindings : List Binding} {s : Sql.Select} {p : Plan}
    (planned : Plans bindings s p) (limit offset : Option UInt64) :
    Plans bindings { s with limit, offset } p := by
  obtain ⟨width, listed, filtered, joined, ordered, orderTerms, grouped, groupTerms, tables,
    aggregates⟩ := planned
  exact Plans.of (s := { s with limit, offset }) width listed filtered joined ordered orderTerms
    grouped groupTerms tables aggregates

/-! ## Results and their pages -/

theorem sortByKey_map {α β : Type} (f : α → β) (entries : List (List (Cell × Sql.SortDir) × α)) :
    sortByKey (entries.map fun e => (e.1, f e.2)) =
      (sortByKey entries).map fun e => (e.1, f e.2) := by
  symm
  exact List.map_mergeSort fun a _ b _ => rfl

namespace Plan

variable (p : Plan)

/-- The sort key and the cells of a row, of `n` rows. -/
def entry (n : Nat) (eval : Nat → Term → Except DbError Cell) :
    Except DbError (List (Cell × Sql.SortDir) × List Cell) := do
  let key ← p.orderBy.mapM fun k => do return (← eval n k.1, k.2)
  let cells ← p.items.mapM (eval n)
  return (key, cells)

theorem result_eq : p.result = (fun keyed => (sortByKey keyed).map (·.2)) <$>
    p.evaluators.mapM (p.entry p.evaluators.length) := by
  rw [map_eq_pure_bind]
  rfl

theorem length_result {rows : List (List Cell)} (success : p.result = .ok rows) :
    rows.length = p.evaluators.length := by
  obtain ⟨keyed, each, same⟩ := bind_eq_ok_iff.mp success
  cases same
  rw [List.length_map, sortByKey, List.length_mergeSort]
  exact (mapM_eq_ok_iff.mp each).length_eq.symm

end Plan

theorem length_of_mem_result {p : Plan} {rows : List (List Cell)} (success : p.result = .ok rows) :
    ∀ row ∈ rows, row.length = p.items.length := by
  obtain ⟨keyed, each, same⟩ := bind_eq_ok_iff.mp success
  cases same
  intro row member
  obtain ⟨made, listed, rfl⟩ := List.mem_map.mp member
  obtain ⟨eval, _, entry⟩ := exists_of_mem_mapM each made (List.mem_mergeSort.mp listed)
  obtain ⟨key, _, entry⟩ := bind_eq_ok_iff.mp entry
  obtain ⟨cells, evaluated, same⟩ := bind_eq_ok_iff.mp entry
  cases same
  exact (mapM_eq_ok_iff.mp evaluated).length_eq.symm

theorem mem_of_mem_page {α : Type} {limit offset : Option UInt64} {rows : List α} {row : α}
    (member : row ∈ page limit offset rows) : row ∈ rows := by
  unfold page at member
  split at member
  · exact member
  · exact List.mem_of_mem_drop (List.mem_of_mem_take member)

theorem page_map {α β : Type} (f : α → β) (limit offset : Option UInt64) (rows : List α) :
    page limit offset (rows.map f) = (page limit offset rows).map f := by
  unfold page
  cases limit with
  | none => rfl
  | some n => simp only [List.map_drop, List.map_take]

/-! ## Selects -/

/-- What a select goes through up to its whole result, of which limit and offset take a page. -/
structure Selects (db : Database) (s : Sql.Select) (p : Plan) (rows : List (List Cell)) : Prop where
  written : checkText s.tokens s.tables.length s.filters = .ok ()
  planned : ∃ bindings, s.tables.mapM (bind db) = .ok bindings ∧ Plans bindings s p
  bound : checkParams s.tokens.params = .ok ()
  evaluated : p.result = .ok rows

theorem select_eq_ok_iff {db : Database} {s : Sql.Select} {r : ResultSet} :
    db.select s = .ok r ↔ ∃ p rows, Selects db s p rows ∧
      r = { columns := p.columns, rows := page s.limit s.offset rows } := by
  constructor
  · intro success
    obtain ⟨p, planned, success⟩ := bind_eq_ok_iff.mp success
    obtain ⟨_, bound, success⟩ := bind_eq_ok_iff.mp success
    obtain ⟨rows, evaluated, same⟩ := bind_eq_ok_iff.mp success
    cases same
    obtain ⟨_, written, planned⟩ := bind_eq_ok_iff.mp planned
    obtain ⟨bindings, found, planned⟩ := bind_eq_ok_iff.mp planned
    exact ⟨p, rows,
      ⟨written, ⟨bindings, found, planBlock_eq_ok_iff.mp planned⟩, bound, evaluated⟩, rfl⟩
  · rintro ⟨p, rows, ⟨written, ⟨bindings, found, planned⟩, bound, evaluated⟩, rfl⟩
    have whole : plan db s = .ok p := by
      simp only [plan, written, found, ok_bind, planBlock_eq_ok_iff.mpr planned]
    simp only [Database.select, whole, bound, evaluated, ok_bind]
    rfl

/-- Only the count of rows is written otherwise for another page. -/
theorem checkText_paged {s : Sql.Select}
    (written : checkText s.tokens s.tables.length s.filters = .ok ())
    (limit offset : Option UInt64) : checkText ({ s with limit, offset } : Sql.Select).tokens
      s.tables.length s.filters = .ok () := by
  obtain ⟨whole, sources, params, depth⟩ := checkText_eq_ok_iff.mp written
  refine checkText_eq_ok_iff.mpr ⟨fun t member => ?_, sources, ?_, depth⟩
  · rw [Sql.Select.tokens_eq] at whole member
    rcases List.mem_append.mp member with member | member
    · exact whole t (List.mem_append_left _ member)
    · rcases List.mem_append.mp member with member | member
      · exact whole t (List.mem_append_right _ (List.mem_append_left _ member))
      · exact isWhole_limitTokens _ t member
  · rwa [Sql.Select.params_tokens] at params ⊢

/-- A select that runs gives every page of one result. -/
theorem Selects.paged {db : Database} {s : Sql.Select} {p : Plan} {rows : List (List Cell)}
    (selects : Selects db s p rows) (limit offset : Option UInt64) :
    Selects db { s with limit, offset } p rows := by
  obtain ⟨written, ⟨bindings, found, planned⟩, bound, evaluated⟩ := selects
  have params : ({ s with limit, offset } : Sql.Select).tokens.params = s.tokens.params := by
    rw [Sql.Select.params_tokens, Sql.Select.params_tokens]
  exact ⟨checkText_paged written limit offset, ⟨bindings, found, planned.paged limit offset⟩,
    by rwa [params], evaluated⟩

end QueryBoard.Db
