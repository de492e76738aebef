import QueryBoard.Proofs.Sql.Reading

/-!
# Functions with plain names

The name of a function is the one part of a statement that is written without quotes.  Which
functions a statement calls is decided by its expressions alone: builders put no other calls around
them.
-/

set_option autoImplicit false

namespace QueryBoard.Sql

/-- Tokens whose functions have names of letters. -/
def Tokens.PlainNames (ts : Tokens) : Prop := ∀ t ∈ ts, t.PlainName

namespace Tokens

theorem plainNames_nil : PlainNames [] := by
  intro t member
  cases member

theorem plainNames_cons {t : Token} {ts : Tokens} :
    PlainNames (t :: ts) ↔ t.PlainName ∧ ts.PlainNames :=
  List.forall_mem_cons

theorem plainNames_append {a b : Tokens} : PlainNames (a ++ b) ↔ a.PlainNames ∧ b.PlainNames :=
  List.forall_mem_append

theorem plainNames_of_glue {ts : Tokens} (glue : ∀ t ∈ ts, t.isGlue = true) : ts.PlainNames := by
  intro t member
  have separates := glue t member
  cases t with
  | function name => cases separates
  | _ => trivial

theorem plainNames_separated {separator : Tokens} (plain : separator.PlainNames) :
    ∀ items : List Tokens, (∀ ts ∈ items, ts.PlainNames) → (separated separator items).PlainNames := by
  intro items
  fun_induction separated separator items with
  | case1 => intro _; exact plainNames_nil
  | case2 item => intro each; exact each item (by simp)
  | case3 item items _ ih =>
      intro each
      rw [plainNames_append, plainNames_append]
      exact ⟨⟨each item (by simp), plain⟩, ih fun ts member => each ts (by simp [member])⟩

theorem plainNames_commaList {items : List Tokens} (each : ∀ ts ∈ items, ts.PlainNames) :
    (commaList items).PlainNames :=
  plainNames_separated (plainNames_of_glue (by simp [Token.isGlue])) items each

theorem plainNames_parenList {items : List Tokens} (each : ∀ ts ∈ items, ts.PlainNames) :
    (parenList items).PlainNames := by
  refine plainNames_append.mpr ⟨plainNames_cons.mpr ⟨trivial, plainNames_commaList each⟩, ?_⟩
  exact plainNames_of_glue (by simp [Token.isGlue])

theorem plainNames_clause {before content : Tokens} {words : String} (left : before.PlainNames)
    (right : content.PlainNames) : (clause before words content).PlainNames := by
  unfold clause
  refine plainNames_append.mpr ⟨plainNames_append.mpr ⟨left, ?_⟩, ?_⟩
  · split
    · exact plainNames_nil
    · exact plainNames_of_glue (by simp [Token.isGlue])
  · exact plainNames_cons.mpr ⟨trivial, plainNames_cons.mpr ⟨trivial, right⟩⟩

end Tokens

open Tokens

def Expr.PlainNames (e : Expr) : Prop := e.tokens.PlainNames

namespace Expr

theorem plainNames_column (table : Option String) (name : String) :
    (column table name).PlainNames := by
  cases table <;> simp [PlainNames, tokens, Tokens.PlainNames, Token.PlainName]

theorem plainNames_param (v : Value) : (param v).PlainNames := by
  simp [PlainNames, tokens, Tokens.PlainNames, Token.PlainName]

theorem PlainNames.binary {left right : Expr} (plain : left.PlainNames) (plain' : right.PlainNames)
    (op : BinaryOp) : (binary op left right).PlainNames := by
  unfold PlainNames
  rw [tokens, plainNames_append, plainNames_cons, plainNames_cons, plainNames_cons]
  exact ⟨plain, trivial, trivial, trivial, plain'⟩

theorem plainNames_tokensList {args : List Expr} (each : ∀ e ∈ args, e.PlainNames) :
    ∀ ts ∈ tokensList args, ts.PlainNames := by
  induction args with
  | nil =>
      intro ts listed
      simp [tokensList] at listed
  | cons e rest ih =>
      intro ts listed
      rw [tokensList] at listed
      rcases List.mem_cons.mp listed with same | listed
      · rw [same]
        exact each e (by simp)
      · exact ih (fun e member => each e (by simp [member])) ts listed

theorem plainNames_call {name : String} {args : List Expr} (word : IsWord name.toList)
    (each : ∀ e ∈ args, e.PlainNames) : (call name args).PlainNames := by
  unfold PlainNames
  rw [tokens, plainNames_cons]
  exact ⟨word, plainNames_parenList (plainNames_tokensList each)⟩

theorem plainNames_member {e : Expr} {items : List Expr} (negated : Bool) (plain : e.PlainNames)
    (each : ∀ i ∈ items, i.PlainNames) : (Expr.member negated e items).PlainNames := by
  cases items with
  | nil => simp [PlainNames, tokens, Tokens.PlainNames, Token.PlainName]
  | cons i is =>
      have list : (parenList (i.tokens :: tokensList is)).PlainNames :=
        plainNames_parenList (plainNames_tokensList each)
      have sign : Tokens.PlainNames (if negated then [.keyword "NOT", .space] else []) := by
        cases negated <;> simp [Tokens.PlainNames, Token.PlainName]
      unfold PlainNames
      rw [tokens, plainNames_append, plainNames_append, plainNames_cons, plainNames_cons,
        plainNames_cons]
      exact ⟨⟨plain, trivial, sign⟩, trivial, trivial, list⟩

theorem PlainNames.conjunction {es : List Expr} (each : ∀ e ∈ es, e.PlainNames) {whole : Expr}
    (joined : conjunction es = some whole) : whole.PlainNames := by
  have folded : ∀ (rest : List Expr) (first : Expr), first.PlainNames →
      (∀ e ∈ rest, e.PlainNames) → (rest.foldl and first).PlainNames := by
    intro rest
    induction rest with
    | nil => intro first plain _; exact plain
    | cons e rest ih =>
        intro first plain each
        exact ih _ (plain.binary (each e (by simp)) .and) fun x member => each x (by simp [member])
  cases es with
  | nil => cases joined
  | cons first rest =>
      cases joined
      exact folded rest first (each first (by simp)) fun e member => each e (by simp [member])

end Expr

/-! ## Statements -/

theorem plainNames_aliased {ts : Tokens} (plain : ts.PlainNames) (label : Option String) :
    (aliased ts label).PlainNames := by
  cases label with
  | none => exact plain
  | some name =>
      refine plainNames_append.mpr ⟨plain, ?_⟩
      simp [Tokens.PlainNames, Token.PlainName]

theorem TableRef.plainNames (r : TableRef) : r.tokens.PlainNames :=
  plainNames_aliased (Expr.plainNames_column none r.table) r.label

theorem plainNames_whereTokens {filters : List Expr} (each : ∀ e ∈ filters, e.PlainNames) :
    (whereTokens filters).PlainNames := by
  unfold whereTokens
  cases joined : Expr.conjunction filters with
  | none => exact plainNames_nil
  | some e =>
      rw [plainNames_cons, plainNames_cons, plainNames_cons]
      exact ⟨trivial, trivial, trivial, Expr.PlainNames.conjunction each joined⟩

theorem plainNames_listClause {before : Tokens} {words : String} {items : List Tokens}
    (left : before.PlainNames) (each : ∀ ts ∈ items, ts.PlainNames) :
    (Select.listClause before words items).PlainNames := by
  unfold Select.listClause
  split
  · exact left
  · exact plainNames_clause left (plainNames_commaList each)

/-- A block whose expressions call functions with plain names only. -/
structure Select.PlainNames (s : Select) : Prop where
  items : ∀ i ∈ s.items, i.expr.PlainNames
  joins : ∀ j ∈ s.joins, j.condition.PlainNames
  filters : ∀ e ∈ s.filters, e.PlainNames
  groupBy : ∀ e ∈ s.groupBy, e.PlainNames
  orderBy : ∀ o ∈ s.orderBy, o.expr.PlainNames

theorem plainNames_map {α : Type} {tokens : α → Tokens} {items : List α}
    (each : ∀ a ∈ items, (tokens a).PlainNames) :
    ∀ ts ∈ items.map tokens, Tokens.PlainNames ts := by
  intro ts member
  obtain ⟨a, inside, rfl⟩ := List.mem_map.mp member
  exact each a inside

theorem Select.plainNames_limitTokens (s : Select) : s.limitTokens.PlainNames := by
  unfold Select.limitTokens
  cases s.limit with
  | none => exact plainNames_nil
  | some n => cases s.offset <;> simp [Tokens.PlainNames, Token.PlainName]

theorem Join.plainNames {j : Join} (plain : j.condition.PlainNames) : j.tokens.PlainNames := by
  unfold Join.tokens
  rw [plainNames_append, plainNames_cons, plainNames_cons, plainNames_cons, plainNames_cons,
    plainNames_cons]
  exact ⟨⟨trivial, trivial, j.table.plainNames⟩, trivial, trivial, trivial, plain⟩

theorem Select.plainNames_joins {joins : List Join} (each : ∀ j ∈ joins, j.condition.PlainNames) :
    Tokens.PlainNames (joins.flatMap fun j => .newline 0 :: j.tokens) := by
  intro t member
  obtain ⟨j, inside, member⟩ := List.mem_flatMap.mp member
  rcases List.mem_cons.mp member with rfl | member
  · trivial
  · exact Join.plainNames (each j inside) t member

theorem SelectItem.plainNames {i : SelectItem} (plain : i.expr.PlainNames) :
    i.tokens.PlainNames :=
  plainNames_aliased plain i.label

theorem OrderItem.plainNames {o : OrderItem} (plain : o.expr.PlainNames) :
    o.tokens.PlainNames := by
  refine plainNames_append.mpr ⟨plain, ?_⟩
  simp [Tokens.PlainNames, Token.PlainName]

theorem Select.PlainNames.tokens {s : Select} (plain : s.PlainNames) : s.tokens.PlainNames := by
  have items : Tokens.PlainNames (if s.items.isEmpty then [.space, .star]
      else .newline 1 :: separated [.comma, .newline 1] (s.items.map SelectItem.tokens)) := by
    split
    · exact plainNames_of_glue (by simp [Token.isGlue])
    · refine plainNames_cons.mpr ⟨trivial, plainNames_separated ?_ _ ?_⟩
      · exact plainNames_of_glue (by simp [Token.isGlue])
      · exact plainNames_map fun i member => SelectItem.plainNames (plain.items i member)
  have start : Tokens.PlainNames (.keyword "SELECT" :: _) :=
    plainNames_cons.mpr ⟨trivial, items⟩
  have groupBy := plainNames_map plain.groupBy
  have orderBy := plainNames_map fun o member => OrderItem.plainNames (plain.orderBy o member)
  unfold Select.tokens
  refine plainNames_append.mpr ⟨?_, s.plainNames_limitTokens⟩
  refine plainNames_listClause (plainNames_listClause ?_ groupBy) orderBy
  have joined : ∀ ts : Tokens, ts.PlainNames →
      Tokens.PlainNames (ts ++ s.joins.flatMap fun j => .newline 0 :: j.tokens) :=
    fun ts before => plainNames_append.mpr ⟨before, Select.plainNames_joins plain.joins⟩
  cases filtered : Expr.conjunction s.filters with
  | none =>
      apply joined
      cases s.source with
      | none => exact start
      | some r => exact plainNames_clause start r.plainNames
  | some e =>
      refine plainNames_clause (joined _ ?_) (Expr.PlainNames.conjunction plain.filters filtered)
      cases s.source with
      | none => exact start
      | some r => exact plainNames_clause start r.plainNames

theorem Insert.plainNames {i : Insert} (each : ∀ row ∈ i.rows, ∀ e ∈ row, e.PlainNames) :
    i.tokens.PlainNames := by
  have names : ∀ ts ∈ i.columns.map fun c => [Token.ident c], Tokens.PlainNames ts :=
    plainNames_map fun c _ => Expr.plainNames_column none c
  have rows : ∀ ts ∈ i.rows.map fun row => parenList (row.map Expr.tokens), Tokens.PlainNames ts :=
    plainNames_map fun row member => plainNames_parenList (plainNames_map (each row member))
  unfold Insert.tokens
  refine plainNames_append.mpr ⟨plainNames_append.mpr ⟨?_, ?_⟩, ?_⟩
  · simp [Tokens.PlainNames, Token.PlainName]
  · split
    · exact plainNames_nil
    · exact plainNames_cons.mpr ⟨trivial, plainNames_parenList names⟩
  · split
    · exact plainNames_nil
    · rw [plainNames_cons, plainNames_cons, plainNames_cons]
      exact ⟨trivial, trivial, trivial, plainNames_commaList rows⟩

theorem Update.plainNames {u : Update} (values : ∀ a ∈ u.assignments, a.2.PlainNames)
    (filters : ∀ e ∈ u.filters, e.PlainNames) : u.tokens.PlainNames := by
  unfold Update.tokens
  refine plainNames_append.mpr ⟨plainNames_append.mpr ⟨?_, ?_⟩, plainNames_whereTokens filters⟩
  · simp [Tokens.PlainNames, Token.PlainName]
  · apply plainNames_commaList
    apply plainNames_map
    intro a member
    rw [plainNames_cons, plainNames_cons, plainNames_cons, plainNames_cons]
    exact ⟨trivial, trivial, trivial, trivial, values a member⟩

theorem Delete.plainNames {d : Delete} (filters : ∀ e ∈ d.filters, e.PlainNames) :
    d.tokens.PlainNames := by
  unfold Delete.tokens
  refine plainNames_append.mpr ⟨?_, plainNames_whereTokens filters⟩
  simp [Tokens.PlainNames, Token.PlainName]

end QueryBoard.Sql
