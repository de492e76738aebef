import QueryBoard.Proofs.Sql.Recovery

/-!
# Values in a statement

The values that a statement binds are those of its symbols, so they are the values of its parts, in
the order in which the parts are written.  Its text has none of them: with null in the place of every
value the text is the same.
-/

set_option autoImplicit false

namespace QueryBoard.Sql

open QueryBoard.Sql.Symbol

/-! ## The values of symbols -/

namespace Symbol

def value? : Symbol → Option Value
  | .value v => some v
  | .lexeme _ => none

def values (ss : List Symbol) : List Value := ss.filterMap value?

@[simp]
theorem values_append (a b : List Symbol) : values (a ++ b) = values a ++ values b :=
  List.filterMap_append

theorem values_cons {s : Symbol} (plain : s.value? = none) (ss : List Symbol) :
    values (s :: ss) = values ss :=
  List.filterMap_cons_none plain

theorem values_flatMap {α : Type} (as : List α) (f : α → List Symbol) :
    values (as.flatMap f) = as.flatMap fun a => values (f a) := by
  induction as with
  | nil => rfl
  | cons a as ih => rw [List.flatMap_cons, values_append, ih, List.flatMap_cons]

theorem values_joined {separator : Symbol} (plain : separator.value? = none)
    (items : List (List Symbol)) : values (joined separator items) = items.flatMap values := by
  cases items with
  | nil => rfl
  | cons item rest =>
      rw [joined, values_append, values_flatMap, List.flatMap_cons]
      simp only [values_cons plain]

end Symbol

theorem Token.values_symbols (t : Token) : values t.symbols = t.value?.toList := by
  have plain (ls : List Lexeme) : values (ls.map .lexeme) = [] := by
    induction ls with
    | nil => rfl
    | cons l ls ih => rw [List.map_cons, values_cons rfl, ih]
  cases t with
  | param v => rfl
  | _ => exact plain _

theorem Tokens.values_symbols (ts : Tokens) : values ts.symbols = ts.params := by
  induction ts with
  | nil => rfl
  | cons t ts ih =>
      rw [symbols_cons, values_append, ih, Token.values_symbols]
      cases value : t.value? <;> simp [params, value]

theorem values_words (ws : String) : values (words ws) = [] :=
  Token.values_symbols (.keyword ws)

theorem values_clauseSymbols (ws : String) (separator : Symbol) (plain : separator.value? = none)
    (items : List (List Symbol)) :
    values (clauseSymbols ws separator items) = items.flatMap values := by
  unfold clauseSymbols
  split
  · next none => rw [none]; rfl
  · rw [values_append, values_words, List.nil_append, values_joined plain]

/-! ## The values of expressions -/

namespace Expr

/-- The values that an expression binds. -/
def params (e : Expr) : List Value := e.tokens.params

theorem values_symbols (e : Expr) : values e.symbols = e.params :=
  Tokens.values_symbols e.tokens

theorem flatMap_symbols (es : List Expr) :
    (es.map symbols).flatMap values = es.flatMap params := by
  rw [List.flatMap_map]
  simp only [values_symbols]

@[simp]
theorem params_column (table : Option String) (name : String) :
    (Expr.column table name).params = [] := by
  cases table <;> rw [params, tokens] <;> rfl

@[simp]
theorem params_param (v : Value) : (Expr.param v).params = [v] := by
  rw [params, tokens]
  rfl

@[simp]
theorem params_binary (op : BinaryOp) (left right : Expr) :
    (Expr.binary op left right).params = left.params ++ right.params := by
  have operator : values (Token.operator op).symbols = [] := Token.values_symbols _
  rw [← values_symbols, symbols_binary, values_append, values_append, operator, values_symbols,
    values_symbols, List.append_nil]

@[simp]
theorem params_call (name : String) (args : List Expr) :
    (Expr.call name args).params = args.flatMap params := by
  rw [← values_symbols, symbols_call, values_append, values_cons rfl, values_cons rfl,
    values_joined rfl, flatMap_symbols]
  exact List.append_nil _

/-- A membership in the empty list binds nothing, whatever it asks about. -/
theorem params_member {e : Expr} (plain : e.params = []) (negated : Bool) (items : List Expr) :
    (Expr.member negated e items).params = items.flatMap params := by
  rw [← values_symbols]
  cases items with
  | nil =>
      rw [symbols_member_empty]
      rfl
  | cons i is =>
      have words : values (memberWords negated) = [] := by cases negated <;> rfl
      rw [symbols_member_list, values_append, values_append, values_append, values_cons rfl,
        values_joined rfl, flatMap_symbols, values_symbols, plain, words, List.nil_append]
      exact List.append_nil _

end Expr

/-! ## The values of statements -/

theorem SelectItem.params_tokens (i : SelectItem) : i.tokens.params = i.expr.params := by
  rw [← Tokens.values_symbols, SelectItem.symbols_tokens, values_append, Expr.values_symbols]
  cases i.label <;> exact List.append_nil _

theorem TableRef.params_tokens (r : TableRef) : r.tokens.params = [] := by
  rw [← Tokens.values_symbols, TableRef.symbols_tokens, values_cons rfl]
  cases r.label <;> rfl

theorem Join.params_tokens (j : Join) : j.tokens.params = j.condition.params := by
  have table : values j.table.tokens.symbols = [] := by
    rw [Tokens.values_symbols, TableRef.params_tokens]
  rw [← Tokens.values_symbols, Join.symbols_tokens, values_append, values_append, values_words,
    table, values_cons rfl, Expr.values_symbols]
  rfl

theorem OrderItem.params_tokens (o : OrderItem) : o.tokens.params = o.expr.params := by
  rw [← Tokens.values_symbols, OrderItem.symbols_tokens, values_append, values_words,
    Expr.values_symbols, List.append_nil]

theorem Select.params_limitTokens (s : Select) : s.limitTokens.params = [] := by
  unfold limitTokens
  cases s.limit with
  | none => rfl
  | some n => cases s.offset <;> rfl

/-- A block binds the values of its items, joins, conditions, groups and order, in this order. -/
theorem Select.params_tokens (s : Select) : s.tokens.params =
    (s.items.flatMap fun i => i.expr.params) ++ (s.joins.flatMap fun j => j.condition.params) ++
      s.filters.flatMap Expr.params ++ s.groupBy.flatMap Expr.params ++
      s.orderBy.flatMap fun o => o.expr.params := by
  have items : values s.itemSymbols = s.items.flatMap fun i => i.expr.params := by
    unfold itemSymbols
    split
    · next none => rw [none]; rfl
    · rw [values_joined rfl, List.flatMap_map]
      simp only [Tokens.values_symbols, SelectItem.params_tokens]
  have source : values s.sourceSymbols = [] := by
    unfold sourceSymbols
    cases s.source with
    | none => rfl
    | some r =>
        rw [Option.map_some, Option.getD_some, values_cons rfl, Tokens.values_symbols,
          TableRef.params_tokens]
  have joins : values (s.joins.flatMap fun j => j.tokens.symbols) =
      s.joins.flatMap fun j => j.condition.params := by
    simp only [values_flatMap, Tokens.values_symbols, Join.params_tokens]
  have order : (s.orderBy.map fun o => o.tokens.symbols).flatMap values =
      s.orderBy.flatMap fun o => o.expr.params := by
    rw [List.flatMap_map]
    simp only [Tokens.values_symbols, OrderItem.params_tokens]
  have limit : values s.limitTokens.symbols = [] := by
    rw [Tokens.values_symbols, params_limitTokens]
  rw [← Tokens.values_symbols, symbols_tokens, values_cons rfl]
  simp only [values_append, items, source, joins, limit, order, Expr.flatMap_symbols,
    values_clauseSymbols _ (word "AND") rfl, values_clauseSymbols _ (mark ",") rfl,
    List.append_nil, List.nil_append, List.append_assoc]

theorem params_whereTokens (filters : List Expr) :
    (whereTokens filters).params = filters.flatMap Expr.params := by
  rw [← Tokens.values_symbols, symbols_whereTokens, values_clauseSymbols _ _ rfl,
    Expr.flatMap_symbols]

theorem Insert.params_tokens {i : Insert} (regular : i.Regular) :
    i.tokens.params = i.rows.flatMap fun row => row.flatMap Expr.params := by
  have names : values (joined (mark ",") (i.columns.map fun c => [quoted c])) = [] := by
    rw [values_joined rfl, List.flatMap_map, List.flatMap_eq_nil_iff]
    exact fun _ _ => rfl
  have row (row : List Expr) : values (Tokens.parenList (row.map Expr.tokens)).symbols =
      row.flatMap Expr.params := by
    have symbols : (row.map Expr.tokens).map Tokens.symbols = row.map Expr.symbols := List.map_map
    rw [Tokens.symbols_parenList, symbols, values_append, values_cons rfl, values_joined rfl,
      Expr.flatMap_symbols]
    exact List.append_nil _
  rw [← Tokens.values_symbols, Insert.symbols_tokens regular, values_append, values_words,
    values_cons rfl, values_cons rfl, values_append, names, values_cons rfl, values_cons rfl,
    values_joined rfl, List.flatMap_map]
  simp only [row, List.nil_append]

theorem Update.params_tokens (u : Update) : u.tokens.params =
    (u.assignments.flatMap fun a => a.2.params) ++ u.filters.flatMap Expr.params := by
  rw [← Tokens.values_symbols, Update.symbols_tokens, values_cons rfl, values_cons rfl,
    values_cons rfl, values_append, values_joined rfl, List.flatMap_map, Tokens.values_symbols,
    params_whereTokens]
  simp only [values_cons (s := quoted _) rfl, values_cons (s := mark _) rfl, Expr.values_symbols]

theorem Delete.params_tokens (d : Delete) :
    d.tokens.params = d.filters.flatMap Expr.params := by
  rw [Delete.tokens, Tokens.params_append, params_whereTokens]
  rfl

/-! ## Texts without values -/

/-- The token with null in the place of its value. -/
def Token.blank : Token → Token
  | .param _ => .param .null
  | t => t

theorem Token.blank_blank (t : Token) : t.blank.blank = t.blank := by
  cases t <;> rfl

theorem Token.text_blank (d : Dialect) (position : Nat) (t : Token) :
    t.blank.text d position = t.text d position := by
  cases t <;> rfl

theorem Token.isSome_value?_blank (t : Token) : t.blank.value?.isSome = t.value?.isSome := by
  cases t <;> rfl

namespace Tokens

def blank (ts : Tokens) : Tokens := ts.map Token.blank

@[simp]
theorem blank_blank (ts : Tokens) : ts.blank.blank = ts.blank := by
  rw [blank, blank, List.map_map]
  exact List.map_congr_left fun t _ => t.blank_blank

@[simp]
theorem blank_append (a b : Tokens) : (a ++ b).blank = a.blank ++ b.blank := List.map_append

@[simp]
theorem blank_cons (t : Token) (ts : Tokens) : blank (t :: ts) = t.blank :: ts.blank := rfl

/-- No value is in a text, and placeholders have the same numbers whatever their values are. -/
theorem textFrom_blank (d : Dialect) (ts : Tokens) (position : Nat) :
    textFrom d position ts.blank = textFrom d position ts := by
  induction ts generalizing position with
  | nil => rfl
  | cons t ts ih =>
      rw [blank_cons, textFrom, textFrom, ih, Token.text_blank, Token.isSome_value?_blank]

theorem text_eq_of_blank_eq {ts ts' : Tokens} (same : ts.blank = ts'.blank) (d : Dialect) :
    ts.text d = ts'.text d := by
  rw [text, ← textFrom_blank, same, textFrom_blank, text]

theorem blank_separated (separator : Tokens) (items : List Tokens) :
    (separated separator items).blank = separated separator.blank (items.map blank) := by
  fun_induction separated separator items with
  | case1 => rfl
  | case2 item => rfl
  | case3 item items other ih =>
      rw [blank_append, blank_append, ih]
      cases items with
      | nil => exact absurd rfl other
      | cons second items => rfl

theorem blank_parenList (items : List Tokens) :
    (parenList items).blank = parenList (items.map blank) := by
  rw [parenList, blank_append, blank_cons, commaList, blank_separated]
  rfl

theorem blank_clause (before : Tokens) (ws : String) (content : Tokens) :
    (clause before ws content).blank = clause before.blank ws content.blank := by
  have start : before.blank.isEmpty = before.isEmpty := List.isEmpty_map
  rw [clause, clause, start]
  split <;> simp only [blank_append, blank_cons] <;> rfl

theorem blank_listClause (before : Tokens) (ws : String) (items : List Tokens) :
    (Select.listClause before ws items).blank =
      Select.listClause before.blank ws (items.map blank) := by
  have none : (items.map blank).isEmpty = items.isEmpty := List.isEmpty_map
  rw [Select.listClause, Select.listClause, none]
  split
  · rfl
  · rw [blank_clause, commaList, blank_separated]
    rfl

end Tokens

namespace Expr

mutual

/-- The expression with null in the place of every value. -/
def blank : Expr → Expr
  | .param _ => .param .null
  | .column table name => .column table name
  | .literal l => .literal l
  | .binary op left right => .binary op left.blank right.blank
  | .call name args => .call name (blankList args)
  | .member negated e items => .member negated e.blank (blankList items)
  | .star => .star
  | .over e => .over e.blank

def blankList : List Expr → List Expr
  | [] => []
  | e :: rest => e.blank :: blankList rest

end

theorem blankList_eq_map (es : List Expr) : blankList es = es.map blank := by
  induction es with
  | nil => rfl
  | cons e es ih => rw [blankList, ih, List.map_cons]

mutual

theorem tokens_blank : ∀ e : Expr, e.blank.tokens = e.tokens.blank
  | .param v => by rw [blank, tokens, tokens]; rfl
  | .column table name => by cases table <;> rw [blank, tokens] <;> rfl
  | .literal l => by rw [blank, tokens]; rfl
  | .binary op left right => by
      rw [blank, tokens, tokens, tokens_blank left, tokens_blank right, Tokens.blank_append]
      rfl
  | .call name args => by
      rw [blank, tokens, tokens, tokensList_blankList args, Tokens.blank_cons,
        Tokens.blank_parenList]
      rfl
  | .member negated e [] => by
      rw [blank, blankList, tokens, tokens]
      rfl
  | .member negated e (i :: is) => by
      rw [blank, blankList, tokens, tokens, tokens_blank e, tokens_blank i,
        tokensList_blankList is]
      cases negated <;>
        simp only [Tokens.blank_append, Tokens.blank_cons, Tokens.blank_parenList, List.map_cons] <;>
        rfl
  | .star => by rw [blank, tokens]; rfl
  | .over e => by
      rw [blank, tokens, tokens, tokens_blank e, Tokens.blank_append]
      rfl

theorem tokensList_blankList : ∀ es : List Expr,
    tokensList (blankList es) = (tokensList es).map Tokens.blank
  | [] => rfl
  | e :: rest => by
      rw [blankList, tokensList, tokensList, tokens_blank e, tokensList_blankList rest,
        List.map_cons]

end

theorem conjunction_blank (es : List Expr) :
    conjunction (es.map blank) = (conjunction es).map blank := by
  cases es with
  | nil => rfl
  | cons first rest =>
      have folded : (rest.map blank).foldl and first.blank = (rest.foldl and first).blank := by
        rw [List.foldl_map]
        exact List.foldl_hom blank fun e e' => by rw [and, and, blank]
      exact congrArg some folded

end Expr

theorem blank_whereTokens (filters : List Expr) :
    whereTokens (filters.map Expr.blank) = (whereTokens filters).blank := by
  rw [whereTokens, whereTokens, Expr.conjunction_blank]
  cases Expr.conjunction filters with
  | none => rfl
  | some e =>
      rw [Option.map_some]
      simp only [Expr.tokens_blank, Tokens.blank_cons]
      rfl

theorem Select.blank_tokens (s : Select) :
    ({ s with filters := s.filters.map Expr.blank } : Select).tokens.blank = s.tokens.blank := by
  unfold tokens
  simp only [Tokens.blank_append, Tokens.blank_listClause]
  rw [Expr.conjunction_blank]
  cases Expr.conjunction s.filters with
  | none => rfl
  | some e =>
      simp only [Option.map_some, Expr.tokens_blank, Tokens.blank_clause, Tokens.blank_blank]
      rfl

namespace Statement

/-- The statement with null in the place of every value that is assigned or compared with. -/
def blank : Statement → Statement
  | .select s => .select { s with filters := s.filters.map Expr.blank }
  | .insert i => .insert { i with rows := i.rows.map fun row => row.map Expr.blank }
  | .update u => .update {
      table := u.table
      assignments := u.assignments.map fun a => (a.1, a.2.blank)
      filters := u.filters.map Expr.blank }
  | .delete d => .delete { d with filters := d.filters.map Expr.blank }

theorem blank_tokens (s : Statement) : s.blank.tokens.blank = s.tokens.blank := by
  cases s with
  | select s => exact s.blank_tokens
  | insert i =>
      have rows : ((i.rows.map fun row => row.map Expr.blank).map fun row =>
            Tokens.parenList (row.map Expr.tokens)).map Tokens.blank =
          (i.rows.map fun row => Tokens.parenList (row.map Expr.tokens)).map Tokens.blank := by
        simp only [List.map_map, Function.comp_def, Tokens.blank_parenList, Expr.tokens_blank,
          Tokens.blank_blank]
      have none : (i.rows.map fun row => row.map Expr.blank).isEmpty = i.rows.isEmpty :=
        List.isEmpty_map
      simp only [blank, tokens, Insert.tokens, none, Tokens.blank_append]
      congr 1
      split
      · rfl
      · simp only [Tokens.blank_cons, Tokens.commaList, Tokens.blank_separated, rows]
  | update u =>
      simp only [blank, tokens, Update.tokens, Tokens.blank_append, blank_whereTokens,
        Tokens.blank_blank, Tokens.commaList, Tokens.blank_separated, List.map_map,
        Function.comp_def, Tokens.blank_cons, Expr.tokens_blank]
  | delete d =>
      simp only [blank, tokens, Delete.tokens, Tokens.blank_append, blank_whereTokens,
        Tokens.blank_blank]

/-- Statements that differ in nothing but their values have one text. -/
theorem text_eq_of_blank_eq {s s' : Statement} (same : s.blank = s'.blank) (d : Dialect) :
    s.text d = s'.text d := by
  refine Tokens.text_eq_of_blank_eq ?_ d
  rw [← s.blank_tokens, same, s'.blank_tokens]

end Statement

end QueryBoard.Sql
