import QueryBoard.Proofs.Sql.ReadBack

/-!
# Statements as symbols

A symbol is a lexeme, or a value that is bound in the place of a placeholder.  The text of a
statement and its parameters give its symbols, in which nothing is left of blanks, of the dialect
and of the numbers of placeholders.
-/

set_option autoImplicit false

namespace QueryBoard.Sql

inductive Symbol where
  | lexeme (l : Lexeme)
  | value (v : Value)
deriving DecidableEq

namespace Symbol

def word (letters : String) : Symbol := .lexeme (.word letters)

def quoted (name : String) : Symbol := .lexeme (.quoted name)

def mark (m : String) : Symbol := .lexeme (.symbol m)

/-- Lexemes with values in the places of their placeholders, of which there are as many. -/
def bind : List Lexeme → List Value → Option (List Symbol)
  | [], [] => some []
  | [], _ :: _ => none
  | l :: ls, vs =>
    if l.isPlaceholder then
      match vs with
      | [] => none
      | v :: vs => (bind ls vs).map (.value v :: ·)
    else (bind ls vs).map (.lexeme l :: ·)

theorem bind_append {ls : List Lexeme} (plain : ∀ l ∈ ls, l.isPlaceholder = false)
    (ls' : List Lexeme) (vs : List Value) :
    bind (ls ++ ls') vs = (bind ls' vs).map (ls.map .lexeme ++ ·) := by
  induction ls with
  | nil => simp
  | cons l ls ih =>
      have later := ih fun m member => plain m (List.mem_cons_of_mem l member)
      simp [bind, plain l List.mem_cons_self, later, Function.comp_def]

/-- Items with a separating symbol between two of them. -/
def joined (separator : Symbol) : List (List Symbol) → List Symbol
  | [] => []
  | item :: rest => item ++ rest.flatMap (separator :: ·)

end Symbol

open QueryBoard.Sql.Symbol

def Token.symbols : Token → List Symbol
  | .param v => [.value v]
  | t => (t.lexemes .sqlite 0).map .lexeme

namespace Tokens

def symbols (ts : Tokens) : List Symbol := ts.flatMap Token.symbols

@[simp]
theorem symbols_nil : symbols [] = [] := rfl

@[simp]
theorem symbols_cons (t : Token) (ts : Tokens) : symbols (t :: ts) = t.symbols ++ symbols ts :=
  List.flatMap_cons ..

@[simp]
theorem symbols_append (a b : Tokens) : symbols (a ++ b) = symbols a ++ symbols b :=
  List.flatMap_append ..

end Tokens

/-! ## Symbols out of lexemes and parameters -/

theorem Token.bind_lexemes (d : Dialect) (position : Nat) (t : Token) (ls : List Lexeme)
    (vs : List Value) :
    bind (t.lexemes d position ++ ls) (t.value?.toList ++ vs) =
      (bind ls vs).map (t.symbols ++ ·) := by
  have plain : t.value?.isSome = false → ∀ l ∈ t.lexemes d position, l.isPlaceholder = false := by
    intro free l member
    have none := filter_isPlaceholder_lexemes d position t
    rw [free, if_neg (by simp), List.filter_eq_nil_iff] at none
    simpa using none l member
  cases t with
  | param v => cases d <;> rfl
  | operator op => cases op <;> exact bind_append (plain rfl) ls vs
  | literal l => cases l <;> exact bind_append (plain rfl) ls vs
  | _ => exact bind_append (plain rfl) ls vs

theorem Tokens.bind_lexemesFrom (d : Dialect) (ts : Tokens) (position : Nat) :
    bind (lexemesFrom d position ts) ts.params = some ts.symbols := by
  induction ts generalizing position with
  | nil => rfl
  | cons t ts ih =>
      have split : params (t :: ts) = t.value?.toList ++ params ts := by
        cases value : t.value? <;> simp [params, value]
      rw [lexemesFrom, split, Token.bind_lexemes, ih]
      rfl

/-! ## The symbols that builders write -/

def Expr.symbols (e : Expr) : List Symbol := e.tokens.symbols

/-- The symbols of a keyword. -/
def words (ws : String) : List Symbol := (Token.keyword ws).symbols

namespace Tokens

theorem symbols_separated {separator : Tokens} {s : Symbol} (single : separator.symbols = [s])
    (items : List Tokens) : (separated separator items).symbols = joined s (items.map symbols) := by
  fun_induction separated separator items with
  | case1 => rfl
  | case2 item => simp [joined]
  | case3 item items other ih =>
      rw [symbols_append, symbols_append, single, ih]
      cases items with
      | nil => exact absurd rfl other
      | cons second items => simp [joined]

theorem symbols_commaList (items : List Tokens) :
    (commaList items).symbols = joined (mark ",") (items.map symbols) :=
  symbols_separated rfl items

theorem symbols_parenList (items : List Tokens) :
    (parenList items).symbols = mark "(" :: joined (mark ",") (items.map symbols) ++ [mark ")"] := by
  rw [parenList, symbols_append, symbols_cons, symbols_commaList]
  rfl

theorem symbols_clause (before : Tokens) (ws : String) (content : Tokens) :
    (clause before ws content).symbols = before.symbols ++ words ws ++ content.symbols := by
  have line : Token.symbols (.newline 0) = [] := rfl
  have blank : Token.symbols .space = [] := rfl
  unfold clause
  split <;> simp [line, blank, words]

theorem map_symbols_tokensList (es : List Expr) :
    (Expr.tokensList es).map symbols = es.map Expr.symbols := by
  induction es with
  | nil => rfl
  | cons e es ih => rw [Expr.tokensList, List.map_cons, List.map_cons, ih, Expr.symbols]

end Tokens

namespace Expr

@[simp]
theorem symbols_tableCol (table name : String) :
    (Expr.column (some table) name).symbols = [quoted table, mark ".", quoted name] := by
  rw [symbols, tokens]
  rfl

@[simp]
theorem symbols_col (name : String) : (Expr.column none name).symbols = [quoted name] := by
  rw [symbols, tokens]
  rfl

@[simp]
theorem symbols_param (v : Value) : (Expr.param v).symbols = [.value v] := by
  rw [symbols, tokens]
  rfl

@[simp]
theorem symbols_binary (op : BinaryOp) (left right : Expr) : (Expr.binary op left right).symbols =
    left.symbols ++ (Token.operator op).symbols ++ right.symbols := by
  have blank : Token.symbols .space = [] := rfl
  simp [symbols, tokens, blank]

@[simp]
theorem symbols_call (name : String) (args : List Expr) : (Expr.call name args).symbols =
    word (Text.upper name) :: mark "(" :: joined (mark ",") (args.map symbols) ++ [mark ")"] := by
  rw [symbols, tokens, Tokens.symbols_cons, Tokens.symbols_parenList, Tokens.map_symbols_tokensList]
  rfl

/-- The words before the list of a membership. -/
def memberWords (negated : Bool) : List Symbol :=
  if negated then [word "NOT", word "IN"] else [word "IN"]

theorem symbols_member_empty (negated : Bool) (e : Expr) :
    (Expr.member negated e []).symbols = [word (if negated then "TRUE" else "FALSE")] := by
  rw [symbols, tokens]
  cases negated <;> rfl

theorem symbols_member_list (negated : Bool) (e i : Expr) (is : List Expr) :
    (Expr.member negated e (i :: is)).symbols = e.symbols ++ memberWords negated ++
      mark "(" :: joined (mark ",") ((i :: is).map symbols) ++ [mark ")"] := by
  have blank : Token.symbols .space = [] := rfl
  have not : Token.symbols (.keyword "NOT") = [word "NOT"] := rfl
  have keyword : Token.symbols (.keyword "IN") = [word "IN"] := rfl
  rw [symbols, tokens, ← tokensList, Tokens.symbols_append, Tokens.symbols_append,
    Tokens.symbols_cons, Tokens.symbols_cons, Tokens.symbols_cons, Tokens.symbols_parenList,
    Tokens.map_symbols_tokensList, blank, keyword]
  cases negated <;> simp [symbols, memberWords, not, blank]

@[simp]
theorem symbols_member_nil (e : Expr) : (Expr.member false e []).symbols = [word "FALSE"] :=
  symbols_member_empty false e

@[simp]
theorem symbols_member_cons (e i : Expr) (is : List Expr) : (Expr.member false e (i :: is)).symbols =
    e.symbols ++ word "IN" :: mark "(" :: joined (mark ",") ((i :: is).map symbols) ++
      [mark ")"] := by
  rw [symbols_member_list, List.append_assoc e.symbols]
  rfl

theorem conjunction_cons (e : Expr) (rest : List Expr) :
    conjunction (e :: rest) = some (rest.foldl and e) := rfl

/-- Conditions that hold together are written one after the other. -/
theorem symbols_conjunction {es : List Expr} {e : Expr} (all : conjunction es = some e) :
    e.symbols = joined (word "AND") (es.map symbols) := by
  have folded : ∀ (rest : List Expr) (first : Expr), (rest.foldl and first).symbols =
      first.symbols ++ rest.flatMap fun e => word "AND" :: e.symbols := by
    intro rest
    induction rest with
    | nil => simp
    | cons e rest ih =>
        intro first
        have operator : (Token.operator .and).symbols = [word "AND"] := rfl
        rw [List.foldl_cons, ih, and, symbols_binary, operator]
        simp
  cases es with
  | nil => cases all
  | cons first rest =>
      cases all
      rw [folded, List.map_cons, joined, List.flatMap_map]

end Expr

theorem symbols_aliased (ts : Tokens) (label : Option String) :
    (aliased ts label).symbols = ts.symbols ++
      (label.map fun name => [word "AS", quoted name]).getD [] := by
  cases label with
  | none => simp [aliased]
  | some name =>
      rw [aliased, Tokens.symbols_append]
      rfl

theorem TableRef.symbols_tokens (r : TableRef) : r.tokens.symbols = quoted r.table ::
    (r.label.map fun name => [word "AS", quoted name]).getD [] := by
  rw [TableRef.tokens, symbols_aliased]
  rfl

theorem SelectItem.symbols_tokens (i : SelectItem) : i.tokens.symbols = i.expr.symbols ++
    (i.label.map fun name => [word "AS", quoted name]).getD [] :=
  symbols_aliased ..

theorem Join.symbols_tokens (j : Join) : j.tokens.symbols =
    words j.type.keyword ++ j.table.tokens.symbols ++ word "ON" :: j.condition.symbols := by
  have blank : Token.symbols .space = [] := rfl
  have keyword : Token.symbols (.keyword "ON") = [word "ON"] := rfl
  simp [Join.tokens, blank, keyword, words, Expr.symbols]

theorem OrderItem.symbols_tokens (o : OrderItem) :
    o.tokens.symbols = o.expr.symbols ++ words o.dir.keyword := by
  rw [OrderItem.tokens, Tokens.symbols_append]
  simp [Expr.symbols, words, Token.symbols, Token.lexemes]

end QueryBoard.Sql
