import QueryBoard.Proofs.Sql.ReadBack

/-!
# The parts of a statement

A statement is built of names, functions, constants and values; all else in its tokens are fixed
words and marks.  Its tokens hold these parts as they were given, none missing and none added, in
the order in which they are written.
-/

set_option autoImplicit false

namespace QueryBoard.Sql

inductive Part where
  | name (s : String)
  | function (name : String)
  | constant (l : Literal)
  | value (v : Value)
deriving DecidableEq, Repr

def Part.value? : Part → Option Value
  | .value v => some v
  | _ => none

def Token.part? : Token → Option Part
  | .ident name => some (.name name)
  | .function name => some (.function name)
  | .literal l => some (.constant l)
  | .param v => some (.value v)
  | _ => none

/-! ## The parts of tokens -/

namespace Tokens

def parts (ts : Tokens) : List Part := ts.filterMap Token.part?

@[simp]
theorem parts_nil : parts [] = [] := rfl

@[simp]
theorem parts_cons (t : Token) (ts : Tokens) : parts (t :: ts) = t.part?.toList ++ ts.parts := by
  rw [parts, List.filterMap_cons]
  cases t.part? <;> rfl

@[simp]
theorem parts_append (a b : Tokens) : (a ++ b).parts = a.parts ++ b.parts :=
  List.filterMap_append

theorem parts_flatMap {α : Type} (as : List α) (f : α → Tokens) :
    parts (as.flatMap f) = as.flatMap fun a => (f a).parts := by
  induction as with
  | nil => rfl
  | cons a as ih => rw [List.flatMap_cons, parts_append, ih, List.flatMap_cons]

theorem parts_separated {separator : Tokens} (plain : separator.parts = []) (items : List Tokens) :
    (separated separator items).parts = items.flatMap parts := by
  fun_induction separated separator items with
  | case1 => rfl
  | case2 item => simp
  | case3 item items _ ih =>
      rw [parts_append, parts_append, plain, ih, List.append_nil, List.flatMap_cons]

@[simp]
theorem parts_commaList (items : List Tokens) : (commaList items).parts = items.flatMap parts :=
  parts_separated rfl items

@[simp]
theorem parts_parenList (items : List Tokens) : (parenList items).parts = items.flatMap parts := by
  simp [parenList, Token.part?]

@[simp]
theorem parts_clause (before : Tokens) (words : String) (content : Tokens) :
    (clause before words content).parts = before.parts ++ content.parts := by
  unfold clause
  split <;> simp [Token.part?]

@[simp]
theorem parts_listClause (before : Tokens) (words : String) (items : List Tokens) :
    (Select.listClause before words items).parts = before.parts ++ items.flatMap parts := by
  unfold Select.listClause
  split
  · next none => simp [List.isEmpty_iff.mp none]
  · rw [parts_clause, parts_commaList]

theorem params_eq_filterMap (ts : Tokens) : ts.params = ts.parts.filterMap Part.value? := by
  have value (t : Token) : t.value? = t.part?.bind Part.value? := by
    cases t <;> rfl
  rw [parts, List.filterMap_filterMap, params]
  exact congrArg (ts.filterMap ·) (funext value)

end Tokens

open Tokens

/-! ## The parts of what is built -/

namespace Expr

mutual

/-- The parts of an expression.  A membership in the empty list has none. -/
def parts : Expr → List Part
  | .column table name => (table.toList ++ [name]).map .name
  | .literal l => [.constant l]
  | .param v => [.value v]
  | .binary _ left right => left.parts ++ right.parts
  | .call name args => .function name :: partsList args
  | .member _ _ [] => []
  | .member _ e (i :: is) => e.parts ++ (i.parts ++ partsList is)
  | .star => []
  | .over e => e.parts

def partsList : List Expr → List Part
  | [] => []
  | e :: rest => e.parts ++ partsList rest

end

mutual

theorem parts_tokens : (e : Expr) → e.tokens.parts = e.parts
  | .column (some table) name => by rw [tokens, parts]; rfl
  | .column none name => by rw [tokens, parts]; rfl
  | .literal l => by rw [tokens, parts]; rfl
  | .param v => by rw [tokens, parts]; rfl
  | .binary op left right => by
      rw [tokens, parts, ← parts_tokens left, ← parts_tokens right]
      simp [Token.part?]
  | .call name args => by
      rw [tokens, parts, parts_cons, parts_parenList, parts_tokensList args]
      rfl
  | .member negated e [] => by rw [tokens, parts]; rfl
  | .member negated e (i :: is) => by
      rw [tokens, parts, ← parts_tokens e, ← parts_tokens i, ← parts_tokensList is]
      cases negated <;> simp [Token.part?]
  | .star => by rw [tokens, parts]; rfl
  | .over e => by
      rw [tokens, parts, ← parts_tokens e]
      simp [Token.part?]

theorem parts_tokensList : (es : List Expr) →
    (tokensList es).flatMap Tokens.parts = partsList es
  | [] => rfl
  | e :: rest => by
      rw [tokensList, partsList, List.flatMap_cons, parts_tokens e, parts_tokensList rest]

end

theorem parts_conjunction (es : List Expr) :
    (conjunction es).toList.flatMap parts = es.flatMap parts := by
  have folded : ∀ (rest : List Expr) (first : Expr),
      (rest.foldl and first).parts = first.parts ++ rest.flatMap parts := by
    intro rest
    induction rest with
    | nil => simp
    | cons e rest ih =>
        intro first
        rw [List.foldl_cons, ih, and, parts, List.flatMap_cons, List.append_assoc]
  cases es with
  | nil => rfl
  | cons first rest => simp [conjunction, folded]

end Expr

def SelectItem.parts (i : SelectItem) : List Part := i.expr.parts ++ i.label.toList.map .name

def TableRef.parts (r : TableRef) : List Part := .name r.table :: r.label.toList.map .name

def Join.parts (j : Join) : List Part := j.table.parts ++ j.condition.parts

/-- The parts of a block.  An offset counts only together with a limit. -/
def Select.parts (s : Select) : List Part :=
  s.items.flatMap SelectItem.parts ++ s.source.toList.flatMap TableRef.parts ++
    s.joins.flatMap Join.parts ++ s.filters.flatMap Expr.parts ++ s.groupBy.flatMap Expr.parts ++
    s.orderBy.flatMap (fun o => o.expr.parts) ++
    s.limit.toList.flatMap fun n => (n :: s.offset.toList).map fun n => .constant (rowCount n)

namespace Query

mutual

def parts : Query → List Part
  | ⟨ctes, body, unions⟩ => cteParts ctes ++ body.parts ++ unionParts unions

def cteParts : List (String × Bool × Query) → List Part
  | [] => []
  | (name, _, query) :: rest => .name name :: (parts query ++ cteParts rest)

def unionParts : List Query → List Part
  | [] => []
  | query :: rest => parts query ++ unionParts rest

end

end Query

def Insert.parts (i : Insert) : List Part :=
  .name i.table :: (i.columns.map .name ++ i.rows.flatMap fun row => row.flatMap Expr.parts)

def Update.parts (u : Update) : List Part :=
  .name u.table ::
    ((u.assignments.flatMap fun a => .name a.1 :: a.2.parts) ++ u.filters.flatMap Expr.parts)

def Delete.parts (d : Delete) : List Part := .name d.table :: d.filters.flatMap Expr.parts

def Built.parts : Built → List Part
  | .query q => q.parts
  | .insert i => i.parts
  | .update u => u.parts
  | .delete d => d.parts

def Statement.parts : Statement → List Part
  | .select s => s.parts
  | .insert i => i.parts
  | .update u => u.parts
  | .delete d => d.parts

/-! ## The tokens of what is built hold its parts -/

theorem parts_aliased (ts : Tokens) (label : Option String) :
    (aliased ts label).parts = ts.parts ++ label.toList.map .name := by
  cases label <;> simp [aliased, Token.part?]

theorem SelectItem.parts_tokens (i : SelectItem) : i.tokens.parts = i.parts := by
  rw [tokens, parts_aliased, Expr.parts_tokens, parts]

theorem TableRef.parts_tokens (r : TableRef) : r.tokens.parts = r.parts := by
  rw [tokens, parts_aliased]
  rfl

theorem Join.parts_tokens (j : Join) : j.tokens.parts = j.parts := by
  rw [parts, ← TableRef.parts_tokens, ← Expr.parts_tokens]
  simp [tokens, Token.part?]

theorem OrderItem.parts_tokens (o : OrderItem) : o.tokens.parts = o.expr.parts := by
  rw [← Expr.parts_tokens]
  simp [tokens, Token.part?]

theorem Select.parts_limitTokens (s : Select) : s.limitTokens.parts =
    s.limit.toList.flatMap fun n => (n :: s.offset.toList).map fun n => .constant (rowCount n) := by
  unfold limitTokens
  cases s.limit with
  | none => rfl
  | some n => cases s.offset <;> rfl

/-- The parts of what a list holds, from those of each item. -/
theorem flatMap_parts {α : Type} {tokens : α → Tokens} {parts : α → List Part}
    (each : ∀ a, (tokens a).parts = parts a) (as : List α) :
    (as.map tokens).flatMap Tokens.parts = as.flatMap parts := by
  rw [List.flatMap_map]
  exact congrArg as.flatMap (funext each)

theorem Select.parts_tokens (s : Select) : s.tokens.parts = s.parts := by
  have list : Tokens.parts (if s.items.isEmpty then [.space, .star]
      else .newline 1 :: separated [.comma, .newline 1] (s.items.map SelectItem.tokens)) =
        s.items.flatMap SelectItem.parts := by
    split
    · next none => simp [List.isEmpty_iff.mp none, Token.part?]
    · rw [parts_cons, parts_separated rfl, flatMap_parts SelectItem.parts_tokens]
      rfl
  have joins : Tokens.parts (s.joins.flatMap fun j => .newline 0 :: j.tokens) =
      s.joins.flatMap Join.parts := by
    rw [parts_flatMap]
    refine congrArg s.joins.flatMap (funext fun j => ?_)
    rw [parts_cons, Join.parts_tokens]
    rfl
  unfold tokens parts
  simp only [parts_append, parts_listClause, flatMap_parts Expr.parts_tokens,
    flatMap_parts OrderItem.parts_tokens, parts_limitTokens, ← Expr.parts_conjunction s.filters]
  congr 3
  cases Expr.conjunction s.filters <;> cases s.source <;>
    simp [-List.isEmpty_iff, list, joins, Token.part?, Expr.parts_tokens, TableRef.parts_tokens]

theorem parts_whereTokens (filters : List Expr) :
    (whereTokens filters).parts = filters.flatMap Expr.parts := by
  rw [← Expr.parts_conjunction, whereTokens]
  cases Expr.conjunction filters <;> simp [Token.part?, Expr.parts_tokens]

namespace Query

theorem parts_withTokens (ctes : List (String × Bool × Query)) :
    (tokens.withTokens ctes (cteTokens ctes)).parts = (cteTokens ctes).flatMap Tokens.parts := by
  unfold tokens.withTokens
  split
  · next none =>
      rw [List.isEmpty_iff.mp none, cteTokens]
      rfl
  · have separated : (Tokens.separated [.comma, .newline 0] (cteTokens ctes)).parts =
        (cteTokens ctes).flatMap Tokens.parts := parts_separated rfl (cteTokens ctes)
    split <;> simp [Token.part?, separated]

mutual

theorem parts_tokens : (q : Query) → q.tokens.parts = q.parts
  | ⟨ctes, body, unions⟩ => by
      rw [tokens, parts, parts_append, parts_append, parts_withTokens, parts_cteTokens ctes,
        body.parts_tokens, parts_unionTokens unions]

theorem parts_cteTokens : (ctes : List (String × Bool × Query)) →
    (cteTokens ctes).flatMap Tokens.parts = cteParts ctes
  | [] => by
      rw [cteTokens, cteParts]
      rfl
  | (name, _, query) :: rest => by
      rw [cteTokens, cteParts, List.flatMap_cons, parts_cteTokens rest, ← parts_tokens query]
      simp [Token.part?]

theorem parts_unionTokens : (unions : List Query) → (unionTokens unions).parts = unionParts unions
  | [] => by
      rw [unionTokens, unionParts]
      rfl
  | query :: rest => by
      rw [unionTokens, unionParts, ← parts_unionTokens rest, ← parts_tokens query]
      simp [Token.part?]

end

end Query

theorem Insert.parts_tokens (i : Insert) : i.tokens.parts = i.parts := by
  have columns : Tokens.parts (if i.columns.isEmpty then []
      else .space :: parenList (i.columns.map fun c => [.ident c])) = i.columns.map .name := by
    split
    · next none => rw [List.isEmpty_iff.mp none]; rfl
    · have name (c : String) : Tokens.parts [.ident c] = [.name c] := rfl
      rw [parts_cons, parts_parenList, flatMap_parts name]
      exact List.flatMap_pure_eq_map ..
  have rows : Tokens.parts (if i.rows.isEmpty then []
      else .space :: .keyword "VALUES" :: .space ::
        commaList (i.rows.map fun row => parenList (row.map Expr.tokens))) =
          i.rows.flatMap fun row => row.flatMap Expr.parts := by
    have row (row : List Expr) :
        (parenList (row.map Expr.tokens)).parts = row.flatMap Expr.parts := by
      rw [parts_parenList, flatMap_parts Expr.parts_tokens]
    split
    · next none => rw [List.isEmpty_iff.mp none]; rfl
    · simp [Token.part?, flatMap_parts row]
  rw [tokens, parts, parts_append, parts_append, columns, rows]
  rfl

theorem Update.parts_tokens (u : Update) : u.tokens.parts = u.parts := by
  have assigned (a : String × Expr) :
      Tokens.parts (.ident a.1 :: .space :: .operator .eq :: .space :: a.2.tokens) =
        .name a.1 :: a.2.parts := by
    simp [Token.part?, Expr.parts_tokens]
  rw [tokens, parts, parts_append, parts_append, parts_whereTokens, parts_commaList,
    flatMap_parts assigned]
  rfl

theorem Delete.parts_tokens (d : Delete) : d.tokens.parts = d.parts := by
  rw [tokens, parts, parts_append, parts_whereTokens]
  rfl

theorem Built.parts_tokens (b : Built) : b.tokens.parts = b.parts := by
  cases b with
  | query q => exact q.parts_tokens
  | insert i => exact i.parts_tokens
  | update u => exact u.parts_tokens
  | delete d => exact d.parts_tokens

theorem Statement.parts_tokens (s : Statement) : s.tokens.parts = s.parts := by
  cases s with
  | select s => exact s.parts_tokens
  | insert i => exact i.parts_tokens
  | update u => exact u.parts_tokens
  | delete d => exact d.parts_tokens

end QueryBoard.Sql
