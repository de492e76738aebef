import QueryBoard.Proofs.Sql.Values

/-!
# The parts of a block

A block is its select list, the tables, the conditions and what comes after them, one part after the
other.  A condition that holds together with others is written behind them.  Nothing but the clause
of the conditions is written with the word that starts it.
-/

set_option autoImplicit false

namespace QueryBoard.Sql

/-! ## Conditions that hold together -/

/-- A clause for conditions that hold together, behind a blank or on a line of its own; nothing for
no condition. -/
def whereClause (lead : Token) (predicates : List Tokens) : Tokens :=
  if predicates = [] then []
  else
    lead :: .keyword "WHERE" :: .space ::
      Tokens.separated [.space, .operator .and, .space] predicates

theorem Tokens.separated_append_cons (separator a b : Tokens) (items : List Tokens) :
    separated separator ((a ++ separator ++ b) :: items) =
      separated separator (a :: b :: items) := by
  cases items with
  | nil => simp [separated]
  | cons item items => simp [separated]

theorem Tokens.separated_concat (separator item : Tokens) {items : List Tokens}
    (some : items ≠ []) : separated separator (items ++ [item]) =
      separated separator items ++ separator ++ item := by
  fun_induction separated separator items with
  | case1 => exact absurd rfl some
  | case2 first => simp [separated]
  | case3 first items other ih =>
      have more : items ≠ [] := by
        rintro rfl
        exact other rfl
      obtain ⟨second, rest, rfl⟩ := List.exists_cons_of_ne_nil more
      rw [List.cons_append, List.cons_append, separated, ← List.cons_append, ih more]
      · simp
      · simp

namespace Expr

theorem tokens_foldl_and (rest : List Expr) (first : Expr) :
    (rest.foldl and first).tokens = Tokens.separated [.space, .operator .and, .space]
      (first.tokens :: rest.map tokens) := by
  induction rest generalizing first with
  | nil => rfl
  | cons e rest ih =>
      have joined : (and first e).tokens =
          first.tokens ++ [.space, .operator .and, .space] ++ e.tokens := by
        rw [and, tokens, List.append_assoc]
        rfl
      rw [List.foldl_cons, ih, joined, Tokens.separated_append_cons, List.map_cons]

end Expr

theorem whereTokens_eq (filters : List Expr) :
    whereTokens filters = whereClause .space (filters.map Expr.tokens) := by
  cases filters with
  | nil => rfl
  | cons first rest =>
      rw [whereTokens, Expr.conjunction_cons, whereClause, if_neg (by simp)]
      simp only [Expr.tokens_foldl_and, List.map_cons]

/-! ## Parts -/

/-- A clause on a line of its own, for a list that is not empty. -/
def Tokens.line (words : String) (items : List Tokens) : Tokens :=
  if items.isEmpty then [] else .newline 0 :: .keyword words :: .space :: commaList items

namespace Select

def listTokens (s : Select) : Tokens :=
  .keyword "SELECT" ::
    if s.items.isEmpty then [.space, .star]
    else .newline 1 :: Tokens.separated [.comma, .newline 1] (s.items.map SelectItem.tokens)

def tableTokens (s : Select) : Tokens :=
  ((s.source.map fun r => .newline 0 :: .keyword "FROM" :: .space :: r.tokens).getD []) ++
    s.joins.flatMap fun j => .newline 0 :: j.tokens

/-- What is written behind the conditions. -/
def tailTokens (s : Select) : Tokens :=
  Tokens.line "GROUP BY" (s.groupBy.map Expr.tokens) ++
    Tokens.line "ORDER BY" (s.orderBy.map OrderItem.tokens) ++ s.limitTokens

theorem clause_cons (t : Token) (before : Tokens) (words : String) (content : Tokens) :
    Tokens.clause (t :: before) words content =
      t :: before ++ .newline 0 :: .keyword words :: .space :: content := by
  simp [Tokens.clause]

theorem listClause_cons (t : Token) (before : Tokens) (words : String) (items : List Tokens) :
    listClause (t :: before) words items = t :: (before ++ Tokens.line words items) := by
  unfold listClause Tokens.line
  split
  · simp
  · simp [clause_cons]

/-- A block is written part by part. -/
theorem tokens_eq (s : Select) : s.tokens = s.listTokens ++ s.tableTokens ++
    whereClause (.newline 0) (s.filters.map Expr.tokens) ++ s.tailTokens := by
  obtain ⟨items, source, joins, filters, groupBy, orderBy, limit, offset⟩ := s
  unfold tokens listTokens tableTokens tailTokens whereClause
  -- The first word is there whatever follows, so every clause starts a line.
  cases source with
  | none =>
      cases filters with
      | nil => simp [Expr.conjunction, listClause_cons]
      | cons first rest =>
          simp [Expr.conjunction_cons, clause_cons, listClause_cons, Expr.tokens_foldl_and]
  | some r =>
      cases filters with
      | nil => simp [Expr.conjunction, clause_cons, listClause_cons]
      | cons first rest =>
          simp [Expr.conjunction_cons, clause_cons, listClause_cons, Expr.tokens_foldl_and]

end Select

/-! ## The word of the conditions -/

namespace Tokens

/-- Tokens without the word that starts conditions. -/
def Unconditional (ts : Tokens) : Prop := Token.keyword "WHERE" ∉ ts

@[simp]
theorem unconditional_nil : Unconditional [] := by simp [Unconditional]

@[simp]
theorem unconditional_cons {t : Token} {ts : Tokens} :
    Unconditional (t :: ts) ↔ t ≠ .keyword "WHERE" ∧ ts.Unconditional := by
  simp [Unconditional, eq_comm]

@[simp]
theorem unconditional_append {before ts : Tokens} :
    Unconditional (before ++ ts) ↔ before.Unconditional ∧ ts.Unconditional := by
  simp [Unconditional]

theorem mem_separated {t : Token} {separator : Tokens} {items : List Tokens}
    (member : t ∈ separated separator items) : t ∈ separator ∨ ∃ ts ∈ items, t ∈ ts := by
  fun_induction separated separator items with
  | case1 => cases member
  | case2 item => exact Or.inr ⟨item, by simp, member⟩
  | case3 item items _ ih =>
      rcases List.mem_append.mp member with member | member
      · rcases List.mem_append.mp member with member | member
        · exact Or.inr ⟨item, by simp, member⟩
        · exact Or.inl member
      · rcases ih member with member | ⟨ts, inside, member⟩
        · exact Or.inl member
        · exact Or.inr ⟨ts, by simp [inside], member⟩

theorem Unconditional.separated {separator : Tokens} (plain : separator.Unconditional)
    {items : List Tokens} (each : ∀ ts ∈ items, ts.Unconditional) :
    (separated separator items).Unconditional := by
  intro member
  rcases mem_separated member with member | ⟨ts, inside, member⟩
  · exact plain member
  · exact each ts inside member

theorem Unconditional.commaList {items : List Tokens} (each : ∀ ts ∈ items, ts.Unconditional) :
    (commaList items).Unconditional :=
  Unconditional.separated (by simp) each

theorem Unconditional.parenList {items : List Tokens} (each : ∀ ts ∈ items, ts.Unconditional) :
    (parenList items).Unconditional := by
  simp [Tokens.parenList, Unconditional.commaList each]

theorem Unconditional.line {words : String} (other : words ≠ "WHERE") {items : List Tokens}
    (each : ∀ ts ∈ items, ts.Unconditional) : (line words items).Unconditional := by
  unfold Tokens.line
  split
  · exact unconditional_nil
  · simp [other, Unconditional.commaList each]

end Tokens

open Tokens (Unconditional)

namespace Expr

mutual

theorem unconditional_tokens : ∀ e : Expr, Unconditional e.tokens
  | .column (some _) _ | .column none _ | .literal _ | .param _ | .star => by simp [tokens]
  | .binary _ left right => by
      simp [tokens, unconditional_tokens left, unconditional_tokens right]
  | .call _ args => by
      simp [tokens, Unconditional.parenList (unconditional_tokensList args)]
  | .member negated _ [] => by cases negated <;> simp [tokens]
  | .member negated e (i :: is) => by
      have list := Unconditional.parenList (unconditional_tokensList (i :: is))
      rw [tokensList] at list
      cases negated <;> simp [tokens, unconditional_tokens e, list]
  | .over e => by simp [tokens, unconditional_tokens e]

theorem unconditional_tokensList : ∀ es : List Expr, ∀ ts ∈ tokensList es, Unconditional ts
  | [], _, listed => by simp [tokensList] at listed
  | e :: rest, ts, listed => by
      rw [tokensList] at listed
      rcases List.mem_cons.mp listed with rfl | later
      · exact unconditional_tokens e
      · exact unconditional_tokensList rest ts later

end

end Expr

theorem Tokens.Unconditional.aliased {ts : Tokens} (plain : ts.Unconditional)
    (label : Option String) : (aliased ts label).Unconditional := by
  cases label <;> simp [Sql.aliased, plain]

theorem TableRef.unconditional_tokens (r : TableRef) : Unconditional r.tokens :=
  Unconditional.aliased (by simp) r.label

theorem Join.unconditional_tokens (j : Join) : Unconditional j.tokens := by
  have word : j.type.keyword ≠ "WHERE" := by cases j.type <;> decide
  simp [tokens, word, j.table.unconditional_tokens, j.condition.unconditional_tokens]

theorem OrderItem.unconditional_tokens (o : OrderItem) : Unconditional o.tokens := by
  have word : o.dir.keyword ≠ "WHERE" := by cases o.dir <;> decide
  simp [tokens, word, o.expr.unconditional_tokens]

namespace Select

theorem unconditional_listTokens (s : Select) : Unconditional s.listTokens := by
  have items : (Tokens.separated [.comma, .newline 1]
      (s.items.map SelectItem.tokens)).Unconditional := by
    refine Unconditional.separated (by simp) fun ts member => ?_
    obtain ⟨i, _, rfl⟩ := List.mem_map.mp member
    exact Unconditional.aliased i.expr.unconditional_tokens i.label
  unfold listTokens
  split
  · simp
  · simp [items]

theorem unconditional_tableTokens (s : Select) : Unconditional s.tableTokens := by
  have joins : Unconditional (s.joins.flatMap fun j => .newline 0 :: j.tokens) := by
    intro member
    obtain ⟨j, _, member⟩ := List.mem_flatMap.mp member
    have join : Unconditional (.newline 0 :: j.tokens) := by simp [j.unconditional_tokens]
    exact join member
  unfold tableTokens
  cases s.source with
  | none => simp [joins]
  | some r => simp [joins, r.unconditional_tokens]

theorem unconditional_limitTokens (s : Select) : Unconditional s.limitTokens := by
  unfold limitTokens
  cases s.limit with
  | none => simp
  | some n => cases s.offset <;> simp

theorem unconditional_tailTokens (s : Select) : Unconditional s.tailTokens := by
  have groups : (Tokens.line "GROUP BY" (s.groupBy.map Expr.tokens)).Unconditional := by
    refine Unconditional.line (by decide) fun ts member => ?_
    obtain ⟨e, _, rfl⟩ := List.mem_map.mp member
    exact e.unconditional_tokens
  have order : (Tokens.line "ORDER BY" (s.orderBy.map OrderItem.tokens)).Unconditional := by
    refine Unconditional.line (by decide) fun ts member => ?_
    obtain ⟨o, _, rfl⟩ := List.mem_map.mp member
    exact o.unconditional_tokens
  simp [tailTokens, groups, order, s.unconditional_limitTokens]

end Select

/-- A clause of conditions has its word, unless there is no condition. -/
theorem unconditional_whereClause {lead : Token} {predicates : List Tokens} :
    (whereClause lead predicates).Unconditional ↔ predicates = [] := by
  unfold whereClause
  split
  · next none => simp [none]
  · next some => simp [some]

end QueryBoard.Sql
