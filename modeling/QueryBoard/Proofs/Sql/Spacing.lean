import QueryBoard.Sql.Write
import Mathlib.Data.List.Chain

/-!
# What stands between the tokens of a statement

Two quoted names side by side would be read as one, two words as one word.  No builder writes such
tokens: of two neighbours at least one is a blank, a bracket or another separating mark.  The
keywords, too, are of one form: words with single blanks between them, and a pair of brackets.
-/

set_option autoImplicit false

namespace QueryBoard.Sql

def IsWord (cs : List Char) : Prop := cs ≠ [] ∧ ∀ c ∈ cs, c.isAlpha = true

instance (cs : List Char) : Decidable (IsWord cs) :=
  decidable_of_iff (cs ≠ [] ∧ cs.all Char.isAlpha = true) (by rw [IsWord, List.all_eq_true])

namespace Token

def pieces (words : String) : List (List Char) := words.toList.splitOn ' '

/-- Whether a keyword consists of words and brackets. -/
def WordsOnly (words : String) : Prop := ∀ piece ∈ pieces words, IsWord piece ∨ piece = ['(', ')']

instance (words : String) : Decidable (WordsOnly words) :=
  inferInstanceAs (Decidable (∀ piece ∈ pieces words, IsWord piece ∨ piece = ['(', ')']))

/-- Blanks and the marks that separate. -/
def isGlue : Token → Bool
  | .comma | .dot | .star | .lparen | .rparen | .space | .newline _ => true
  | _ => false

end Token

/-- Tokens of which no two neighbours run together, with keywords that are words. -/
structure Legible (ts : Tokens) : Prop where
  spaced : ts.IsChain fun a b => a.isGlue = true ∨ b.isGlue = true
  keywords : ∀ words, Token.keyword words ∈ ts → Token.WordsOnly words

namespace Legible

theorem nil : Legible [] := ⟨List.isChain_nil, by simp⟩

theorem single {t : Token} (words : ∀ w, t = .keyword w → Token.WordsOnly w) : Legible [t] :=
  ⟨List.isChain_singleton t, fun w member => words w (List.mem_singleton.mp member).symm⟩

theorem keyword {words : String} (plain : Token.WordsOnly words) : Legible [.keyword words] :=
  single fun w same => by cases same; exact plain

/-- Legible tokens may be put behind legible ones when a separating token comes first. -/
theorem append {a b : Tokens} (left : Legible a) (right : Legible b)
    (apart : ∀ t ∈ b.head?, t.isGlue = true) : Legible (a ++ b) := by
  refine ⟨List.isChain_append.mpr ⟨left.spaced, right.spaced, ?_⟩, ?_⟩
  · intro x _ y first
    exact Or.inr (apart y first)
  · intro words member
    rcases List.mem_append.mp member with member | member
    · exact left.keywords words member
    · exact right.keywords words member

theorem cons_glue {g : Token} {b : Tokens} (glue : g.isGlue = true) (right : Legible b) :
    Legible (g :: b) := by
  refine ⟨List.isChain_cons.mpr ⟨?_, right.spaced⟩, ?_⟩
  · intro y _
    exact Or.inl glue
  · intro words member
    rcases List.mem_cons.mp member with same | member
    · subst same
      cases glue
    · exact right.keywords words member

theorem append_glue {a b : Tokens} {g : Token} (left : Legible a) (glue : g.isGlue = true)
    (right : Legible b) : Legible (a ++ g :: b) := by
  apply left.append (right.cons_glue glue)
  intro t first
  cases first
  exact glue

theorem cons_cons_glue {t g : Token} {b : Tokens} (words : ∀ w, t = .keyword w → Token.WordsOnly w)
    (glue : g.isGlue = true) (right : Legible b) : Legible (t :: g :: b) :=
  (single words).append_glue glue right

theorem keyword_glue {words : String} {g : Token} {b : Tokens} (plain : Token.WordsOnly words)
    (glue : g.isGlue = true) (right : Legible b) : Legible (.keyword words :: g :: b) :=
  (keyword plain).append_glue glue right

/-! ## Lists of items -/

theorem glue_append {separator b : Tokens} (glue : ∀ t ∈ separator, t.isGlue = true)
    (right : Legible b) : Legible (separator ++ b) := by
  induction separator with
  | nil => exact right
  | cons g rest ih =>
      exact cons_glue (glue g (by simp)) (ih fun t member => glue t (by simp [member]))

theorem separated {separator : Tokens} (nonempty : separator ≠ [])
    (glue : ∀ t ∈ separator, t.isGlue = true) :
    ∀ items : List Tokens, (∀ ts ∈ items, Legible ts) →
      Legible (Tokens.separated separator items) := by
  intro items
  fun_induction Tokens.separated separator items with
  | case1 => intro _; exact nil
  | case2 item => intro each; exact each item (by simp)
  | case3 item items _ ih =>
      intro each
      have tail := ih fun ts member => each ts (by simp [member])
      rw [List.append_assoc]
      apply (each item (by simp)).append (glue_append glue tail)
      intro t first
      rw [List.head?_append_of_ne_nil _ nonempty] at first
      exact glue t (List.mem_of_mem_head? first)

theorem commaList {items : List Tokens} (each : ∀ ts ∈ items, Legible ts) :
    Legible (Tokens.commaList items) :=
  separated (by simp) (by simp [Token.isGlue]) items each

theorem parenList {items : List Tokens} (each : ∀ ts ∈ items, Legible ts) :
    Legible (Tokens.parenList items) :=
  cons_glue rfl ((commaList each).append_glue rfl nil)

theorem clause {before content : Tokens} {words : String} (left : Legible before)
    (plain : Token.WordsOnly words) (right : Legible content) :
    Legible (Tokens.clause before words content) := by
  have body : Legible (.keyword words :: .space :: content) := keyword_glue plain rfl right
  unfold Tokens.clause
  by_cases empty : before.isEmpty = true
  · have same : before = [] := by simpa using empty
    rw [if_pos empty, same]
    exact body
  · rw [if_neg empty, List.append_assoc]
    exact left.append_glue rfl body

theorem ident (name : String) : Legible [.ident name] := single (by simp)

end Legible

/-! ## Expressions -/

mutual

theorem Expr.legible : (e : Expr) → Legible e.tokens
  | .column (some table) name => by
      rw [Expr.tokens]
      exact (Legible.ident table).append_glue rfl (Legible.ident name)
  | .column none name => by
      rw [Expr.tokens]
      exact Legible.ident name
  | .literal l => by
      rw [Expr.tokens]
      exact Legible.single (by simp)
  | .param v => by
      rw [Expr.tokens]
      exact Legible.single (by simp)
  | .binary op left right => by
      rw [Expr.tokens]
      exact left.legible.append_glue rfl (Legible.cons_cons_glue (by simp) rfl right.legible)
  | .call name args => by
      rw [Expr.tokens]
      apply (Legible.single (t := .function name) (by simp)).append
        (Legible.parenList (Expr.legible_tokensList args))
      simp [Tokens.parenList, Token.isGlue]
  | .member negated e [] => by
      rw [Expr.tokens]
      cases negated <;> exact Legible.keyword (by decide)
  | .member negated e (i :: is) => by
      have each : ∀ ts ∈ tokens i :: tokensList is, Legible ts := by
        intro ts listed
        rcases List.mem_cons.mp listed with same | listed
        · rw [same]
          exact i.legible
        · exact Expr.legible_tokensList is ts listed
      have inList : Legible (.keyword "IN" :: .space :: Tokens.parenList
          (tokens i :: tokensList is)) := Legible.keyword_glue (by decide) rfl (Legible.parenList each)
      rw [Expr.tokens, List.append_assoc, List.cons_append]
      apply e.legible.append_glue rfl
      cases negated
      · exact inList
      · exact Legible.keyword_glue (by decide) rfl inList
  | .star => by
      rw [Expr.tokens]
      exact Legible.single (by simp)
  | .over e => by
      rw [Expr.tokens]
      exact e.legible.append_glue rfl (Legible.keyword (by decide))

theorem Expr.legible_tokensList : (es : List Expr) → ∀ ts ∈ Expr.tokensList es, Legible ts
  | [], ts, listed => by simp [Expr.tokensList] at listed
  | e :: rest, ts, listed => by
      rw [Expr.tokensList] at listed
      rcases List.mem_cons.mp listed with same | listed
      · rw [same]
        exact e.legible
      · exact Expr.legible_tokensList rest ts listed

end

/-! ## Query blocks -/

theorem legible_aliased {ts : Tokens} (left : Legible ts) (label : Option String) :
    Legible (aliased ts label) := by
  cases label with
  | none => exact left
  | some name =>
      exact left.append_glue rfl (Legible.keyword_glue (by decide) rfl (Legible.ident name))

theorem SelectItem.legible (i : SelectItem) : Legible i.tokens :=
  legible_aliased i.expr.legible i.label

theorem TableRef.legible (r : TableRef) : Legible r.tokens :=
  legible_aliased (Legible.ident r.table) r.label

theorem Join.legible (j : Join) : Legible j.tokens := by
  have condition : Legible (.keyword "ON" :: .space :: j.condition.tokens) :=
    Legible.keyword_glue (by decide) rfl j.condition.legible
  have table := j.table.legible.append_glue (g := .space) rfl condition
  unfold Join.tokens
  cases j.type <;> exact Legible.keyword_glue (by decide) rfl table

theorem OrderItem.legible (o : OrderItem) : Legible o.tokens := by
  unfold OrderItem.tokens
  cases o.dir <;> exact o.expr.legible.append_glue rfl (Legible.keyword (by decide))

theorem legible_listClause {before : Tokens} {words : String} {items : List Tokens}
    (left : Legible before) (plain : Token.WordsOnly words) (each : ∀ ts ∈ items, Legible ts) :
    Legible (Select.listClause before words items) := by
  unfold Select.listClause
  split
  · exact left
  · exact left.clause plain (Legible.commaList each)

theorem legible_map {α : Type} {tokens : α → Tokens} (each : ∀ a, Legible (tokens a))
    (items : List α) : ∀ ts ∈ items.map tokens, Legible ts := by
  intro ts member
  obtain ⟨a, _, rfl⟩ := List.mem_map.mp member
  exact each a

theorem Select.legible_limitTokens (s : Select) :
    Legible s.limitTokens ∧ ∀ t ∈ s.limitTokens.head?, t.isGlue = true := by
  have count (n : UInt64) : Legible [.literal (rowCount n)] := Legible.single (by simp)
  unfold Select.limitTokens
  cases s.limit with
  | none => exact ⟨Legible.nil, by simp⟩
  | some n =>
      refine ⟨Legible.cons_glue rfl ?_, by simp [Token.isGlue]⟩
      apply Legible.keyword_glue (by decide) rfl
      cases s.offset with
      | none => exact count n
      | some m => exact (count n).append_glue rfl (Legible.keyword_glue (by decide) rfl (count m))

theorem Select.legible_joins (joins : List Join) :
    Legible (joins.flatMap fun j => .newline 0 :: j.tokens) ∧
      ∀ t ∈ (joins.flatMap fun j => .newline 0 :: j.tokens).head?, t.isGlue = true := by
  induction joins with
  | nil => exact ⟨Legible.nil, by simp⟩
  | cons j rest ih =>
      rw [List.flatMap_cons]
      refine ⟨(j.legible.cons_glue rfl).append ih.1 ih.2, ?_⟩
      simp [Token.isGlue]

theorem Select.legible (s : Select) : Legible s.tokens := by
  have items : Legible (.keyword "SELECT" :: (if s.items.isEmpty then [.space, .star]
      else .newline 1 :: Tokens.separated [.comma, .newline 1] (s.items.map SelectItem.tokens))) := by
    split
    · exact Legible.keyword_glue (by decide) rfl (Legible.single (by simp))
    · exact Legible.keyword_glue (by decide) rfl
        (Legible.separated (by simp) (by simp [Token.isGlue]) _
          (legible_map SelectItem.legible s.items))
  have joined : ∀ ts : Tokens, Legible ts →
      Legible (ts ++ s.joins.flatMap fun j => .newline 0 :: j.tokens) := by
    intro ts before
    have joins := Select.legible_joins s.joins
    exact before.append joins.1 joins.2
  unfold Select.tokens
  apply Legible.append _ s.legible_limitTokens.1 s.legible_limitTokens.2
  apply legible_listClause _ (by decide) (legible_map OrderItem.legible s.orderBy)
  apply legible_listClause _ (by decide) (legible_map Expr.legible s.groupBy)
  cases Expr.conjunction s.filters with
  | none =>
      apply joined
      cases s.source with
      | none => exact items
      | some r => exact items.clause (by decide) r.legible
  | some e =>
      refine (joined _ ?_).clause (by decide) e.legible
      cases s.source with
      | none => exact items
      | some r => exact items.clause (by decide) r.legible

/-! ## Queries with common table expressions and unions -/

mutual

theorem Query.legible : (q : Query) → Legible q.tokens
  | ⟨ctes, body, unions⟩ => by
      have written := Query.legible_cteTokens ctes
      have more := Query.legible_unionTokens unions
      rw [Query.tokens]
      refine Legible.append ?_ more.1 more.2
      unfold Query.tokens.withTokens
      split
      · exact body.legible
      · have list : Legible (Tokens.separated [.comma, .newline 0] (Query.cteTokens ctes)) :=
          Legible.separated (by simp) (by simp [Token.isGlue]) _ written
        have full := list.append_glue (g := .newline 0) rfl body.legible
        simp only [List.cons_append, List.append_assoc, List.nil_append]
        split
        · exact Legible.keyword_glue (by decide) rfl (Legible.keyword_glue (by decide) rfl full)
        · exact Legible.keyword_glue (by decide) rfl full

theorem Query.legible_cteTokens :
    (ctes : List (String × Bool × Query)) → ∀ ts ∈ Query.cteTokens ctes, Legible ts
  | [], ts, member => by simp [Query.cteTokens] at member
  | (name, _, query) :: rest, ts, member => by
      rw [Query.cteTokens] at member
      rcases List.mem_cons.mp member with same | member
      · have closed : Legible (query.tokens ++ [.newline 0, .rparen]) :=
          query.legible.append_glue rfl (Legible.single (by simp))
        have opened := (closed.cons_glue (g := .newline 0) rfl).cons_glue (g := .lparen) rfl
        rw [same]
        exact Legible.cons_cons_glue (by simp) rfl
          (Legible.keyword_glue (by decide) rfl opened)
      · exact Query.legible_cteTokens rest ts member

theorem Query.legible_unionTokens : (unions : List Query) →
    Legible (Query.unionTokens unions) ∧ ∀ t ∈ (Query.unionTokens unions).head?, t.isGlue = true
  | [] => by
      rw [Query.unionTokens]
      exact ⟨Legible.nil, by simp⟩
  | query :: rest => by
      have more := Query.legible_unionTokens rest
      rw [Query.unionTokens]
      refine ⟨Legible.append ?_ more.1 more.2, by simp [Token.isGlue]⟩
      exact Legible.cons_glue rfl (Legible.keyword_glue (by decide) rfl query.legible)

end

/-! ## Statements that write -/

theorem legible_whereTokens (filters : List Expr) :
    Legible (whereTokens filters) ∧ ∀ t ∈ (whereTokens filters).head?, t.isGlue = true := by
  unfold whereTokens
  cases Expr.conjunction filters with
  | none => exact ⟨Legible.nil, by simp⟩
  | some e =>
      refine ⟨Legible.cons_glue rfl (Legible.keyword_glue (by decide) rfl e.legible), ?_⟩
      simp [Token.isGlue]

theorem Insert.legible (i : Insert) : Legible i.tokens := by
  have names : ∀ ts ∈ i.columns.map fun c => [Token.ident c], Legible ts :=
    legible_map Legible.ident i.columns
  have rows : ∀ ts ∈ i.rows.map fun row => Tokens.parenList (row.map Expr.tokens), Legible ts :=
    legible_map (fun row => Legible.parenList (legible_map Expr.legible row)) i.rows
  have table : Legible [.keyword "INSERT INTO", .space, .ident i.table] :=
    Legible.keyword_glue (by decide) rfl (Legible.ident i.table)
  unfold Insert.tokens
  apply Legible.append
  · apply table.append
    · split
      · exact Legible.nil
      · exact (Legible.parenList names).cons_glue rfl
    · split <;> simp [Token.isGlue]
  · split
    · exact Legible.nil
    · exact Legible.cons_glue rfl
        (Legible.keyword_glue (by decide) rfl (Legible.commaList rows))
  · split <;> simp [Token.isGlue]

theorem Update.legible (u : Update) : Legible u.tokens := by
  have assignments : ∀ ts ∈ u.assignments.map fun a =>
      Token.ident a.1 :: .space :: .operator .eq :: .space :: a.2.tokens, Legible ts := by
    apply legible_map
    intro a
    exact Legible.cons_cons_glue (by simp) rfl
      (Legible.cons_cons_glue (by simp) rfl a.2.legible)
  have filters := legible_whereTokens u.filters
  unfold Update.tokens
  refine Legible.append ?_ filters.1 filters.2
  exact Legible.keyword_glue (by decide) rfl (Legible.cons_cons_glue (by simp) rfl
    (Legible.keyword_glue (by decide) rfl (Legible.commaList assignments)))

theorem Delete.legible (d : Delete) : Legible d.tokens := by
  have filters := legible_whereTokens d.filters
  unfold Delete.tokens
  refine Legible.append ?_ filters.1 filters.2
  exact Legible.keyword_glue (by decide) rfl (Legible.ident d.table)

end QueryBoard.Sql
