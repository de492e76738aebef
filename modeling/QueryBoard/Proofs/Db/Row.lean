import QueryBoard.Db.Select
import QueryBoard.Proofs.Fallible
import QueryBoard.Proofs.Sql.LeftToRight

/-!
# What expressions come to on a row

Looking names up and evaluating the term on a row is one way to evaluate the expression itself: a
column comes to its cell and brings its affinity into comparisons, and everything else comes to a
cell that depends on the cells of its operands.  So what the text of an expression leaves open about
its nesting leaves open what the expression comes to.
-/

set_option autoImplicit false

namespace QueryBoard.Db

/-! ## Truth -/

theorem Cell.truth_ofTruth (b : Option Bool) : (Cell.ofTruth b).truth = b := by
  rcases b with _ | _ | _ <;> decide

theorem bothTrue_assoc (a b c : Option Bool) :
    bothTrue (bothTrue a b) c = bothTrue a (bothTrue b c) := by
  rcases a with _ | _ | _ <;> rcases b with _ | _ | _ <;> rcases c with _ | _ | _ <;> rfl

/-! ## Rows -/

/-- A cell with the affinity that it brings into a comparison. -/
abbrev Rated := Option Affinity × Cell

/-- What a looked-up column comes to.  A name that is not found is null. -/
def columnOn (names : Names) (ctx : Context) (table : Option String) (name : String) : Rated :=
  match names table name with
  | .ok t => (t.affinity?, (t.eval ctx).toOption.getD .null)
  | .error _ => (none, .null)

def literalOn : Sql.Literal → Cell
  | .int n => .int n
  | .str s => .ofString s

/-- The functions that there are for a row: the first cell that is not null, and the number of
rows. -/
def functionOn (ctx : Context) (name : String) (args : List Cell) : Cell :=
  if name = "COALESCE" then (args.find? (!·.isNull)).getD .null else .int (Int64.ofNat ctx.total)

/-- What expressions come to on a row. -/
def onRow (names : Names) (ctx : Context) : Sql.Meaning Rated where
  column := columnOn names ctx
  literal := fun l => (none, literalOn l)
  param := fun v => (none, (Cell.ofValue? v).getD .null)
  compare := fun op x y => (none, .ofTruth (compareCells op (.between x.1 y.1) x.2 y.2))
  both := fun x y => (none, .ofTruth (bothTrue x.2.truth y.2.truth))
  call := fun name args => (none, functionOn ctx name (args.map Prod.snd))
  member := fun negated x items =>
    let found := isMember (x.1.getD .none) x.2 (items.map Prod.snd)
    (none, .ofTruth (if negated then found.map (!·) else found))
  truth := fun b => (none, .ofTruth (some b))
  star := (none, .null)
  window := fun x => x
  both_assoc := fun x y z => by simp only [Cell.truth_ofTruth, bothTrue_assoc]

/-! ## Looked-up expressions -/

/-- A function that is looked up is the choice of the first cell, or an aggregate. -/
theorem resolve_call {names : Names} {name : String} {args : List Sql.Expr} {t : Term}
    (resolved : resolve names (.call name args) = .ok t) :
    (∃ ts, name = "coalesce" ∧ resolveList names args = .ok ts ∧ t = .coalesce ts) ∨
      ∃ f arg, t = .aggregate f arg := by
  unfold resolve at resolved
  split at resolved <;> try contradiction
  next a b rest same =>
    cases same
    obtain ⟨x, first, resolved⟩ := bind_eq_ok_iff.mp resolved
    obtain ⟨y, second, resolved⟩ := bind_eq_ok_iff.mp resolved
    obtain ⟨ts, others, same⟩ := bind_eq_ok_iff.mp resolved
    cases same
    refine Or.inl ⟨x :: y :: ts, rfl, ?_, rfl⟩
    simp only [resolveList, first, second, others]
    rfl
  next f arg same =>
    cases same
    split at resolved
    · obtain ⟨x, -, same⟩ := bind_eq_ok_iff.mp resolved
      cases same
      exact Or.inr ⟨_, _, rfl⟩
    · contradiction

/-- The only window is the number of rows. -/
theorem resolve_over {names : Names} {e : Sql.Expr} {t : Term}
    (resolved : resolve names (.over e) = .ok t) : e = .call "count" [.star] ∧ t = .total := by
  unfold resolve at resolved
  split at resolved <;> try contradiction
  next same =>
    cases same
    cases resolved
    exact ⟨rfl, rfl⟩

section

variable {names : Names} {ctx : Context}

mutual

/-- A term that is evaluated on a single row gives what its expression comes to there. -/
theorem eval_onRow (single : ∀ f t, ∃ e, ctx.aggregate f t = .error e) :
    (e : Sql.Expr) → ∀ {t : Term} {c : Cell}, resolve names e = .ok t → t.eval ctx = .ok c →
    e.eval (onRow names ctx) = (t.affinity?, c)
  | .column table name, t, c, resolved, evaluated => by
      rw [resolve] at resolved
      rw [Sql.Expr.eval]
      simp only [onRow, columnOn, resolved, evaluated]
      rfl
  | .literal (.int n), t, c, resolved, evaluated => by
      cases resolved
      cases evaluated
      rfl
  | .literal (.str s), t, c, resolved, evaluated => by
      cases resolved
      cases evaluated
      rfl
  | .param v, t, c, resolved, evaluated => by
      cases resolved
      cases evaluated
      rfl
  | .binary .and left right, t, c, resolved, evaluated => by
      rw [resolve] at resolved
      obtain ⟨l, first, resolved⟩ := bind_eq_ok_iff.mp resolved
      obtain ⟨r, second, same⟩ := bind_eq_ok_iff.mp resolved
      cases same
      obtain ⟨x, firstCell, evaluated⟩ := bind_eq_ok_iff.mp evaluated
      obtain ⟨y, secondCell, same⟩ := bind_eq_ok_iff.mp evaluated
      cases same
      rw [Sql.Expr.eval, eval_onRow single left first firstCell,
        eval_onRow single right second secondCell]
      rfl
  | .call name args, t, c, resolved, evaluated => by
      rcases resolve_call resolved with ⟨ts, rfl, list, rfl⟩ | ⟨f, arg, rfl⟩
      · rw [Term.eval] at evaluated
        obtain ⟨cs, cells, same⟩ := bind_eq_ok_iff.mp evaluated
        cases same
        rw [Sql.Expr.eval, ← evalList_onRow single args list cells]
        have name : Text.upper "coalesce" = "COALESCE" := by decide
        simp only [onRow, functionOn, name, if_true]
        rfl
      · -- An aggregate has no value on a single row.
        obtain ⟨e, failed⟩ := single f arg
        rw [Term.eval, failed] at evaluated
        cases evaluated
  | .member negated _ [], t, c, resolved, evaluated => by
      cases resolved
      cases evaluated
      rfl
  | .member negated e (i :: is), t, c, resolved, evaluated => by
      rw [resolve] at resolved
      obtain ⟨x, subject, resolved⟩ := bind_eq_ok_iff.mp resolved
      obtain ⟨ts, items, same⟩ := bind_eq_ok_iff.mp resolved
      cases same
      rw [Term.eval] at evaluated
      obtain ⟨d, subjectCell, evaluated⟩ := bind_eq_ok_iff.mp evaluated
      obtain ⟨cs, cells, same⟩ := bind_eq_ok_iff.mp evaluated
      cases same
      have list := evalList_onRow single (i :: is) items cells
      rw [Sql.Expr.eval, eval_onRow single e subject subjectCell, ← Sql.Expr.evalList, ← list]
      · rfl
      · simp
  | .star, t, c, resolved, _ => by cases resolved
  | .over e, t, c, resolved, evaluated => by
      obtain ⟨rfl, rfl⟩ := resolve_over resolved
      cases evaluated
      rw [Sql.Expr.eval, Sql.Expr.eval]
      rfl
  | .binary .eq left right, t, c, resolved, evaluated
  | .binary .ne left right, t, c, resolved, evaluated
  | .binary .lt left right, t, c, resolved, evaluated
  | .binary .gt left right, t, c, resolved, evaluated
  | .binary .le left right, t, c, resolved, evaluated
  | .binary .ge left right, t, c, resolved, evaluated => by
      obtain ⟨l, first, resolved⟩ := bind_eq_ok_iff.mp resolved
      obtain ⟨r, second, same⟩ := bind_eq_ok_iff.mp resolved
      cases same
      obtain ⟨x, firstCell, evaluated⟩ := bind_eq_ok_iff.mp evaluated
      obtain ⟨y, secondCell, same⟩ := bind_eq_ok_iff.mp evaluated
      cases same
      rw [Sql.Expr.eval, eval_onRow single left first firstCell,
        eval_onRow single right second secondCell]
      · rfl
      · decide

theorem evalList_onRow (single : ∀ f t, ∃ e, ctx.aggregate f t = .error e) :
    (es : List Sql.Expr) → ∀ {ts : List Term} {cs : List Cell},
    resolveList names es = .ok ts → Term.evalList ctx ts = .ok cs →
    (Sql.Expr.evalList (onRow names ctx) es).map Prod.snd = cs
  | [], ts, cs, resolved, evaluated => by
      cases resolved
      cases evaluated
      rfl
  | e :: rest, ts, cs, resolved, evaluated => by
      rw [resolveList] at resolved
      obtain ⟨t, first, resolved⟩ := bind_eq_ok_iff.mp resolved
      obtain ⟨more, others, same⟩ := bind_eq_ok_iff.mp resolved
      cases same
      rw [Term.evalList] at evaluated
      obtain ⟨c, cell, evaluated⟩ := bind_eq_ok_iff.mp evaluated
      obtain ⟨ds, cells, same⟩ := bind_eq_ok_iff.mp evaluated
      cases same
      rw [Sql.Expr.evalList, List.map_cons, eval_onRow single e first cell,
        evalList_onRow single rest others cells]

end

end

/-! ## Values -/

/-- The cell that an expression comes to on a row, after its names have been looked up. -/
def valueOn (names : Names) (total : Nat) (r : JoinedRow) (e : Sql.Expr) : Except DbError Cell := do
  (← resolve names e).onRow total r

/-- Expressions that mean the same come to the same cell. -/
theorem valueOn_congr {e e' : Sql.Expr} (same : ∀ m : Sql.Meaning Rated, e.eval m = e'.eval m)
    {names : Names} {total : Nat} {r : JoinedRow} {c c' : Cell}
    (first : valueOn names total r e = .ok c) (second : valueOn names total r e' = .ok c') :
    c = c' := by
  obtain ⟨t, resolved, evaluated⟩ := bind_eq_ok_iff.mp first
  obtain ⟨t', resolved', evaluated'⟩ := bind_eq_ok_iff.mp second
  have value := eval_onRow (fun _ _ => ⟨_, rfl⟩) e resolved evaluated
  have value' := eval_onRow (fun _ _ => ⟨_, rfl⟩) e' resolved' evaluated'
  rw [same, value'] at value
  exact (congrArg Prod.snd value).symm

/-! ## Texts and values -/

open Sql.Expr (col coalesce)

/-- Two expressions with the same text and parameters say the same when they are read from left to
right.  So they have the same value where both are grouped as they are read, as two ways to nest AND
are. -/
theorem value_of_text {d : Sql.Dialect} {e e' : Sql.Expr} (named : e.Named) (named' : e'.Named)
    (text : e.tokens.text d = e'.tokens.text d) (params : e.tokens.params = e'.tokens.params) :
    (∀ (γ : Type) (m : Sql.Meaning γ), e.reading m = e'.reading m) ∧
      (e.grouped = true → ∀ (γ : Type) (m : Sql.Meaning γ), e.eval m = e'.reading m) ∧
      (e.grouped = true → e'.grouped = true →
        (∀ (γ : Type) (m : Sql.Meaning γ), e.eval m = e'.eval m) ∧
          ∀ (names : Names) (total : Nat) (r : JoinedRow) (c c' : Cell),
            valueOn names total r e = .ok c → valueOn names total r e' = .ok c' → c = c') := by
  have readings (γ : Type) (m : Sql.Meaning γ) : e.reading m = e'.reading m :=
    Sql.Expr.reading_of_text named named' text params m
  have value (built : e.grouped = true) (γ : Type) (m : Sql.Meaning γ) :
      e.eval m = e'.reading m := by
    rw [← Sql.Expr.reading_of_grouped built]
    exact readings γ m
  have values (built : e.grouped = true) (built' : e'.grouped = true) (γ : Type)
      (m : Sql.Meaning γ) : e.eval m = e'.eval m := by
    rw [value built, Sql.Expr.reading_of_grouped built']
  exact ⟨readings, value, fun built built' => ⟨values built built', fun _ _ _ _ _ =>
    valueOn_congr (values built built' Rated)⟩⟩

/-- Columns that are all two, apart from `c`, which is one. -/
def twoTwoOne : Names := fun _ name => .ok (.cell (.int (if name = "c" then 1 else 2)))

/-- A conjunction that is nested to the right is written like one that is nested to the left. -/
theorem value_of_text_nestedConjunctions :
    let a := (col "a").eq (.param (.int 2))
    let b := coalesce [col "b", .literal (.str "x")]
    let c := Sql.Expr.member true (col "c") [.param (.int 2), .param (.int 3)]
    (∀ (γ : Type) (m : Sql.Meaning γ),
      (Sql.Expr.and (a.and b) c).eval m = (Sql.Expr.and a (b.and c)).eval m) ∧
      valueOn twoTwoOne 0 [] (Sql.Expr.and (a.and b) c) = .ok (.int 1) ∧
      ∃ cell, valueOn twoTwoOne 0 [] (Sql.Expr.and a (b.and c)) = .ok cell ∧ .int 1 = cell := by
  intro a b c
  have word : Sql.IsName "coalesce".toList :=
    ⟨'c', "oalesce".toList, by decide, Or.inl (by decide), List.all_eq_true.mp (by decide)⟩
  have left : (Sql.Expr.and (a.and b) c).Named := by
    intro name called
    have same : name = "coalesce" := by
      simpa [a, b, c, col, coalesce, Sql.Expr.eq, Sql.Expr.and, Sql.Expr.tokens,
        Sql.Expr.tokensList, Sql.Tokens.parenList, Sql.Tokens.commaList,
        Sql.Tokens.separated] using called
    rw [same]
    exact word
  have tokens : (Sql.Expr.and a (b.and c)).tokens = (Sql.Expr.and (a.and b) c).tokens := by decide
  have right : (Sql.Expr.and a (b.and c)).Named := fun name called => left name (tokens ▸ called)
  have value : valueOn twoTwoOne 0 [] (Sql.Expr.and (a.and b) c) = .ok (.int 1) := by decide
  have value' : valueOn twoTwoOne 0 [] (Sql.Expr.and a (b.and c)) = .ok (.int 1) := by decide
  obtain ⟨same, cells⟩ :=
    (value_of_text left right (congrArg (Sql.Tokens.text .sqlite) tokens.symm)
      (congrArg Sql.Tokens.params tokens.symm)).2.2 (by decide) (by decide)
  exact ⟨same, value, _, value', cells twoTwoOne 0 [] (.int 1) _ value value'⟩

/-- There are no parentheses around an operand that is a comparison itself. -/
theorem comparedComparison_regrouped :
    let left := ((col "a").eq (col "b")).eq (col "c")
    let right := (col "a").eq ((col "b").eq (col "c"))
    left.Named ∧ right.Named ∧
      (∀ d : Sql.Dialect, left.tokens.text d = right.tokens.text d) ∧
      left.tokens.params = right.tokens.params ∧
      valueOn twoTwoOne 0 [] left = .ok (.int 1) ∧ valueOn twoTwoOne 0 [] right = .ok (.int 0) := by
  refine ⟨?_, ?_, fun d => ?_, ?_, ?_, ?_⟩
  · intro name member
    simp [col, Sql.Expr.eq, Sql.Expr.tokens] at member
  · intro name member
    simp [col, Sql.Expr.eq, Sql.Expr.tokens] at member
  · cases d <;> decide
  · decide
  · decide
  · decide

end QueryBoard.Db
