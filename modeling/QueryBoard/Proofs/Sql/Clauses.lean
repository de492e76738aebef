import QueryBoard.Proofs.Sql.Conditions

/-!
# Reading the clauses of a statement

Each clause starts with a word that no other part of a statement starts with, and ends where a later
clause or the end of the text begins.  A clause without items is left out.  A count of rows is read
as it was written, which is not as it was given where it is above the greatest signed integer.
-/

set_option autoImplicit false

namespace QueryBoard.Sql

open QueryBoard.Sql.Symbol

variable {α β : Type}

/-! ## Clauses -/

/-- The symbols of a clause that is left out when it has no items. -/
def clauseSymbols (ws : String) (separator : Symbol) (items : List (List Symbol)) : List Symbol :=
  if items = [] then [] else words ws ++ joined separator items

def readClause (ws : String) (separator : Symbol) (item : Reader α) (ss : List Symbol) :
    Option (List α × List Symbol) :=
  match ss.dropPrefix? (words ws) with
  | some ss => readList separator item ss
  | none => some ([], ss)

theorem Starts.mono {ws more : List String} {ss : List Symbol} (starts : Starts ws ss)
    (inside : ws ⊆ more) : Starts more ss := by
  intro s head
  obtain ⟨w, member, rfl⟩ := List.mem_map.mp (starts s head)
  exact List.mem_map_of_mem (inside member)

theorem starts_clauseSymbols {ws : String} (w : String) {more : List Symbol}
    (start : words ws = word w :: more) {later : List String} {rest : List Symbol}
    (next : Starts later rest) (separator : Symbol) (items : List (List Symbol)) :
    Starts (w :: later) (clauseSymbols ws separator items ++ rest) := by
  unfold clauseSymbols
  split
  · exact next.mono (List.subset_cons_self w later)
  · intro s head
    rw [start, List.append_assoc, List.cons_append] at head
    cases head
    exact List.mem_cons_self

theorem whereWords : words "WHERE" = [word "WHERE"] := rfl

/-- A clause ends where what comes next begins, and its items are read. -/
theorem readClause_symbols {ws : String} (w : String) {more : List Symbol}
    (start : words ws = word w :: more) {later : List String} {rest : List Symbol}
    (next : Starts later rest) (own : word w ∉ later.map word) (separator : Symbol)
    (stop : separator ∉ later.map word) (item : Reader β) (write : α → List Symbol)
    (value : α → β) {as : List α}
    (reads : ∀ a ∈ as, ∀ after, Starts later after ∨ after.head? = some separator →
      item (write a ++ after) = some (value a, after)) :
    readClause ws separator item (clauseSymbols ws separator (as.map write) ++ rest) =
      some (as.map value, rest) := by
  by_cases nil : as = []
  · rw [nil, List.map_nil, clauseSymbols, if_pos rfl, List.nil_append, readClause, start,
      next.dropPrefix?_eq own, List.map_nil]
  · have list := readList_joined separator item write value nil (next.head_ne stop)
      fun a member after continues => by
        refine reads a member after ?_
        rcases continues with rfl | separated
        · exact Or.inl next
        · exact Or.inr separated
    have some_ : as.map write ≠ [] := fun none => nil (List.map_eq_nil_iff.mp none)
    rw [clauseSymbols, if_neg some_, List.append_assoc, readClause, dropPrefix?_append]
    exact list

/-- The words that the clauses behind a select list start with. -/
def clauseWords : List String :=
  ["FROM", "INNER", "LEFT", "RIGHT", "WHERE", "GROUP", "ORDER", "LIMIT"]

/-- What ends an item of a clause: a separator or another clause. -/
def Ended (separator : Symbol) (after : List Symbol) : Prop :=
  Starts clauseWords after ∨ after.head? = some separator

theorem Ended.head_ne {separator s : Symbol} {after : List Symbol} (ended : Ended separator after)
    (noClause : s ∉ clauseWords.map word) (other : separator ≠ s) : after.head? ≠ some s := by
  rcases ended with clause | separated
  · exact clause.head_ne noClause
  · intro same
    rw [separated] at same
    exact other (Option.some.inj same)

/-! ## Items of clauses -/

def readLabel (ss : List Symbol) : Option (Option String × List Symbol) :=
  match ss.dropPrefix? [word "AS"] with
  | some ss => (readName ss).map fun (name, ss) => (some name, ss)
  | none => some (none, ss)

def readItem (ss : List Symbol) : Option (SelectItem × List Symbol) := do
  let (e, ss) ← readOperand ss
  let (label, ss) ← readLabel ss
  some (⟨e, label⟩, ss)

def readTable (ss : List Symbol) : Option (TableRef × List Symbol) := do
  let (name, ss) ← readName ss
  let (label, ss) ← readLabel ss
  some (⟨name, label⟩, ss)

def readOrderItem (ss : List Symbol) : Option (OrderItem × List Symbol) := do
  let (e, ss) ← readOperand ss
  match ss.dropPrefix? [word "ASC"] with
  | some ss => some (⟨e, .asc⟩, ss)
  | none => do
    let ss ← ss.dropPrefix? [word "DESC"]
    some (⟨e, .desc⟩, ss)

theorem readName_quoted (name : String) (after : List Symbol) :
    readName (quoted name :: after) = some (name, after) := rfl

theorem readLabel_symbols (label : Option String) (after : List Symbol)
    (stop : after.head? ≠ some (word "AS")) :
    readLabel ((label.map fun name => [word "AS", quoted name]).getD [] ++ after) =
      some (label, after) := by
  cases label with
  | some name => simp [readLabel, List.dropPrefix?, readName_quoted]
  | none =>
      have noLabel : after.dropPrefix? [word "AS"] = none := by
        cases after with
        | nil => rfl
        | cons s after =>
            have other : s ≠ word "AS" := fun same => stop (congrArg some same)
            simp [List.dropPrefix?, other]
      simp [readLabel, noLabel]

theorem readItem_symbols {i : SelectItem} (operand : Operand i.expr) (after : List Symbol)
    (noPoint : after.head? ≠ some (mark ".")) (noLabel : after.head? ≠ some (word "AS")) :
    readItem (i.tokens.symbols ++ after) = some (i, after) := by
  have label := readLabel_symbols i.label after noLabel
  have expr := readOperand_symbols operand
    ((i.label.map fun name => [word "AS", quoted name]).getD [] ++ after) (by
      cases i.label with
      | none => exact noPoint
      | some name => simp [word, mark])
  rw [SelectItem.symbols_tokens, List.append_assoc, readItem, expr]
  simp [label]

theorem readTable_symbols (r : TableRef) (after : List Symbol)
    (noLabel : after.head? ≠ some (word "AS")) :
    readTable (r.tokens.symbols ++ after) = some (r, after) := by
  have label := readLabel_symbols r.label after noLabel
  rw [TableRef.symbols_tokens, List.cons_append, readTable, readName_quoted]
  simp [label]

theorem readOrderItem_symbols {o : OrderItem} (operand : Operand o.expr) (after : List Symbol) :
    readOrderItem (o.tokens.symbols ++ after) = some (o, after) := by
  obtain ⟨e, dir⟩ := o
  have ascending : words SortDir.asc.keyword = [word "ASC"] := rfl
  have descending : words SortDir.desc.keyword = [word "DESC"] := rfl
  cases dir with
  | asc =>
      have expr := readOperand_symbols operand (word "ASC" :: after) (by simp [word, mark])
      simp [OrderItem.symbols_tokens, ascending, readOrderItem, expr, List.dropPrefix?]
  | desc =>
      have expr := readOperand_symbols operand (word "DESC" :: after) (by simp [word, mark])
      have other : word "DESC" ≠ word "ASC" := by decide
      simp [OrderItem.symbols_tokens, descending, readOrderItem, expr, List.dropPrefix?, other]

/-! ## Joins -/

def joinType? (ss : List Symbol) : Option (JoinType × List Symbol) :=
  [JoinType.inner, .left, .right].findSome? fun t =>
    (ss.dropPrefix? (words t.keyword)).map fun ss => (t, ss)

/-- Joins as long as a join begins, at most as many as the bound. -/
def readJoins : Nat → Reader (List Join)
  | 0, ss => some ([], ss)
  | bound + 1, ss =>
    match joinType? ss with
    | none => some ([], ss)
    | some (type, ss) => do
      let (table, ss) ← readTable ss
      let ss ← ss.dropPrefix? [word "ON"]
      let (conditions, ss) ← readList (word "AND") readCondition ss
      let condition ← Expr.conjunction conditions
      let (more, ss) ← readJoins bound ss
      some (⟨type, table, condition⟩ :: more, ss)

/-- Whether a join's condition is made of conditions that lose nothing in the text. -/
def Join.Regular (j : Join) : Prop :=
  ∃ conditions : List Expr, Expr.conjunction conditions = some j.condition ∧
    ∀ e ∈ conditions, Condition e ∧ e.normal = e

theorem joinType?_words (t : JoinType) (after : List Symbol) :
    joinType? (words t.keyword ++ after) = some (t, after) := by
  have inner : words JoinType.inner.keyword = [word "INNER", word "JOIN"] := rfl
  have left : words JoinType.left.keyword = [word "LEFT", word "JOIN"] := rfl
  have right : words JoinType.right.keyword = [word "RIGHT", word "JOIN"] := rfl
  cases t <;> simp [joinType?, inner, left, right, List.dropPrefix?, word]

theorem joinType?_starts {ss : List Symbol} (next : Starts ["WHERE", "GROUP", "ORDER", "LIMIT"] ss) :
    joinType? ss = none := by
  have none (t : JoinType) : ss.dropPrefix? (words t.keyword) = none := by
    cases t <;> exact next.dropPrefix?_eq (by decide) _
  simp [joinType?, none]

theorem starts_joins {rest : List Symbol} (next : Starts ["WHERE", "GROUP", "ORDER", "LIMIT"] rest)
    (js : List Join) :
    Starts ["INNER", "LEFT", "RIGHT", "WHERE", "GROUP", "ORDER", "LIMIT"]
      ((js.flatMap fun j => j.tokens.symbols) ++ rest) := by
  cases js with
  | nil => exact next.mono (by decide)
  | cons j js =>
      intro s head
      rw [List.flatMap_cons, Join.symbols_tokens] at head
      cases type : j.type <;> (rw [type] at head; cases head; decide)

theorem length_le_length_joins (js : List Join) (rest : List Symbol) :
    js.length ≤ ((js.flatMap fun j => j.tokens.symbols) ++ rest).length := by
  induction js with
  | nil => exact Nat.zero_le _
  | cons j js ih =>
      rw [List.flatMap_cons, Join.symbols_tokens, List.append_assoc, List.length_append,
        List.length_append, List.length_cons, List.length_cons]
      omega

theorem readJoins_symbols {rest : List Symbol}
    (next : Starts ["WHERE", "GROUP", "ORDER", "LIMIT"] rest) :
    ∀ (js : List Join) (bound : Nat), js.length ≤ bound → (∀ j ∈ js, j.Regular) →
      readJoins bound ((js.flatMap fun j => j.tokens.symbols) ++ rest) = some (js, rest)
  | [], 0, _, _ => rfl
  | [], bound + 1, _, _ => by
      rw [List.flatMap_nil, List.nil_append, readJoins, joinType?_starts next]
  | j :: js, bound + 1, enough, regular => by
      have later := readJoins_symbols next js bound (Nat.le_of_succ_le_succ enough)
        fun k member => regular k (List.mem_cons_of_mem j member)
      obtain ⟨conditions, all, each⟩ := regular j List.mem_cons_self
      have after := starts_joins next js
      have some_ : conditions ≠ [] := by
        intro nil
        rw [nil] at all
        cases all
      have condition := readList_joined (word "AND") readCondition Expr.symbols id some_
        (after.head_ne (by decide))
        fun e member rest' continues => by
          have noPoint : rest'.head? ≠ some (mark ".") := by
            rcases continues with rfl | and
            · exact after.head_ne (by decide)
            · simp [and, word, mark]
          have read := readCondition_symbols (each e member).1 rest' noPoint
          rw [(each e member).2] at read
          exact read
      have table := readTable_symbols j.table
        (word "ON" :: (joined (word "AND") (conditions.map Expr.symbols) ++
          ((js.flatMap fun j => j.tokens.symbols) ++ rest))) (by simp [word])
      rw [List.map_id] at condition
      rw [List.flatMap_cons, Join.symbols_tokens, Expr.symbols_conjunction all]
      simp only [List.append_assoc, List.cons_append, readJoins, joinType?_words]
      simp only [Option.bind_eq_bind, Option.bind_some, table, List.dropPrefix?, beq_self_eq_true,
        if_true, condition, all, later]

/-! ## Counts of rows -/

def readCount (w : String) (ss : List Symbol) : Option (Option UInt64 × List Symbol) :=
  match ss.dropPrefix? [word w] with
  | none => some (none, ss)
  | some (.lexeme (.integer n) :: ss) => some (some (UInt64.ofNat n.toNat), ss)
  | some _ => none

/-- The count that a count is written as. -/
def countWritten (n : UInt64) : UInt64 := UInt64.ofNat (min n.toNat (Nat.pow 2 63 - 1))

theorem symbols_rowCount (n : UInt64) : (Token.literal (rowCount n)).symbols =
    [.lexeme (.integer (min n.toNat (Nat.pow 2 63 - 1) : Nat))] := by
  have fits : min n.toNat (Nat.pow 2 63 - 1) < 2 ^ 63 := by
    have : Nat.pow 2 63 = 2 ^ 63 := rfl
    omega
  have same := Int64.toInt_ofNat_of_lt fits
  simp [Token.symbols, Token.lexemes, rowCount, same]

theorem readCount_symbols (w : String) (n : UInt64) (after : List Symbol) :
    readCount w (word w :: (Token.literal (rowCount n)).symbols ++ after) =
      some (some (countWritten n), after) := by
  have read (k : Nat) : readCount w (word w :: [.lexeme (.integer k)] ++ after) =
      some (some (UInt64.ofNat k), after) := by
    simp [readCount, List.dropPrefix?]
  rw [symbols_rowCount]
  exact read _

end QueryBoard.Sql
