import QueryBoard.Proofs.Sql.Symbols

/-!
# Reading lists and conditions

A reader takes something off the front of symbols by what comes next, without looking back.  The
conditions of compiled statements are comparisons and memberships of single operands, and nothing is
ever between parentheses but a list or the column of an aggregate, so that the end of an operand, of
a condition and of a list is never ambiguous: AND, which holds conditions together, is looser than
the comparisons and than IN.

What a membership in the empty list asks about is not in the text.  A condition without it is
`normal`.
-/

set_option autoImplicit false

namespace QueryBoard.Sql

open QueryBoard.Sql.Symbol

/-- Takes something off the front of symbols. -/
abbrev Reader (α : Type) := List Symbol → Option (α × List Symbol)

variable {α β : Type}

/-! ## Lists -/

/-- Items with a separator between two of them, at least one and at most as many as the bound. -/
def readItems (separator : Symbol) (item : Reader α) : Nat → Reader (List α)
  | 0, _ => none
  | bound + 1, ss => do
    let (a, ss) ← item ss
    match ss with
    | [] => some ([a], [])
    | s :: rest =>
      if s = separator then do
        let (more, ss) ← readItems separator item bound rest
        some (a :: more, ss)
      else some ([a], s :: rest)

def readList (separator : Symbol) (item : Reader α) (ss : List Symbol) :
    Option (List α × List Symbol) :=
  readItems separator item (ss.length + 1) ss

theorem readItems_joined {separator : Symbol} {item : Reader β} {write : α → List Symbol}
    {value : α → β} {rest : List Symbol} (stop : rest.head? ≠ some separator) :
    ∀ (as : List α) (a : α) (bound : Nat), as.length < bound →
      (∀ b ∈ a :: as, ∀ after, after = rest ∨ after.head? = some separator →
        item (write b ++ after) = some (value b, after)) →
      readItems separator item bound (joined separator ((a :: as).map write) ++ rest) =
        some ((a :: as).map value, rest)
  | as, a, 0, short, _ => absurd short (Nat.not_lt_zero _)
  | [], a, bound + 1, _, reads => by
      rw [List.map_cons, List.map_nil, joined, List.flatMap_nil, List.append_nil, readItems,
        reads a List.mem_cons_self rest (Or.inl rfl)]
      cases rest with
      | nil => rfl
      | cons s rest =>
          have other : s ≠ separator := fun same => stop (congrArg some same)
          simp [other]
  | b :: as, a, bound + 1, short, reads => by
      have split : joined separator ((a :: b :: as).map write) ++ rest =
          write a ++ separator :: (joined separator ((b :: as).map write) ++ rest) := by
        simp [joined]
      have later := readItems_joined stop as b bound (Nat.lt_of_succ_lt_succ short)
        fun c member => reads c (List.mem_cons_of_mem a member)
      rw [split, readItems, reads a List.mem_cons_self _ (Or.inr rfl)]
      simp only [Option.bind_eq_bind, Option.bind_some, if_true, later]
      rfl

theorem length_le_length_joined (separator : Symbol) (items : List (List Symbol)) :
    items.length ≤ (joined separator items).length + 1 := by
  have flat : ∀ rest : List (List Symbol),
      rest.length ≤ (rest.flatMap fun item => separator :: item).length := by
    intro rest
    induction rest with
    | nil => exact Nat.le_refl 0
    | cons item rest ih =>
        simp only [List.flatMap_cons, List.length_append, List.length_cons]
        omega
  cases items with
  | nil => exact Nat.zero_le _
  | cons item rest =>
      have := flat rest
      simp only [joined, List.length_cons, List.length_append]
      omega

/-- A list is read whole, when its items are and nothing goes on behind it. -/
theorem readList_joined (separator : Symbol) (item : Reader β) (write : α → List Symbol)
    (value : α → β) {as : List α} {rest : List Symbol} (some_ : as ≠ [])
    (stop : rest.head? ≠ some separator)
    (reads : ∀ a ∈ as, ∀ after, after = rest ∨ after.head? = some separator →
      item (write a ++ after) = some (value a, after)) :
    readList separator item (joined separator (as.map write) ++ rest) =
      some (as.map value, rest) := by
  obtain ⟨a, as, rfl⟩ := List.exists_cons_of_ne_nil some_
  refine readItems_joined stop as a _ ?_ reads
  have enough := length_le_length_joined separator ((a :: as).map write)
  rw [List.length_map, List.length_cons] at enough
  rw [List.length_append]
  omega

/-- A list between parentheses. -/
def readParens (item : Reader α) (ss : List Symbol) : Option (List α × List Symbol) := do
  let ss ← ss.dropPrefix? [mark "("]
  let (as, ss) ← readList (mark ",") item ss
  let ss ← ss.dropPrefix? [mark ")"]
  some (as, ss)

theorem readParens_joined (item : Reader β) (write : α → List Symbol) (value : α → β) {as : List α}
    (some_ : as ≠ [])
    (reads : ∀ a ∈ as, ∀ after, after.head? = some (mark ")") ∨ after.head? = some (mark ",") →
      item (write a ++ after) = some (value a, after)) (rest : List Symbol) :
    readParens item (mark "(" :: (joined (mark ",") (as.map write) ++ mark ")" :: rest)) =
      some (as.map value, rest) := by
  have close : (mark ")" :: rest).head? ≠ some (mark ",") := by simp [mark]
  have list := readList_joined (mark ",") item write value some_ close
    fun a member after continues => by
      refine reads a member after ?_
      rcases continues with rfl | comma
      · exact Or.inl rfl
      · exact Or.inr comma
  simp [readParens, List.dropPrefix?, list]

/-! ## What comes next -/

/-- Whether symbols are at an end or go on with one of some words. -/
def Starts (ws : List String) (ss : List Symbol) : Prop := ∀ s ∈ ss.head?, s ∈ ws.map word

theorem starts_nil (ws : List String) : Starts ws [] := by
  intro s head
  cases head

theorem Starts.head_ne {ws : List String} {ss : List Symbol} (starts : Starts ws ss) {s : Symbol}
    (other : s ∉ ws.map word) : ss.head? ≠ some s :=
  fun head => other (starts s head)

theorem Starts.dropPrefix?_eq {ws : List String} {ss : List Symbol} (starts : Starts ws ss)
    {s : Symbol} (other : s ∉ ws.map word) (more : List Symbol) :
    ss.dropPrefix? (s :: more) = none := by
  cases ss with
  | nil => rfl
  | cons t rest =>
      have different : t ≠ s := fun same => other (same ▸ starts t rfl)
      simp [List.dropPrefix?, different]

theorem dropPrefix?_append (expected rest : List Symbol) :
    (expected ++ rest).dropPrefix? expected = some rest := by
  induction expected with
  | nil => simp
  | cons s expected ih => simpa [List.dropPrefix?] using ih

/-! ## Expressions -/

def readName : Reader String
  | .lexeme (.quoted name) :: rest => some (name, rest)
  | _ => none

/-- A column, after its table and a point if there is a point. -/
def readColumn (ss : List Symbol) : Option (Expr × List Symbol) := do
  let (first, ss) ← readName ss
  match ss.dropPrefix? [mark "."] with
  | some ss => do
    let (name, ss) ← readName ss
    some (.column (some first) name, ss)
  | none => some (.column none first, ss)

def aggregate? (w : String) : Option Aggregate :=
  Aggregate.all.find? fun f => Text.upper f.name == w

/-- A value, an aggregate of a column, or a column. -/
def readOperand : Reader Expr
  | .value v :: ss => some (.param v, ss)
  | .lexeme (.word w) :: ss => do
    let f ← aggregate? w
    let ss ← ss.dropPrefix? [mark "("]
    let (e, ss) ← readColumn ss
    let ss ← ss.dropPrefix? [mark ")"]
    some (.call f.name [e], ss)
  | ss => readColumn ss

def comparison? (s : Symbol) : Option BinaryOp :=
  [BinaryOp.eq, .ne, .lt, .gt, .le, .ge].find? fun op => (Token.operator op).symbols = [s]

/-- A comparison of two operands, or the membership of one in a list. -/
def readCondition (ss : List Symbol) : Option (Expr × List Symbol) :=
  match ss.dropPrefix? [word "FALSE"] with
  | some ss => some (.member false .star [], ss)
  | none => do
    let (left, ss) ← readOperand ss
    match ss.head?.bind comparison? with
    | some op => do
      let (right, ss) ← readOperand ss.tail
      some (.binary op left right, ss)
    | none => do
      let ss ← ss.dropPrefix? [word "IN"]
      let (items, ss) ← readParens readOperand ss
      some (.member false left items, ss)

/-- The operands of compiled statements. -/
inductive Operand : Expr → Prop where
  | column (table : Option String) (name : String) : Operand (.column table name)
  | param (v : Value) : Operand (.param v)
  | call (f : Aggregate) (table : Option String) (name : String) :
    Operand (.call f.name [.column table name])

/-- The conditions of compiled statements. -/
inductive Condition : Expr → Prop where
  | compare {op : BinaryOp} {left right : Expr} (comparison : op ≠ .and) (leftOperand : Operand left)
    (rightOperand : Operand right) : Condition (.binary op left right)
  | member {e : Expr} {items : List Expr} (operand : Operand e)
    (each : ∀ i ∈ items, Operand i) : Condition (.member false e items)

/-- The condition without what the membership in the empty list asks about. -/
def Expr.normal : Expr → Expr
  | .member negated _ [] => .member negated .star []
  | e => e

theorem readColumn_symbols (table : Option String) (name : String) (after : List Symbol)
    (stop : after.head? ≠ some (mark ".")) :
    readColumn ((Expr.column table name).symbols ++ after) = some (.column table name, after) := by
  cases table with
  | some t => simp [readColumn, readName, quoted, List.dropPrefix?]
  | none =>
      have noPoint : after.dropPrefix? [mark "."] = none := by
        cases after with
        | nil => rfl
        | cons s after =>
            have other : s ≠ mark "." := fun same => stop (congrArg some same)
            simp [List.dropPrefix?, other]
      simp [readColumn, readName, quoted, noPoint]

theorem aggregate?_upper (f : Aggregate) : aggregate? (Text.upper f.name) = some f := by
  cases f <;> decide

theorem readOperand_symbols {e : Expr} (operand : Operand e) (after : List Symbol)
    (stop : after.head? ≠ some (mark ".")) : readOperand (e.symbols ++ after) = some (e, after) := by
  cases operand with
  | column table name =>
      have read := readColumn_symbols table name after stop
      cases table <;> exact read
  | param v => rw [Expr.symbols_param, List.singleton_append, readOperand]
  | call f table name =>
      have read := readColumn_symbols table name (mark ")" :: after) (by simp [mark])
      simp [readOperand, word, joined, aggregate?_upper, List.dropPrefix?, read]

theorem comparison?_symbols {op : BinaryOp} (comparison : op ≠ .and) :
    ∃ s, (Token.operator op).symbols = [s] ∧ comparison? s = some op ∧ s ≠ mark "." := by
  cases op <;> first
    | exact ⟨_, rfl, by decide, by decide⟩
    | exact absurd rfl comparison

/-- An operand starts with a name, a value or the word of an aggregate. -/
theorem dropPrefix?_operand {e : Expr} (operand : Operand e) {s : Symbol}
    (noName : ∀ name, quoted name ≠ s) (noValue : ∀ v, Symbol.value v ≠ s)
    (noAggregate : ∀ f : Aggregate, word (Text.upper f.name) ≠ s) (after : List Symbol) :
    (e.symbols ++ after).dropPrefix? [s] = none := by
  cases operand with
  | column table name => cases table <;> simp [List.dropPrefix?, noName]
  | param v => simp [List.dropPrefix?, noValue]
  | call f table name => simp [List.dropPrefix?, noAggregate]

theorem dropPrefix?_false {e : Expr} (operand : Operand e) (after : List Symbol) :
    (e.symbols ++ after).dropPrefix? [word "FALSE"] = none :=
  dropPrefix?_operand operand (by simp [quoted, word]) (by simp [word])
    (fun f => by cases f <;> decide) after

theorem readCondition_symbols {e : Expr} (condition : Condition e) (after : List Symbol)
    (stop : after.head? ≠ some (mark ".")) :
    readCondition (e.symbols ++ after) = some (e.normal, after) := by
  cases condition with
  | @compare op left right comparison leftOperand rightOperand =>
      obtain ⟨s, symbol, read, noPoint⟩ := comparison?_symbols comparison
      have first := readOperand_symbols leftOperand (s :: (right.symbols ++ after))
        (fun same => noPoint (Option.some.inj same))
      have second := readOperand_symbols rightOperand after stop
      rw [Expr.symbols_binary, symbol, List.append_assoc, List.append_assoc, List.singleton_append,
        readCondition, dropPrefix?_false leftOperand]
      simp [first, read, second, Expr.normal]
  | @member e items operand each =>
      cases items with
      | nil => simp [readCondition, List.dropPrefix?, Expr.normal]
      | cons i items =>
          have first := readOperand_symbols operand
            (word "IN" :: mark "(" :: (joined (mark ",") ((i :: items).map Expr.symbols) ++
              mark ")" :: after)) (by simp [word, mark])
          have list := readParens_joined readOperand Expr.symbols id (List.cons_ne_nil i items)
            (fun a member next continues => by
              refine readOperand_symbols (each a member) next ?_
              rcases continues with close | comma
              · simp [close, mark]
              · simp [comma, mark]) after
          have noComparison : comparison? (word "IN") = none := by decide
          rw [List.map_id] at list
          rw [Expr.symbols_member_cons, readCondition, List.append_assoc, List.append_assoc,
            dropPrefix?_false operand]
          simp only [List.cons_append, List.nil_append, first]
          simp only [Option.bind_eq_bind, Option.bind_some, List.head?_cons, noComparison,
            List.dropPrefix?, beq_self_eq_true, if_true, list]
          rfl

end QueryBoard.Sql
