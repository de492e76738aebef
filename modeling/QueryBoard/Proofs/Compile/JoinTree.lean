import QueryBoard.Compile.Basic
import QueryBoard.Proofs.Compile.Outcome

/-!
# A compiled select follows its join tree

The joins of a compiled select are the tables below the root of the tree, each after the tables that
it may refer to.  So every column in the statement belongs to a table that the statement has brought
in by then, under an alias that no other table has.
-/

set_option autoImplicit false

namespace QueryBoard

open Sql (Expr)

/-! ## Expressions -/

namespace Sql.Expr

mutual

/-- The columns that an expression refers to, each with the alias of its table if it has one. -/
def columns : Expr → List (Option String × String)
  | .column table name => [(table, name)]
  | .literal _ | .param _ | .star => []
  | .binary _ left right => left.columns ++ right.columns
  | .call _ args => columnsList args
  | .member _ e items => e.columns ++ columnsList items
  | .over e => e.columns

def columnsList : List Expr → List (Option String × String)
  | [] => []
  | e :: rest => e.columns ++ columnsList rest

end

/-- Whether every column of an expression is of a table with one of some aliases. -/
def Scoped (aliases : List String) (e : Expr) : Prop :=
  ∀ c ∈ e.columns, ∃ a ∈ aliases, c.1 = some a

/-- What AND holds together, from left to right. -/
def conjuncts : Expr → List Expr
  | .binary .and left right => left.conjuncts ++ right.conjuncts
  | e => [e]

theorem columnsList_params (items : List Value) : columnsList (items.map .param) = [] := by
  induction items with
  | nil => rfl
  | cons v rest ih => simp [columnsList, columns, ih]

theorem Scoped.column {aliases : List String} {a : String} (member : a ∈ aliases) (name : String) :
    (Expr.column (some a) name).Scoped aliases := by
  intro c inside
  rw [columns, List.mem_singleton] at inside
  exact ⟨a, member, by rw [inside]⟩

theorem Scoped.binary {aliases : List String} {op : BinaryOp} {left right : Expr}
    (first : left.Scoped aliases) (second : right.Scoped aliases) :
    (Expr.binary op left right).Scoped aliases := by
  intro c inside
  rw [columns, List.mem_append] at inside
  rcases inside with inside | inside
  · exact first c inside
  · exact second c inside

theorem columns_foldl_and (first : Expr) (rest : List Expr) :
    (rest.foldl Expr.and first).columns = first.columns ++ columnsList rest := by
  induction rest generalizing first with
  | nil => simp [columnsList]
  | cons e rest ih => simp [ih, Expr.and, columns, columnsList]

theorem conjuncts_foldl_and (first : Expr) (rest : List Expr) :
    (rest.foldl Expr.and first).conjuncts = first.conjuncts ++ rest.flatMap conjuncts := by
  induction rest generalizing first with
  | nil => simp
  | cons e rest ih => simp [ih, Expr.and, conjuncts]

/-- A conjunction holds its conditions together, if none of them is a conjunction itself. -/
theorem conjuncts_conjunction {es : List Expr} {e : Expr} (joined : conjunction es = some e)
    (single : ∀ x ∈ es, x.conjuncts = [x]) : e.conjuncts = es := by
  cases es with
  | nil => cases joined
  | cons first rest =>
      cases joined
      have others : rest.flatMap conjuncts = rest := by
        have each : rest.flatMap conjuncts = rest.flatMap fun x => [x] :=
          List.flatMap_congr fun x member => single x (by simp [member])
        simpa using each
      rw [conjuncts_foldl_and, single first (by simp), others]
      rfl

theorem columns_conjunction {es : List Expr} {e : Expr} (joined : conjunction es = some e) :
    e.columns = columnsList es := by
  cases es with
  | nil => cases joined
  | cons first rest =>
      cases joined
      rw [columns_foldl_and, columnsList]

theorem mem_columnsList {es : List Expr} {c : Option String × String} :
    c ∈ columnsList es ↔ ∃ e ∈ es, c ∈ e.columns := by
  induction es with
  | nil => simp [columnsList]
  | cons e rest ih => simp [columnsList, ih]

end Sql.Expr

/-! ## The tree -/

namespace TableNode

mutual

/-- The tables below a table, each before the tables that join it, with the one that it joins. -/
def edges : TableNode → List (TableKey × TableNode)
  | ⟨key, next, _⟩ => edgesTo key next

def edgesTo (parent : TableKey) : List TableNode → List (TableKey × TableNode)
  | [] => []
  | t :: rest => (parent, t) :: t.edges ++ edgesTo parent rest

end

/-- Whether every table joins one that is there by then. -/
def Ordered : List String → List (TableKey × TableNode) → Prop
  | _, [] => True
  | aliases, (parent, t) :: rest => parent.label ∈ aliases ∧ Ordered (aliases ++ [t.label]) rest

theorem Ordered.mono {edges : List (TableKey × TableNode)} {aliases more : List String}
    (ordered : Ordered aliases edges) (subset : ∀ a ∈ aliases, a ∈ more) : Ordered more edges := by
  induction edges generalizing aliases more with
  | nil => trivial
  | cons edge rest ih =>
      obtain ⟨known, ordered⟩ := ordered
      refine ⟨subset _ known, ih ordered ?_⟩
      intro a member
      rcases List.mem_append.mp member with member | member
      · exact List.mem_append_left _ (subset a member)
      · exact List.mem_append_right _ member

theorem Ordered.append {first second : List (TableKey × TableNode)} {aliases : List String}
    (left : Ordered aliases first) (right : Ordered aliases second) :
    Ordered aliases (first ++ second) := by
  induction first generalizing aliases with
  | nil => exact right
  | cons edge rest ih =>
      obtain ⟨known, ordered⟩ := left
      have later : ∀ a ∈ aliases, a ∈ aliases ++ [edge.2.label] :=
        fun a member => List.mem_append_left _ member
      exact ⟨known, ih ordered (right.mono later)⟩

/-- At each place the parent is the root, or one of the tables before. -/
theorem Ordered.at {before after : List (TableKey × TableNode)} {parent : TableKey} {t : TableNode}
    {aliases : List String} (ordered : Ordered aliases (before ++ (parent, t) :: after)) :
    parent.label ∈ aliases ++ before.map fun edge => edge.2.label := by
  induction before generalizing aliases with
  | nil =>
      rw [List.map_nil, List.append_nil]
      exact ordered.1
  | cons edge rest ih =>
      have known := ih ordered.2
      rwa [List.append_assoc] at known

mutual

theorem ordered_edges : (t : TableNode) → ∀ aliases, t.label ∈ aliases → Ordered aliases t.edges
  | ⟨key, next, _⟩, aliases, known => by
      rw [edges]
      exact ordered_edgesTo key next aliases known

theorem ordered_edgesTo (parent : TableKey) : (ts : List TableNode) → ∀ aliases,
    parent.label ∈ aliases → Ordered aliases (edgesTo parent ts)
  | [], _, _ => by
      rw [edgesTo]
      trivial
  | t :: rest, aliases, known => by
      have below := ordered_edges t (aliases ++ [t.label]) (by simp)
      have after := ordered_edgesTo parent rest (aliases ++ [t.label]) (by simp [known])
      rw [edgesTo]
      exact ⟨known, below.append after⟩

end

mutual

theorem aliases_eq : (t : TableNode) → t.aliases = t.label :: t.edges.map fun edge => edge.2.label
  | ⟨key, next, rule⟩ => by
      rw [aliases, edges, aliasesList_eq key next]
      rfl

theorem aliasesList_eq (parent : TableKey) : (ts : List TableNode) →
    aliasesList ts = (edgesTo parent ts).map fun edge => edge.2.label
  | [] => by rw [aliasesList, edgesTo, List.map_nil]
  | t :: rest => by
      rw [aliasesList, edgesTo, aliases_eq t, aliasesList_eq parent rest]
      simp

end

end TableNode

/-! ## Joins -/

/-- How the kind of a join is written. -/
def JoinKind.words : JoinKind → String
  | .inner => "INNER JOIN"
  | .left => "LEFT JOIN"
  | .right => "RIGHT JOIN"

/-- Whether an expression is a condition between two aliases, the inequality `!=` written `<>`. -/
def JoinCondition.Writes (parent child : String) (c : JoinCondition) (e : Expr) : Prop :=
  ∃ op : Sql.BinaryOp, op.text = (if c.operator = "!=" then "<>" else c.operator) ∧
    e = .binary op (.column (some parent) c.left.name) (.column (some child) c.right.name)

/-- Whether a join brings in a table next to its parent, as the rule of the table says. -/
structure TableNode.Joins (parent : TableKey) (t : TableNode) (j : Sql.Join) : Prop where
  table : j.table = ⟨t.key.name, some t.label⟩
  rule : ∃ rule, t.rule = some rule ∧ j.type.keyword = rule.kind.words ∧
    List.Forall₂ (JoinCondition.Writes parent.label t.label) rule.conditions j.condition.conjuncts
  columns : j.condition.Scoped [parent.label, t.label]

theorem joinOperator_ok {operator : String} {op : Sql.BinaryOp}
    (success : joinOperator operator = .ok op) :
    op.text = (if operator = "!=" then "<>" else operator) ∧ op ≠ .and := by
  have known : operator ∈ joinOperators := by
    by_contra other
    have failed := (joinOperator_fails operator _).mpr ⟨other, rfl⟩
    rw [success] at failed
    cases failed
  simp only [joinOperators, List.mem_cons, List.not_mem_nil, or_false] at known
  rcases known with rfl | rfl | rfl | rfl | rfl | rfl | rfl <;>
    (cases success; decide)

theorem JoinCondition.predicate_ok {parent child : String} {c : JoinCondition} {e : Expr}
    (success : c.predicate parent child = .ok e) :
    c.Writes parent child e ∧ e.conjuncts = [e] ∧ e.Scoped [parent, child] := by
  obtain ⟨op, chosen, same⟩ := bind_eq_ok_iff.mp success
  obtain ⟨text, comparison⟩ := joinOperator_ok chosen
  cases same
  refine ⟨⟨op, text, rfl⟩, ?_, ?_⟩
  · cases op <;> first | exact absurd rfl comparison | rfl
  · exact (Expr.Scoped.column (by simp) _).binary (Expr.Scoped.column (by simp) _)

namespace TableNode

theorem joins_of_join {parent key : TableKey} {next : List TableNode} {rule : Option JoinRule}
    {j : Sql.Join} (success : TableNode.join parent.label key rule = .ok j) :
    Joins parent ⟨key, next, rule⟩ j := by
  cases rule with
  | none => cases success
  | some r =>
      obtain ⟨predicates, written, rest⟩ := bind_eq_ok_iff.mp success
      have each : List.Forall₂ (fun c e => JoinCondition.Writes parent.label key.label c e)
          r.conditions predicates :=
        (mapM_eq_ok_iff.mp written).imp fun c e ok => (JoinCondition.predicate_ok ok).1
      have parts : ∀ e ∈ predicates, e.conjuncts = [e] ∧ e.Scoped [parent.label, key.label] := by
        intro e member
        obtain ⟨c, _, ok⟩ := exists_of_mem_mapM written e member
        exact (JoinCondition.predicate_ok ok).2
      cases joined : Expr.conjunction predicates with
      | none =>
          rw [joined] at rest
          cases rest
      | some condition =>
          rw [joined] at rest
          cases rest
          have whole : condition.conjuncts = predicates :=
            Expr.conjuncts_conjunction joined fun e member => (parts e member).1
          refine ⟨rfl, ⟨r, rfl, ?_, ?_⟩, ?_⟩
          · obtain ⟨kind, _⟩ := r
            cases kind <;> rfl
          · rw [whole]
            exact each
          · intro c inside
            rw [Expr.columns_conjunction joined, Expr.mem_columnsList] at inside
            obtain ⟨e, member, inside⟩ := inside
            exact (parts e member).2 c inside

/-- Each join belongs to one table below the root, in the order of the tree. -/
theorem joinsTo_edgesTo : ∀ (ts : List TableNode) (parent : TableKey) (joins : List Sql.Join),
    joinsTo parent.label ts = .ok joins →
      List.Forall₂ (fun edge j => Joins edge.1 edge.2 j) (edgesTo parent ts) joins
  | [], parent, joins, success => by
      rw [joinsTo] at success
      cases success
      rw [edgesTo]
      exact List.Forall₂.nil
  | ⟨key, next, rule⟩ :: rest, parent, joins, success => by
      rw [joinsTo] at success
      obtain ⟨first, joined, success⟩ := bind_eq_ok_iff.mp success
      obtain ⟨below, lower, success⟩ := bind_eq_ok_iff.mp success
      obtain ⟨after, later, same⟩ := bind_eq_ok_iff.mp success
      cases same
      have inner := joinsTo_edgesTo next key below lower
      have outer := joinsTo_edgesTo rest parent after later
      rw [edgesTo, edges]
      exact List.Forall₂.cons (joins_of_join joined) (List.rel_append inner outer)

theorem joins_edges {t : TableNode} {joins : List Sql.Join} (success : t.joins = .ok joins) :
    List.Forall₂ (fun edge j => Joins edge.1 edge.2 j) t.edges joins := by
  obtain ⟨key, next, rule⟩ := t
  rw [TableNode.joins] at success
  rw [edges]
  exact joinsTo_edgesTo next key joins success

theorem labels_of_joins {edges : List (TableKey × TableNode)} {joins : List Sql.Join}
    (each : List.Forall₂ (fun edge j => Joins edge.1 edge.2 j) edges joins) :
    edges.map (fun edge => edge.2.label) = joins.map fun j => j.table.name := by
  induction each with
  | nil => rfl
  | cons first _ ih =>
      rw [List.map_cons, List.map_cons, ih, first.table]
      rfl

end TableNode

/-! ## The statement -/

namespace Sql.Select

/-- Whether a block reads from the tables of a tree, each joined as its rule says. -/
structure FollowsTree (s : Select) (t : TableNode) : Prop where
  source : s.source = some ⟨t.key.name, some t.label⟩
  joins : List.Forall₂ (fun edge j => TableNode.Joins edge.1 edge.2 j) t.edges s.joins

/-- The aliases that a block introduces. -/
def aliases (s : Select) : List String := s.tables.map TableRef.name

/-- Whether columns belong to tables that are there: in a join those before it and its own one. -/
structure WellScoped (s : Select) : Prop where
  distinct : s.aliases.Nodup
  joins : ∀ before j after, s.joins = before ++ j :: after → j.condition.Scoped
    ((s.source.toList ++ before.map (fun k => k.table) ++ [j.table]).map TableRef.name)
  items : ∀ i ∈ s.items, i.expr.Scoped s.aliases
  filters : ∀ e ∈ s.filters, e.Scoped s.aliases
  groupBy : ∀ e ∈ s.groupBy, e.Scoped s.aliases
  orderBy : ∀ o ∈ s.orderBy, o.expr.Scoped s.aliases

theorem FollowsTree.aliases_eq {s : Select} {t : TableNode} (follows : s.FollowsTree t) :
    s.aliases = t.aliases := by
  rw [TableNode.aliases_eq, TableNode.labels_of_joins follows.joins, aliases, tables,
    follows.source]
  simp [TableRef.name]

/-- The tables of a tree come in an order in which each join finds its parent. -/
theorem FollowsTree.scoped_join {s : Select} {t : TableNode} (follows : s.FollowsTree t)
    {before after : List Join} {j : Join} (split : s.joins = before ++ j :: after) :
    j.condition.Scoped
      ((s.source.toList ++ before.map (fun k => k.table) ++ [j.table]).map TableRef.name) := by
  have each := follows.joins
  rw [split] at each
  have earlier := List.forall₂_take_append _ _ _ each
  obtain ⟨⟨parent, child⟩, rest, joins, _, later⟩ :=
    List.forall₂_cons_right_iff.mp (List.forall₂_drop_append _ _ _ each)
  have known : parent.label ∈ t.label :: before.map fun k => k.table.name := by
    have ordered := TableNode.ordered_edges t [t.label] (by simp)
    rw [← List.take_append_drop before.length t.edges, later] at ordered
    rw [← TableNode.labels_of_joins earlier]
    exact ordered.at
  have names : (s.source.toList ++ before.map (fun k => k.table) ++ [j.table]).map TableRef.name =
      (t.label :: before.map fun k => k.table.name) ++ [child.label] := by
    rw [follows.source, joins.table]
    simp [TableRef.name, Function.comp_def]
  rw [names]
  intro c inside
  obtain ⟨a, member, same⟩ := joins.columns c inside
  refine ⟨a, ?_, same⟩
  rcases List.mem_cons.mp member with rfl | member
  · exact List.mem_append_left _ known
  · exact List.mem_append_right _ member

end Sql.Select

/-! ## Columns of the query -/

namespace ColumnRef

variable {aliases : List String} {c : ColumnRef}

theorem scoped_projected (known : c.label ∈ aliases) : c.projected.Scoped aliases := by
  have column : c.qualified.Scoped aliases := Expr.Scoped.column known _
  unfold projected
  cases c.func with
  | none => exact column
  | some f =>
      intro x inside
      rw [Expr.columns, Expr.columnsList, Expr.columnsList, List.append_nil] at inside
      exact column x inside

theorem scoped_condition? (known : c.label ∈ aliases) {e : Expr}
    (given : c.condition? c.qualified = some e) : e.Scoped aliases := by
  have column : c.qualified.Scoped aliases := Expr.Scoped.column known _
  unfold condition? at given
  split at given
  · cases given
  · cases given
    intro x inside
    rw [Expr.columns, Expr.columnsList_params, List.append_nil] at inside
    exact column x inside
  · cases given
    exact column.binary fun x inside => by cases inside

end ColumnRef

namespace Query

theorem checkedColumns_ok {q : Query}
    (success : q.checkedColumns.forM (fun c => c.checkTable q.table.aliases) = .ok ()) :
    ∀ c ∈ q.filters ++ q.orderBy ++ q.columns, c.label ∈ q.table.aliases := by
  intro c member
  have checks := FailsWith.forM (ColumnRef.checkTable_fails q.table.aliases) q.checkedColumns
  have clean := none_first_iff.mp (checks.ok_iff.mp ⟨_, success⟩) c member
  by_contra other
  exact clean _ ⟨other, rfl⟩

theorem scoped_rootItems {schema : SchemaLookup} {q : Query} {items : List Sql.SelectItem}
    (success : q.rootItems schema = .ok items) {aliases : List String}
    (known : q.table.label ∈ aliases) : ∀ i ∈ items, i.expr.Scoped aliases := by
  unfold rootItems at success
  split at success
  · cases success
    simp
  · obtain ⟨key, _, same⟩ := bind_eq_ok_iff.mp success
    cases same
    intro i member
    obtain ⟨name, _, rfl⟩ := List.mem_map.mp member
    exact Expr.Scoped.column known name

/-- The parts of a select block whose joins and root items are well scoped. -/
theorem scoped_selectBlock {q : Query} {joins : List Sql.Join} {items : List Sql.SelectItem}
    {aliases : List String} (known : ∀ c ∈ q.filters ++ q.orderBy ++ q.columns, c.label ∈ aliases)
    (root : ∀ i ∈ items, i.expr.Scoped aliases) :
    (∀ i ∈ (q.selectBlock joins items).items, i.expr.Scoped aliases) ∧
      (∀ e ∈ (q.selectBlock joins items).filters, e.Scoped aliases) ∧
      (∀ e ∈ (q.selectBlock joins items).groupBy, e.Scoped aliases) ∧
      ∀ o ∈ (q.selectBlock joins items).orderBy, o.expr.Scoped aliases := by
  refine ⟨fun i member => ?_, fun e member => ?_, fun e member => ?_, fun o member => ?_⟩
  · rcases List.mem_append.mp member with member | member
    · obtain ⟨c, inside, rfl⟩ := List.mem_map.mp member
      exact ColumnRef.scoped_projected (known c (by simp [inside]))
    · exact root i member
  · obtain ⟨c, inside, given⟩ := List.mem_filterMap.mp member
    exact ColumnRef.scoped_condition? (known c (by simp [inside])) given
  · simp only [selectBlock] at member
    split at member
    · obtain ⟨c, inside, rfl⟩ := List.mem_map.mp member
      have listed := (List.mem_filter.mp inside).1
      exact ColumnRef.scoped_projected (known c (by simp [listed]))
    · cases member
  · obtain ⟨c, inside, rfl⟩ := List.mem_map.mp member
    exact ColumnRef.scoped_projected (known c (by simp [inside]))

theorem compileSelect_ok {schema : SchemaLookup} {q : Query} {s : Sql.Select}
    (success : q.compileSelect schema = .ok s) : s.FollowsTree q.table ∧ s.WellScoped := by
  obtain ⟨_, unique, success⟩ := bind_eq_ok_iff.mp success
  obtain ⟨joins, joined, success⟩ := bind_eq_ok_iff.mp success
  obtain ⟨_, checked, success⟩ := bind_eq_ok_iff.mp success
  obtain ⟨items, found, same⟩ := bind_eq_ok_iff.mp success
  cases same
  have follows : (q.selectBlock joins items).FollowsTree q.table :=
    ⟨rfl, TableNode.joins_edges joined⟩
  have distinct : q.table.aliases.Nodup :=
    q.table.none_aliasFault_iff.mp (q.table.checkAliases_fails.ok_iff.mp ⟨_, unique⟩)
  have known := checkedColumns_ok checked
  have top : q.table.label ∈ q.table.aliases := by
    rw [TableNode.aliases_eq]
    exact List.mem_cons_self
  rw [← follows.aliases_eq] at distinct known top
  obtain ⟨columns, filters, groupBy, orderBy⟩ :=
    scoped_selectBlock known (scoped_rootItems found top)
  refine ⟨follows, ⟨distinct, ?_, columns, filters, groupBy, orderBy⟩⟩
  intro before j after split
  exact follows.scoped_join split

/-- A compiled select reads from the root table and joins the tables below it in the order of the
tree, each by its own rule, and refers to no table that it has not brought in. -/
theorem select_followsTree (dialect : Sql.Dialect) (schema : SchemaLookup) (q : Query)
    (c : Compiled) (selects : q.operation = .select)
    (success : q.compile dialect schema = .ok c) :
    ∃ s, c.statement = .select s ∧ s.FollowsTree q.table ∧ s.WellScoped := by
  obtain ⟨statement, built, same⟩ := bind_eq_ok_iff.mp success
  cases same
  rw [Query.statement, selects] at built
  obtain ⟨s, compiled, same⟩ := bind_eq_ok_iff.mp built
  cases same
  exact ⟨s, rfl, compileSelect_ok compiled⟩

/-- Two branches below the root, one of them with a second occurrence of the root's table. -/
def branches : Query where
  operation := .select
  table :=
    { key := ⟨"a", 0⟩
      next :=
        [{ key := ⟨"b", 0⟩, rule := some ⟨.left, [.of "x" "=" "y", .of "u" "!=" "v"]⟩
           next := [{ key := ⟨"a", 1⟩, rule := some ⟨.inner, [.of "k" "<" "l"]⟩ }] },
         { key := ⟨"c", 0⟩, rule := some ⟨.right, [.of "p" ">=" "q"]⟩ }] }
  columns := [.of ⟨"b", 0⟩ "m", (ColumnRef.of ⟨"a", 1⟩ "n").withFunc .sum]
  filters := [(ColumnRef.of ⟨"c", 0⟩ "w").withValue (.list [.int 1, .null])]
  orderBy := [(ColumnRef.of ⟨"a", 0⟩ "t").withOrder "DESC"]

theorem branches_compiles : ∃ c, branches.compile .sqlite (Catalog.table []) = .ok c := by
  obtain ⟨c, compiled, _⟩ := exists_compiled .sqlite (Catalog.table []) branches rfl (by decide)
    (by cbv) (by decide) rfl
  exact ⟨c, compiled⟩

theorem select_followsTree_branches :
    ∃ c s, branches.compile .sqlite (Catalog.table []) = .ok c ∧ c.statement = .select s ∧
      s.FollowsTree branches.table ∧ s.WellScoped ∧ s.aliases = ["a", "b", "a_1", "c"] := by
  obtain ⟨c, compiled⟩ := branches_compiles
  obtain ⟨s, built, follows, wellScoped⟩ :=
    select_followsTree .sqlite (Catalog.table []) branches c rfl compiled
  exact ⟨c, s, compiled, built, follows, wellScoped, follows.aliases_eq.trans (by decide)⟩

end Query

end QueryBoard
