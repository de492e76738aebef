import QueryBoard.Proofs.Compile.Outcome
import QueryBoard.Proofs.Wire.Response
import Mathlib.Data.List.Induction

/-!
# What a select shows

A select shows one column of its result for each column that the query projects, and after them the
primary key of the root table, if there is one and rows are not grouped.  The rules name the
projected columns and nothing else: under each key the columns that have it, in their order.
-/

set_option autoImplicit false

namespace QueryBoard

open Sql (Expr SelectItem)

/-! ## Rules, entry by entry -/

namespace Rules

variable {r : Rules} {key k : String} {outputs : List String}

theorem ne_of_mem_of_below {rest : Rules} {old : List String} (rising : Rising ((k, old) :: rest))
    (member : (key, outputs) ∈ rest) : key ≠ k :=
  ((List.pairwise_cons.mp rising).1 _ member).ne'

theorem outputs_of_mem (rising : r.Rising) (member : (key, outputs) ∈ r) :
    r.outputs key = outputs := by
  induction r with
  | nil => cases member
  | cons first rest ih =>
      obtain ⟨k, old⟩ := first
      rw [Rules.outputs, List.lookup_cons]
      rcases List.mem_cons.mp member with same | member
      · cases same
        rw [beq_self_eq_true]
        rfl
      · rw [beq_false_of_ne (ne_of_mem_of_below rising member)]
        exact ih (List.pairwise_cons.mp rising).2 member

theorem outputs_of_not_mem (absent : ∀ outputs, (key, outputs) ∉ r) : r.outputs key = [] := by
  have none : r.lookup key = none := by
    rw [List.lookup_eq_none_iff]
    intro e member
    have other : key ≠ e.1 := fun same => absent e.2 (same ▸ member)
    simpa using other
  rw [Rules.outputs, none]
  rfl

/-- Adding an output extends what stands under its key. -/
theorem add_eq_put (rising : r.Rising) (key output : String) :
    r.add key output = r.put key (r.outputs key ++ [output]) := by
  induction r with
  | nil => rfl
  | cons first rest ih =>
      obtain ⟨k, old⟩ := first
      obtain ⟨above, higher⟩ := List.pairwise_cons.mp rising
      rw [add, put]
      by_cases same : key = k
      · have first : (key, old) ∈ (k, old) :: rest := by rw [same]; exact List.mem_cons_self
        rw [if_pos same, if_pos same, outputs_of_mem rising first]
      · rw [if_neg same, if_neg same]
        by_cases below : key < k
        · rw [if_pos below, if_pos below, outputs_of_not_mem]
          · rfl
          · intro outputs member
            rcases List.mem_cons.mp member with equal | member
            · exact same (congrArg Prod.fst equal)
            · exact lt_asymm below (above _ member)
        · have later : Rules.outputs ((k, old) :: rest) key = Rules.outputs rest key := by
            rw [Rules.outputs, List.lookup_cons, beq_false_of_ne same]
            rfl
          rw [if_neg below, if_neg below, ih higher, later]

theorem mem_put_iff (rising : r.Rising) (new : List String) :
    (k, outputs) ∈ r.put key new ↔ if k = key then outputs = new else (k, outputs) ∈ r := by
  induction r with
  | nil => by_cases same : k = key <;> simp [put, same]
  | cons first rest ih =>
      obtain ⟨k', old⟩ := first
      have others : ∀ outputs, (k', outputs) ∉ rest := fun outputs member =>
        ne_of_mem_of_below rising member rfl
      rw [put]
      split
      · next same =>
          subst same
          by_cases equal : k = key
          · subst equal
            simp [others]
          · simp [equal]
      · next other =>
          split
          · next below =>
              by_cases equal : k = key
              · subst equal
                have absent : (k, outputs) ∉ rest := fun member =>
                  lt_asymm below ((List.pairwise_cons.mp rising).1 _ member)
                simp [other, absent]
              · simp [equal]
          · rw [List.mem_cons, ih (List.pairwise_cons.mp rising).2]
            by_cases equal : k = key
            · subst equal
              simp [other]
            · simp [equal]

/-- Rules are the same if they have the same entries. -/
theorem eq_of_mem_iff {r' : Rules} (rising : r.Rising) (rising' : r'.Rising)
    (same : ∀ e, e ∈ r ↔ e ∈ r') : r = r' := by
  have distinct {r : Rules} (rising : r.Rising) : r.Nodup :=
    rising.imp fun below => ne_of_apply_ne Prod.fst below.ne
  have perm : r.Perm r' :=
    (List.perm_ext_iff_of_nodup (distinct rising) (distinct rising')).mpr same
  refine perm.eq_of_pairwise (fun a b _ _ below above => ?_) rising rising'
  exact absurd below (lt_asymm above)

end Rules

/-! ## Columns -/

namespace ColumnRef

/-- Whether an item of a select shows a column, inside its aggregate if it has one. -/
inductive ShownAs (c : ColumnRef) : SelectItem → Prop where
  | plain : c.func = none → ShownAs c ⟨.column (some c.label) c.name, some c.outputName⟩
  | aggregate {f : Aggregate} : c.func = some f →
      ShownAs c ⟨.call f.name [.column (some c.label) c.name], some c.outputName⟩

theorem shownAs_selectItem (c : ColumnRef) : c.ShownAs c.selectItem := by
  unfold selectItem projected
  cases given : c.func with
  | none => exact ShownAs.plain given
  | some f => exact ShownAs.aggregate given

theorem ShownAs.eq_selectItem {c : ColumnRef} {i : SelectItem} (shown : c.ShownAs i) :
    i = c.selectItem := by
  unfold selectItem projected
  cases shown with
  | plain given => rw [given]; rfl
  | aggregate given => rw [given]; rfl

theorem eq_of_shown {columns : List ColumnRef} {shown : List SelectItem}
    (each : List.Forall₂ ShownAs columns shown) : shown = columns.map selectItem := by
  rw [← List.forall₂_eq_eq_eq, List.forall₂_map_right_iff]
  exact each.flip.imp fun i c shown => shown.eq_selectItem

theorem point_mem_outputName (c : ColumnRef) : '.' ∈ c.outputName.toList := by
  unfold outputName
  cases c.func <;> simp

theorem outputName_ne_rootIdColumn (c : ColumnRef) : c.outputName ≠ rootIdColumn := by
  intro same
  have point := c.point_mem_outputName
  rw [same] at point
  revert point
  decide

end ColumnRef

/-- Adding columns one after the other puts under each key those that have it, in their order. -/
theorem Rules.foldl_add (columns : List ColumnRef) (r : Rules)
    (all : r = columns.foldl (fun (r : Rules) c => r.add c.metaKey c.outputName) []) :
    r.Rising ∧ ∀ key outputs, (key, outputs) ∈ r ↔
      outputs ≠ [] ∧ outputs = (columns.filter (·.metaKey = key)).map ColumnRef.outputName := by
  subst all
  induction columns using List.reverseRecOn with
  | nil => exact ⟨List.Pairwise.nil, fun key outputs => by simp⟩
  | append_singleton columns c ih =>
      rw [List.foldl_concat]
      generalize columns.foldl (fun (r : Rules) c => r.add c.metaKey c.outputName) [] = r at ih ⊢
      obtain ⟨rising, gathered⟩ := ih
      have own : r.outputs c.metaKey =
          (columns.filter (·.metaKey = c.metaKey)).map ColumnRef.outputName := by
        by_cases empty : (columns.filter (·.metaKey = c.metaKey)).map ColumnRef.outputName = []
        · rw [empty]
          refine outputs_of_not_mem fun outputs member => ?_
          obtain ⟨some, same⟩ := (gathered _ _).mp member
          exact some (same.trans empty)
        · exact outputs_of_mem rising ((gathered _ _).mpr ⟨empty, rfl⟩)
      rw [add_eq_put rising]
      refine ⟨rising_put rising _ _, fun key outputs => ?_⟩
      rw [mem_put_iff rising, List.filter_append, List.map_append]
      by_cases same : key = c.metaKey
      · subst same
        rw [if_pos rfl, own, List.filter_cons_of_pos (by simp), List.filter_nil, List.map_singleton]
        constructor
        · rintro rfl
          exact ⟨by simp, rfl⟩
        · exact fun extended => extended.2
      · have other : c.metaKey ≠ key := Ne.symm same
        rw [if_neg same, gathered, List.filter_cons_of_neg (by simpa using other), List.filter_nil,
          List.map_nil, List.append_nil]

namespace Query

/-! ## The primary key of the root table -/

/-- Whether a column is marked as the primary key of the root table. -/
def MarksRootKey (q : Query) (c : ColumnRef) : Prop :=
  c.label = q.table.label ∧ c.column.primaryKey = true

/-- The column that a select shows as the primary key of the root table, if it shows one: the first
projected column that is marked as such, or else the first that the schema has. -/
inductive RootKey (schema : SchemaLookup) (q : Query) : Option String → Prop where
  | grouped {c : ColumnRef} : c ∈ q.columns → c.func ≠ none → RootKey schema q none
  | projected {before after : List ColumnRef} {c : ColumnRef} :
      (∀ c ∈ q.columns, c.func = none) → q.columns = before ++ c :: after → q.MarksRootKey c →
      (∀ b ∈ before, ¬ q.MarksRootKey b) → RootKey schema q (some c.name)
  | stored {t : Table} {before after : List Column} {column : Column} :
      (∀ c ∈ q.columns, c.func = none) → (∀ c ∈ q.columns, ¬ q.MarksRootKey c) →
      schema q.table.key.name = .ok t → t.columns = before ++ column :: after →
      column.primaryKey = true → (∀ b ∈ before, b.primaryKey = false) →
      RootKey schema q (some column.name)
  | keyless {t : Table} :
      (∀ c ∈ q.columns, c.func = none) → (∀ c ∈ q.columns, ¬ q.MarksRootKey c) →
      schema q.table.key.name = .ok t → (∀ column ∈ t.columns, column.primaryKey = false) →
      RootKey schema q none

theorem hasAggregate_iff (q : Query) : q.hasAggregate = true ↔ ∃ c ∈ q.columns, c.func ≠ none := by
  simp [hasAggregate, Option.isSome_iff_ne_none]

theorem not_hasAggregate_iff (q : Query) :
    ¬ q.hasAggregate = true ↔ ∀ c ∈ q.columns, c.func = none := by
  rw [hasAggregate_iff]
  push Not
  rfl

theorem rootKey_of_stored {schema : SchemaLookup} {q : Query} {t : Table}
    (plain : ∀ c ∈ q.columns, c.func = none) (unmarked : ∀ c ∈ q.columns, ¬ q.MarksRootKey c)
    (known : schema q.table.key.name = .ok t) :
    q.RootKey schema (t.primaryKey?.map (·.name)) := by
  cases found : t.primaryKey? with
  | some column =>
      obtain ⟨marked, before, after, split, earlier⟩ := List.find?_eq_some_iff_append.mp found
      exact RootKey.stored plain unmarked known split marked (by simpa using earlier)
  | none =>
      have none := List.find?_eq_none.mp found
      exact RootKey.keyless plain unmarked known (by simpa using none)

theorem marksRootKey_iff {q : Query} {c : ColumnRef} (plain : c.func = none) :
    (c.func.isNone && c.column.primaryKey && c.label == q.table.label) = true ↔
      q.MarksRootKey c := by
  simp [MarksRootKey, plain, and_comm]

theorem rootKey_of_rootKey? {schema : SchemaLookup} {q : Query} {key : Option String}
    (plain : ∀ c ∈ q.columns, c.func = none) (found : q.rootKey? schema = .ok key) :
    q.RootKey schema key := by
  unfold rootKey? at found
  dsimp only at found
  split at found
  · next c shown =>
      cases found
      obtain ⟨marked, before, after, split, earlier⟩ := List.find?_eq_some_iff_append.mp shown
      have marks := marksRootKey_iff (q := q) (plain c (by simp [split]))
      refine RootKey.projected plain split (marks.mp marked) fun b member marked => ?_
      have fails := earlier b member
      rw [(marksRootKey_iff (plain b (by simp [split, member]))).mpr marked] at fails
      cases fails
  · next hidden =>
      have unmarked : ∀ c ∈ q.columns, ¬ q.MarksRootKey c := fun c member marked =>
        List.find?_eq_none.mp hidden c member ((marksRootKey_iff (plain c member)).mpr marked)
      split at found
      · next t known =>
          cases found
          exact rootKey_of_stored plain unmarked known
      · cases found

theorem rootKey?_of_rootKey {schema : SchemaLookup} {q : Query} {key : Option String}
    (plain : ∀ c ∈ q.columns, c.func = none) (root : q.RootKey schema key) :
    q.rootKey? schema = .ok key := by
  have hidden (unmarked : ∀ c ∈ q.columns, ¬ q.MarksRootKey c) : q.columns.find? (fun c =>
      c.func.isNone && c.column.primaryKey && c.label == q.table.label) = none :=
    List.find?_eq_none.mpr fun c member marked =>
      unmarked c member ((marksRootKey_iff (plain c member)).mp marked)
  unfold rootKey?
  dsimp only
  cases root with
  | grouped member func => exact absurd (plain _ member) func
  | @projected before after c _ split marked earlier =>
      have shown : q.columns.find? (fun c =>
          c.func.isNone && c.column.primaryKey && c.label == q.table.label) = some c := by
        rw [List.find?_eq_some_iff_append]
        refine ⟨(marksRootKey_iff (plain c (by simp [split]))).mpr marked, before, after, split, ?_⟩
        intro b member
        rw [Bool.not_eq_true', Bool.eq_false_iff]
        exact mt (marksRootKey_iff (plain b (by simp [split, member]))).mp (earlier b member)
      rw [shown]
  | @stored t before after column _ unmarked known split marked earlier =>
      have found : t.primaryKey? = some column :=
        List.find?_eq_some_iff_append.mpr
          ⟨marked, before, after, split, fun b member => by rw [earlier b member]; rfl⟩
      rw [hidden unmarked, known]
      dsimp only
      rw [found]
      rfl
  | @keyless t _ unmarked known none =>
      have missing : t.primaryKey? = Option.none :=
        List.find?_eq_none.mpr fun column member => by simp [none column member]
      rw [hidden unmarked, known]
      dsimp only
      rw [missing]
      rfl

/-- The column for the primary key of the root table is determined. -/
theorem RootKey.unique {schema : SchemaLookup} {q : Query} {key key' : Option String}
    (first : q.RootKey schema key) (second : q.RootKey schema key') : key = key' := by
  by_cases plain : ∀ c ∈ q.columns, c.func = none
  · have found := rootKey?_of_rootKey plain first
    rw [rootKey?_of_rootKey plain second] at found
    exact (Except.ok.inj found).symm
  · have hidden {key : Option String} (root : q.RootKey schema key) : key = none := by
      cases root with
      | grouped => rfl
      | projected all | stored all | keyless all => exact absurd all plain
    rw [hidden first, hidden second]

/-! ## The whole select -/

/-- What a select shows of a query, and what its rules say. -/
structure Projects (schema : SchemaLookup) (q : Query) (s : Sql.Select) (rules : Rules) :
    Prop where
  items : ∃ shown key, List.Forall₂ ColumnRef.ShownAs q.columns shown ∧ q.RootKey schema key ∧
    s.items = shown ++ (key.map fun name =>
      (⟨.column (some q.table.label) name, some rootIdColumn⟩ : SelectItem)).toList
  grouped : ∀ c ∈ q.columns, c.func ≠ none → s.groupBy =
    (q.columns.filter (·.func = none)).map fun c => Expr.column (some c.label) c.name
  ungrouped : (∀ c ∈ q.columns, c.func = none) → s.groupBy = []
  rising : rules.Rising
  gathered : ∀ key outputs, (key, outputs) ∈ rules ↔
    outputs ≠ [] ∧ outputs = (q.columns.filter (·.metaKey = key)).map ColumnRef.outputName
  unnamed : ∀ e ∈ rules, rootIdColumn ∉ e.2

theorem rules_gathered (q : Query) : q.rules.Rising ∧ ∀ key outputs, (key, outputs) ∈ q.rules ↔
    outputs ≠ [] ∧ outputs = (q.columns.filter (·.metaKey = key)).map ColumnRef.outputName :=
  Rules.foldl_add q.columns q.rules rfl

theorem unnamed_rules {q : Query} {e : String × List String} (member : e ∈ q.rules) :
    rootIdColumn ∉ e.2 := by
  obtain ⟨_, same⟩ := (q.rules_gathered.2 e.1 e.2).mp member
  rw [same]
  intro named
  obtain ⟨c, _, named⟩ := List.mem_map.mp named
  exact c.outputName_ne_rootIdColumn named

theorem items_selectBlock {schema : SchemaLookup} {q : Query} {joins : List Sql.Join}
    {root : List SelectItem} (found : q.rootItems schema = .ok root) :
    ∃ shown key, List.Forall₂ ColumnRef.ShownAs q.columns shown ∧ q.RootKey schema key ∧
      (q.selectBlock joins root).items = shown ++ (key.map fun name =>
        (⟨.column (some q.table.label) name, some rootIdColumn⟩ : SelectItem)).toList := by
  have shown : List.Forall₂ ColumnRef.ShownAs q.columns (q.columns.map ColumnRef.selectItem) := by
    rw [List.forall₂_map_right_iff, List.forall₂_same]
    exact fun c _ => c.shownAs_selectItem
  rw [rootItems] at found
  by_cases aggregate : q.hasAggregate = true
  · rw [if_pos aggregate] at found
    cases found
    obtain ⟨c, member, func⟩ := q.hasAggregate_iff.mp aggregate
    exact ⟨_, none, shown, RootKey.grouped member func, rfl⟩
  · rw [if_neg aggregate] at found
    obtain ⟨key, given, same⟩ := bind_eq_ok_iff.mp found
    cases same
    refine ⟨_, key, shown, rootKey_of_rootKey? (q.not_hasAggregate_iff.mp aggregate) given, ?_⟩
    cases key <;> rfl

theorem projects_selectBlock {schema : SchemaLookup} {q : Query} {joins : List Sql.Join}
    {root : List SelectItem} (found : q.rootItems schema = .ok root) :
    q.Projects schema (q.selectBlock joins root) q.rules := by
  refine ⟨items_selectBlock found, ?_, ?_, q.rules_gathered.1,
    q.rules_gathered.2, fun e => unnamed_rules⟩
  · intro c member func
    simp only [selectBlock]
    rw [if_pos (q.hasAggregate_iff.mpr ⟨c, member, func⟩)]
    have kept : q.columns.filter (·.func.isNone) = q.columns.filter (·.func = none) :=
      List.filter_congr fun c _ => by cases c.func <;> rfl
    rw [kept]
    refine List.map_congr_left fun c member => ?_
    have plain : c.func = none := by simpa using (List.mem_filter.mp member).2
    rw [ColumnRef.projected, plain]
    rfl
  · intro plain
    simp only [selectBlock]
    rw [if_neg (q.not_hasAggregate_iff.mpr plain)]

/-- Every item of a select shows a projected column or the primary key of the root table. -/
theorem Projects.mem_items {schema : SchemaLookup} {q : Query} {s : Sql.Select} {rules : Rules}
    (projects : q.Projects schema s rules) : ∃ key : Option String, ∀ i ∈ s.items,
      (∃ c ∈ q.columns, c.ShownAs i) ∨ ∃ name, key = some name ∧
        i = ⟨.column (some q.table.label) name, some rootIdColumn⟩ := by
  obtain ⟨shown, key, each, _, all⟩ := projects.items
  refine ⟨key, fun i member => ?_⟩
  rw [all] at member
  rcases List.mem_append.mp member with member | member
  · exact Or.inl (exists_of_mem_forall₂ each i member)
  · obtain ⟨name, given, rfl⟩ := Option.map_eq_some_iff.mp (Option.mem_toList.mp member)
    exact Or.inr ⟨name, given, rfl⟩

theorem Projects.selectItem_mem {schema : SchemaLookup} {q : Query} {s : Sql.Select} {rules : Rules}
    (projects : q.Projects schema s rules) {c : ColumnRef} (member : c ∈ q.columns) :
    c.selectItem ∈ s.items := by
  obtain ⟨shown, key, each, _, all⟩ := projects.items
  rw [all, ColumnRef.eq_of_shown each]
  exact List.mem_append_left _ (List.mem_map_of_mem member)

/-- What a select shows and its rules are determined by the query and the schema. -/
theorem Projects.unique {schema : SchemaLookup} {q : Query} {s t : Sql.Select} {rules more : Rules}
    (first : q.Projects schema s rules) (second : q.Projects schema t more) :
    t.items = s.items ∧ t.groupBy = s.groupBy ∧ more = rules := by
  refine ⟨?_, ?_, ?_⟩
  · obtain ⟨shown, key, each, root, all⟩ := first.items
    obtain ⟨shown', key', each', root', all'⟩ := second.items
    rw [all, all', ColumnRef.eq_of_shown each, ColumnRef.eq_of_shown each', root.unique root']
  · by_cases plain : ∀ c ∈ q.columns, c.func = none
    · rw [first.ungrouped plain, second.ungrouped plain]
    · push Not at plain
      obtain ⟨c, member, func⟩ := plain
      rw [first.grouped c member func, second.grouped c member func]
  · refine Rules.eq_of_mem_iff second.rising first.rising fun e => ?_
    exact (second.gathered e.1 e.2).trans (first.gathered e.1 e.2).symm

/-- A compiled select is the block of its query over the joins of the tree. -/
theorem exists_selectBlock {dialect : Sql.Dialect} {schema : SchemaLookup} {q : Query}
    {c : Compiled} (selects : q.operation = .select) (success : q.compile dialect schema = .ok c) :
    ∃ joins root, q.table.joins = .ok joins ∧ q.rootItems schema = .ok root ∧
      c.statement = .select (q.selectBlock joins root) ∧ c.rules = q.rules := by
  obtain ⟨statement, built, same⟩ := bind_eq_ok_iff.mp success
  cases same
  rw [Query.statement, selects] at built
  obtain ⟨s, compiled, same⟩ := bind_eq_ok_iff.mp built
  cases same
  obtain ⟨_, _, compiled⟩ := bind_eq_ok_iff.mp compiled
  obtain ⟨joins, joined, compiled⟩ := bind_eq_ok_iff.mp compiled
  obtain ⟨_, _, compiled⟩ := bind_eq_ok_iff.mp compiled
  obtain ⟨root, found, same⟩ := bind_eq_ok_iff.mp compiled
  cases same
  exact ⟨joins, root, joined, found, rfl, if_pos selects⟩

theorem exists_select {dialect : Sql.Dialect} {schema : SchemaLookup} {q : Query} {c : Compiled}
    (selects : q.operation = .select) (success : q.compile dialect schema = .ok c) :
    ∃ s, c.statement = .select s ∧ q.Projects schema s c.rules := by
  obtain ⟨joins, root, _, found, built, rules⟩ := exists_selectBlock selects success
  refine ⟨_, built, ?_⟩
  rw [rules]
  exact projects_selectBlock found

/-- A compiled select shows the projected columns in their order and then the primary key of the
root table, groups by the columns without an aggregate where another has one, and its rules give
under each key the output names of the columns that have it.  That leaves no choice. -/
theorem select_projects (dialect : Sql.Dialect) (schema : SchemaLookup) (q : Query) (c : Compiled)
    (selects : q.operation = .select) (success : q.compile dialect schema = .ok c) :
    ∃ s, c.statement = .select s ∧ q.Projects schema s c.rules ∧
      ∀ t rules, q.Projects schema t rules →
        t.items = s.items ∧ t.groupBy = s.groupBy ∧ rules = c.rules := by
  obtain ⟨s, built, projects⟩ := exists_select selects success
  exact ⟨s, built, projects, fun t rules other => projects.unique other⟩

/-- Columns of two tables under one key, around one that has none. -/
def orderList : Query where
  operation := .select
  table :=
    { key := ⟨"orders", 0⟩
      next := [{ key := ⟨"people", 1⟩, rule := some ⟨.left, [.of "buyer" "=" "id"]⟩ }] }
  columns :=
    [(ColumnRef.of ⟨"people", 1⟩ "name").withMetaKey "who", .of ⟨"orders", 0⟩ "amount",
      (ColumnRef.of ⟨"people", 1⟩ "city").withMetaKey "who"]

/-- Orders have a key of two columns, after another column. -/
def orderCatalog : Catalog :=
  [{ name := "orders"
     columns := [{ name := "amount" }, { name := "number", primaryKey := true },
       { name := "line", primaryKey := true }] }]

theorem orderList_compiles : ∃ c, orderList.compile .sqlite orderCatalog.table = .ok c ∧
    c.rules = [("", ["orders.amount"]), ("who", ["people_1.name", "people_1.city"])] := by
  have rules : orderList.rules =
      [("", ["orders.amount"]), ("who", ["people_1.name", "people_1.city"])] := by decide +kernel
  exact rules ▸ exists_compiled .sqlite orderCatalog.table orderList rfl (by decide) (by cbv)
    (by decide) rfl

/-- The first column of the stored key is shown, since no projected column is marked. -/
theorem select_projects_orderList : ∃ c s, orderList.compile .sqlite orderCatalog.table = .ok c ∧
    c.statement = .select s ∧ orderList.Projects orderCatalog.table s c.rules ∧
      c.rules = [("", ["orders.amount"]), ("who", ["people_1.name", "people_1.city"])] ∧
      s.groupBy = [] ∧ orderList.RootKey orderCatalog.table (some "number") := by
  obtain ⟨c, compiled, rules⟩ := orderList_compiles
  obtain ⟨s, built, projects, _⟩ :=
    select_projects .sqlite orderCatalog.table orderList c rfl compiled
  have plain : ∀ c ∈ orderList.columns, c.func = none := by decide
  have unmarked : ∀ c ∈ orderList.columns, ¬ orderList.MarksRootKey c := by
    unfold MarksRootKey
    decide
  have stored : orderCatalog.table "orders" = .ok (orderCatalog.headD ⟨"", []⟩) := by decide
  exact ⟨c, s, compiled, built, projects, rules, projects.ungrouped plain,
    rootKey_of_stored plain unmarked stored⟩

end Query

end QueryBoard
