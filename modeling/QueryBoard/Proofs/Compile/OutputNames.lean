import QueryBoard.Proofs.Compile.Projection

/-!
# When two columns have the same output name

The output name of a column puts its alias and its name together without quoting either, so a point
inside an alias or a name can be taken for the one between them, and an alias that starts with the
word of an aggregate for that aggregate.  These are the only ways in which the items of a select
come to share a name without being the same expression.
-/

set_option autoImplicit false

namespace QueryBoard

open Sql (SelectItem)

/-! ## Texts around a point -/

/-- Two ways to divide a list at an element are the same, or one lies behind the other. -/
theorem append_cons_eq_iff {α : Type} {s : α} {a b c d : List α} : a ++ s :: c = b ++ s :: d ↔
    a = b ∧ c = d ∨ (∃ x, b = a ++ s :: x ∧ c = x ++ s :: d) ∨
      ∃ x, a = b ++ s :: x ∧ d = x ++ s :: c := by
  constructor
  · intro same
    rcases List.append_eq_append_iff.mp same with ⟨gap, before, after⟩ | ⟨gap, before, after⟩
    · cases gap with
      | nil =>
          rw [List.nil_append, List.cons.injEq] at after
          exact Or.inl ⟨by simpa using before.symm, after.2⟩
      | cons _ x =>
          rw [List.cons_append, List.cons.injEq] at after
          obtain ⟨rfl, after⟩ := after
          exact Or.inr (Or.inl ⟨x, before, after⟩)
    · cases gap with
      | nil =>
          rw [List.nil_append, List.cons.injEq] at after
          exact Or.inl ⟨by simpa using before, after.2.symm⟩
      | cons _ x =>
          rw [List.cons_append, List.cons.injEq] at after
          obtain ⟨rfl, after⟩ := after
          exact Or.inr (Or.inr ⟨x, before, after⟩)
  · rintro (⟨rfl, rfl⟩ | ⟨x, rfl, rfl⟩ | ⟨x, rfl, rfl⟩) <;> simp

/-- Two ways to divide a text at a point are the same, or one lies behind the other. -/
theorem append_point_eq_iff {a b c d : String} : a ++ "." ++ c = b ++ "." ++ d ↔
    a = b ∧ c = d ∨ (∃ x, b = a ++ "." ++ x ∧ c = x ++ "." ++ d) ∨
      ∃ x, a = b ++ "." ++ x ∧ d = x ++ "." ++ c := by
  have divided (a x : String) : (a ++ "." ++ x).toList = a.toList ++ '.' :: x.toList := by simp
  have texts : Function.Surjective String.toList :=
    fun x => ⟨String.ofList x, String.toList_ofList⟩
  simp only [← String.toList_inj, divided]
  rw [append_cons_eq_iff, texts.exists, texts.exists]

namespace Aggregate

theorem name_injective {f g : Aggregate} (same : f.name = g.name) : f = g := by
  revert same
  cases f <;> cases g <;> decide

theorem space_not_mem_name (f : Aggregate) : ' ' ∉ f.name.toList := by
  cases f <;> decide

theorem point_not_mem_name (f : Aggregate) : '.' ∉ f.name.toList := by
  cases f <;> decide

/-- The word of an aggregate ends at the first space. -/
theorem append_space_eq_iff {f g : Aggregate} {a b : String} :
    f.name ++ " " ++ a = g.name ++ " " ++ b ↔ f = g ∧ a = b := by
  constructor
  · intro same
    have chars : f.name.toList ++ ' ' :: a.toList = g.name.toList ++ ' ' :: b.toList := by
      simpa using congrArg String.toList same
    rcases append_cons_eq_iff.mp chars with ⟨names, rest⟩ | ⟨x, name, _⟩ | ⟨x, name, _⟩
    · exact ⟨name_injective (String.toList_inj.mp names), String.toList_inj.mp rest⟩
    · exact absurd (by simp [name]) g.space_not_mem_name
    · exact absurd (by simp [name]) f.space_not_mem_name
  · rintro ⟨rfl, rfl⟩
    rfl

end Aggregate

namespace ColumnRef

variable {a b : ColumnRef}

/-- What stands before the point in the output name of a column. -/
def stem (c : ColumnRef) : String :=
  match c.func with
  | some f => f.name ++ " " ++ c.label
  | none => c.label

theorem outputName_eq (c : ColumnRef) : c.outputName = c.stem ++ "." ++ c.name := by
  unfold outputName stem
  cases c.func <;> rfl

/-- Whether the output name of one column can be taken for that of another: a point inside the alias
of the second is read as the one behind the alias, or the start of its alias as an aggregate. -/
inductive TakenFor (a b : ColumnRef) : Prop where
  | point {x : String} : b.stem = a.stem ++ "." ++ x → a.name = x ++ "." ++ b.name → TakenFor a b
  | word {f : Aggregate} : a.func = some f → b.func = none →
      b.label = f.name ++ " " ++ a.label → a.name = b.name → TakenFor a b

theorem projected_eq_iff :
    a.projected = b.projected ↔ a.label = b.label ∧ a.func = b.func ∧ a.name = b.name := by
  unfold projected qualified
  cases given : a.func with
  | none =>
      cases given' : b.func with
      | none => simp [Sql.Expr.tableCol]
      | some g => simp [Sql.Expr.tableCol]
  | some f =>
      cases given' : b.func with
      | none => simp [Sql.Expr.tableCol]
      | some g =>
          simp only [Sql.Expr.tableCol, Sql.Expr.call.injEq, List.cons.injEq, and_true,
            Sql.Expr.column.injEq, Option.some.injEq]
          constructor
          · rintro ⟨names, labels, same⟩
            exact ⟨labels, Aggregate.name_injective names, same⟩
          · rintro ⟨labels, rfl, same⟩
            exact ⟨rfl, labels, same⟩

theorem stem_eq_iff : a.stem = b.stem ↔ a.label = b.label ∧ a.func = b.func ∨
    (∃ f, a.func = some f ∧ b.func = none ∧ b.label = f.name ++ " " ++ a.label) ∨
      ∃ f, b.func = some f ∧ a.func = none ∧ a.label = f.name ++ " " ++ b.label := by
  unfold stem
  cases given : a.func with
  | none =>
      cases given' : b.func with
      | none => simp
      | some g => simp
  | some f =>
      cases given' : b.func with
      | none => simp [eq_comm]
      | some g =>
          rw [Aggregate.append_space_eq_iff]
          simp [and_comm]

/-- Two columns have the same output name if they are the same expression or can be taken for each
other, and in no other case. -/
theorem outputName_eq_iff : a.outputName = b.outputName ↔
    a.projected = b.projected ∨ a.TakenFor b ∨ b.TakenFor a := by
  rw [outputName_eq, outputName_eq, append_point_eq_iff, stem_eq_iff, projected_eq_iff]
  constructor
  · rintro (⟨⟨labels, funcs⟩ | ⟨f, func, plain, label⟩ | ⟨f, func, plain, label⟩, names⟩ |
      ⟨x, stem, name⟩ | ⟨x, stem, name⟩)
    · exact Or.inl ⟨labels, funcs, names⟩
    · exact Or.inr (Or.inl (TakenFor.word func plain label names))
    · exact Or.inr (Or.inr (TakenFor.word func plain label names.symm))
    · exact Or.inr (Or.inl (TakenFor.point stem name))
    · exact Or.inr (Or.inr (TakenFor.point stem name))
  · rintro (⟨labels, funcs, names⟩ | taken | taken)
    · exact Or.inl ⟨Or.inl ⟨labels, funcs⟩, names⟩
    · cases taken with
      | point stem name => exact Or.inr (Or.inl ⟨_, stem, name⟩)
      | word func plain label names =>
          exact Or.inl ⟨Or.inr (Or.inl ⟨_, func, plain, label⟩), names⟩
    · cases taken with
      | point stem name => exact Or.inr (Or.inr ⟨_, stem, name⟩)
      | word func plain label names =>
          exact Or.inl ⟨Or.inr (Or.inr ⟨_, func, plain, label⟩), names.symm⟩

/-- Whether nothing in the alias of a column can be taken for another part of an output name. -/
structure IsClear (c : ColumnRef) : Prop where
  noPoint : '.' ∉ c.label.toList
  noWord : c.func = none → ∀ f : Aggregate, ¬ (f.name ++ " ").toList <+: c.label.toList

theorem IsClear.point_not_mem_stem {c : ColumnRef} (clear : c.IsClear) : '.' ∉ c.stem.toList := by
  unfold stem
  cases c.func with
  | none => exact clear.noPoint
  | some f => simp [f.point_not_mem_name, clear.noPoint]

theorem IsClear.not_takenFor (clear : b.IsClear) : ¬ a.TakenFor b := by
  intro taken
  cases taken with
  | point stem _ => exact clear.point_not_mem_stem (by simp [stem])
  | @word f _ plain label _ => exact clear.noWord plain f ⟨a.label.toList, by simp [label]⟩

end ColumnRef

/-! ## The items of a select -/

namespace ColumnRef

variable {i j : SelectItem} {a b : ColumnRef}

theorem ShownAs.label_eq_iff (first : a.ShownAs i) (second : b.ShownAs j) :
    i.label = j.label ↔ i.expr = j.expr ∨ a.TakenFor b ∨ b.TakenFor a := by
  rw [first.eq_selectItem, second.eq_selectItem]
  simp only [selectItem, Option.some.injEq]
  exact outputName_eq_iff

theorem ShownAs.label_ne_rootIdColumn (shown : a.ShownAs i) : i.label ≠ some rootIdColumn := by
  rw [shown.eq_selectItem]
  exact fun same => a.outputName_ne_rootIdColumn (Option.some.inj same)

end ColumnRef

namespace Query

/-- Whether two items show columns that can be taken for each other. -/
def Ambiguous (q : Query) (i j : SelectItem) : Prop :=
  ∃ a ∈ q.columns, ∃ b ∈ q.columns, a.ShownAs i ∧ b.ShownAs j ∧ (a.TakenFor b ∨ b.TakenFor a)

theorem Projects.label_eq_iff {schema : SchemaLookup} {q : Query} {s : Sql.Select} {rules : Rules}
    (projects : q.Projects schema s rules) {i j : SelectItem} (first : i ∈ s.items)
    (second : j ∈ s.items) (different : i.expr ≠ j.expr) :
    i.label = j.label ↔ q.Ambiguous i j := by
  obtain ⟨key, each⟩ := projects.mem_items
  constructor
  · intro same
    rcases each i first with ⟨a, listed, shown⟩ | ⟨name, given, rfl⟩
    · rcases each j second with ⟨b, listed', shown'⟩ | ⟨_, _, rfl⟩
      · have taken := ((shown.label_eq_iff shown').mp same).resolve_left different
        exact ⟨a, listed, b, listed', shown, shown', taken⟩
      · exact absurd same shown.label_ne_rootIdColumn
    · rcases each j second with ⟨b, _, shown'⟩ | ⟨name', given', rfl⟩
      · exact absurd same.symm shown'.label_ne_rootIdColumn
      · obtain rfl := Option.some.inj (given.symm.trans given')
        exact absurd rfl different
  · rintro ⟨a, _, b, _, shown, shown', taken⟩
    exact (shown.label_eq_iff shown').mpr (Or.inr taken)

/-- The item for the primary key of the root table has its name for itself. -/
theorem Projects.eq_of_rootIdColumn {schema : SchemaLookup} {q : Query} {s : Sql.Select}
    {rules : Rules} (projects : q.Projects schema s rules) {i j : SelectItem} (first : i ∈ s.items)
    (second : j ∈ s.items) (root : i.label = some rootIdColumn) (same : i.label = j.label) :
    i = j := by
  obtain ⟨key, each⟩ := projects.mem_items
  rcases each i first with ⟨_, _, shown⟩ | ⟨name, given, rfl⟩
  · exact absurd root shown.label_ne_rootIdColumn
  · rcases each j second with ⟨_, _, shown⟩ | ⟨name', given', rfl⟩
    · exact absurd same.symm shown.label_ne_rootIdColumn
    · rw [Option.some.inj (given.symm.trans given')]

/-- The items of a compiled select that are different expressions share an output name exactly when
they show columns that can be taken for each other.  No two columns with clear aliases can, and no
column can be taken for the primary key of the root table. -/
theorem outputNames_shared (dialect : Sql.Dialect) (schema : SchemaLookup) (q : Query)
    (c : Compiled) (selects : q.operation = .select) (success : q.compile dialect schema = .ok c) :
    ∃ s, c.statement = .select s ∧
      (∀ i ∈ s.items, ∀ j ∈ s.items, i.expr ≠ j.expr → (i.label = j.label ↔ q.Ambiguous i j)) ∧
      (∀ i ∈ s.items, ∀ j ∈ s.items, i.label = some rootIdColumn → i.label = j.label → i = j) ∧
      ((∀ a ∈ q.columns, a.IsClear) →
        ∀ i ∈ s.items, ∀ j ∈ s.items, i.label = j.label → i.expr = j.expr) := by
  obtain ⟨s, built, projects⟩ := exists_select selects success
  refine ⟨s, built, fun i first j second => projects.label_eq_iff first second,
    fun i first j second => projects.eq_of_rootIdColumn first second, ?_⟩
  intro clear i first j second same
  by_contra different
  obtain ⟨a, listed, b, listed', _, _, taken | taken⟩ :=
    (projects.label_eq_iff first second different).mp same
  · exact (clear b listed').not_takenFor taken
  · exact (clear a listed).not_takenFor taken

/-- Aliases without a point, beside a name with one and an alias that starts with a word. -/
def clearNames : Query where
  operation := .select
  table :=
    { key := ⟨"a", 0⟩
      next := [{ key := ⟨"summary", 2⟩, rule := some ⟨.inner, [.of "x" "=" "y"]⟩ }] }
  columns :=
    [.of ⟨"a", 0⟩ "b.c", .of ⟨"summary", 2⟩ "c", (ColumnRef.of ⟨"a", 0⟩ "b.c").withFunc .sum,
      .of ⟨"a", 0⟩ "b.c"]

theorem outputNames_shared_clearNames : ∃ c s,
    clearNames.compile .sqlite (Catalog.table []) = .ok c ∧ c.statement = .select s ∧
      (∀ a ∈ clearNames.columns, a.IsClear) ∧
      ∀ i ∈ s.items, ∀ j ∈ s.items, i.label = j.label → i.expr = j.expr := by
  have clear : ∀ a ∈ clearNames.columns, a.IsClear := by
    have noPoint : ∀ a ∈ clearNames.columns, '.' ∉ a.label.toList := by decide
    have noWord : ∀ a ∈ clearNames.columns, ∀ f ∈ Aggregate.all,
        ¬ (f.name ++ " ").toList <+: a.label.toList := by decide
    exact fun a member =>
      ⟨noPoint a member, fun _ f => noWord a member f (by cases f <;> decide)⟩
  obtain ⟨c, compiled, _⟩ := exists_compiled .sqlite (Catalog.table []) clearNames rfl (by decide)
    (by cbv) (by decide) rfl
  obtain ⟨s, built, _, _, apart⟩ :=
    outputNames_shared .sqlite (Catalog.table []) clearNames c rfl compiled
  exact ⟨c, s, compiled, built, clear, apart clear⟩

/-- A column whose name has a point, and one of a table whose alias has it instead. -/
def pointedNames : Query where
  operation := .select
  table :=
    { key := ⟨"a", 0⟩
      next := [{ key := ⟨"a.b", 0⟩, rule := some ⟨.inner, [.of "x" "=" "y"]⟩ }] }
  columns := [.of ⟨"a", 0⟩ "b.c", .of ⟨"a.b", 0⟩ "c"]

/-- The root table alone, without a key. -/
def pointedCatalog : Catalog := [{ name := "a", columns := [{ name := "b.c" }] }]

/-- Columns of two tables are shown under one name. -/
theorem pointedNames_share : ∃ c s, pointedNames.compile .sqlite pointedCatalog.table = .ok c ∧
    c.statement = .select s ∧
      ∃ i ∈ s.items, ∃ j ∈ s.items, i.expr ≠ j.expr ∧ i.label = j.label := by
  obtain ⟨c, compiled, _⟩ := exists_compiled .sqlite pointedCatalog.table pointedNames rfl
    (by decide) (by cbv) (by decide) rfl
  obtain ⟨s, built, projects⟩ := exists_select rfl compiled
  have first : ColumnRef.of ⟨"a", 0⟩ "b.c" ∈ pointedNames.columns := by simp [pointedNames]
  have second : ColumnRef.of ⟨"a.b", 0⟩ "c" ∈ pointedNames.columns := by simp [pointedNames]
  refine ⟨c, s, compiled, built, _, projects.selectItem_mem first, _,
    projects.selectItem_mem second, ?_, ?_⟩
  · intro same
    have labels := (ColumnRef.projected_eq_iff (a := .of ⟨"a", 0⟩ "b.c")
      (b := .of ⟨"a.b", 0⟩ "c")).mp same
    exact absurd labels.1 (by decide)
  · decide

end Query

end QueryBoard
