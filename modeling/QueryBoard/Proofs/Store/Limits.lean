import QueryBoard.Proofs.Db.Plan
import QueryBoard.Proofs.Sql.Values
import QueryBoard.Proofs.Store.Editing

/-!
# Within the limits of the database

An edit removes the stale children of a widget by one statement.  It binds the widget and each child
that stays, so a widget cannot list more children than a database takes parameters less one; and the
widgets that go with a stale child must not lie too deep in it.

How deep the rows are that go is counted along the removal, which takes one level after the other.
Behind that count stands a chain of widgets, each the child of the one before, so a bound on such
chains is all that the removal needs.
-/

set_option autoImplicit false

namespace QueryBoard.Store

open Relation (TransGen)
open Sql (Expr)

variable {s s' : Store} {drops drops' : String → String → Prop}

/-! ## Parameters -/

section

variable {parent : String} {kept : List String}

theorem params_staleDelete (parent : String) (kept : List String) :
    (staleDelete parent kept).tokens.params = .str parent :: kept.map .str := by
  have ids : (kept.map idParam).flatMap Expr.params = kept.map .str := by
    rw [List.flatMap_map]
    simp only [idParam, Expr.params_param]
    exact List.flatMap_pure_eq_map ..
  rw [Sql.Delete.params_tokens, staleDelete, List.flatMap_singleton, isId, Expr.and, Expr.eq,
    Expr.params_binary, Expr.params_binary, Expr.col, Expr.col, Expr.params_column,
    Expr.params_member (Expr.params_column none "id"), ids, idParam, Expr.params_param]
  rfl

theorem checkParamCount_staleDelete : Db.checkParamCount (staleDelete parent kept).tokens = .ok () ↔
    kept.length < Db.Limit.parameters.most := by
  rw [Db.checkParamCount_eq_ok_iff, params_staleDelete, List.length_cons, List.length_map]
  exact Nat.succ_le_iff

/-- Where a widget keeps more children than a statement can name, none is removed. -/
theorem outcome_removeStale_crowded (s : Store) (parent : String)
    (crowded : Db.Limit.parameters.most ≤ kept.length) :
    ∃ offset, outcome (removeStale parent kept) s =
      (.error (.query (.limit .parameters offset) ((staleDelete parent kept).tokens.text .sqlite)),
        s) := by
  refine ⟨_, outcome_removeStale_refused (if_neg ?_)⟩
  rw [params_staleDelete, List.length_cons, List.length_map]
  omega

end

/-! ## Levels -/

/-- Whether of some ids each but the first is that of a row with the one before as parent. -/
def Chain (rows : List StoredWidget) (ids : List String) : Prop :=
  ids.IsChain fun p i => (i, some p) ∈ parentLinks rows

namespace Chain

variable {rows rows' : List StoredWidget} {top i : String} {ids : List String}

theorem cons_cons : Chain rows (top :: i :: ids) ↔
    (i, some top) ∈ parentLinks rows ∧ Chain rows (i :: ids) :=
  List.isChain_cons_cons

theorem mono (chain : Chain rows ids) (part : rows ⊆ rows') : Chain rows' ids := by
  refine chain.imp fun p i link => ?_
  obtain ⟨r, member, is, given⟩ := mem_parentLinks.mp link
  exact mem_parentLinks.mpr ⟨r, part member, is, given⟩

theorem exists_above (chain : Chain rows (top :: ids)) (member : i ∈ ids) :
    ∃ p ∈ top :: ids, (i, some p) ∈ parentLinks rows := by
  induction ids generalizing top with
  | nil => cases member
  | cons j ids ih =>
      obtain ⟨link, rest⟩ := cons_cons.mp chain
      rcases List.mem_cons.mp member with rfl | member
      · exact ⟨top, List.mem_cons_self, link⟩
      · obtain ⟨p, above, link⟩ := ih rest member
        exact ⟨p, List.mem_cons_of_mem top above, link⟩

/-- A chain is one of fewer rows if its own rows are among them. -/
theorem of_left (chain : Chain rows (top :: ids))
    (left : ∀ r ∈ rows, r.id ∈ ids → r ∈ rows') : Chain rows' (top :: ids) := by
  induction ids generalizing top with
  | nil => exact List.isChain_singleton top
  | cons i ids ih =>
      obtain ⟨link, rest⟩ := cons_cons.mp chain
      obtain ⟨r, member, rfl, given⟩ := mem_parentLinks.mp link
      refine cons_cons.mpr ⟨mem_parentLinks.mpr ⟨r, left r member List.mem_cons_self, rfl, given⟩, ?_⟩
      exact ih rest fun x inside listed => left x inside (List.mem_cons_of_mem r.id listed)

theorem pairwise_under (chain : Chain s.widgets ids) : ids.Pairwise fun p i => s.Under i p := by
  have compose : Trans (fun p i => s.Under i p) (fun p i => s.Under i p) fun p i => s.Under i p :=
    ⟨fun first second => second.trans first⟩
  exact List.IsChain.pairwise (chain.imp fun _ _ link => TransGen.single link)

/-- No widget comes twice on the way down. -/
theorem length_le (wellFormed : WellFormed s) (chain : Chain s.widgets (top :: ids)) :
    ids.length ≤ s.widgets.length := by
  have distinct : ids.Nodup := by
    refine List.nodup_iff_pairwise_ne.mpr ((List.pairwise_cons.mp chain.pairwise_under).2.imp ?_)
    rintro i _ under rfl
    exact wellFormed.not_under_self i under
  have stored : ids ⊆ s.widgetIds := by
    intro i member
    obtain ⟨_, _, link⟩ := chain.exists_above member
    obtain ⟨r, inside, rfl, _⟩ := mem_parentLinks.mp link
    exact List.mem_map_of_mem inside
  have few := (distinct.subperm stored).length_le
  rwa [widgetIds, rowIds, List.length_map] at few

end Chain

/-- The last level of a removal is the end of a chain that begins with what is removed first. -/
theorem exists_chain_of_sweepDepth (gone : List String) (rows : List StoredWidget)
    (some : gone ≠ []) : ∃ g ∈ gone, ∃ ids, ids.length = sweepDepth gone rows ∧
      Chain rows (g :: ids) := by
  fun_induction sweepDepth gone rows with
  | case1 gone =>
      obtain ⟨g, first⟩ := List.exists_mem_of_ne_nil gone some
      exact ⟨g, first, [], rfl, List.isChain_singleton g⟩
  | case2 gone rows split below ih =>
      have next : split.1.map (·.id) ≠ [] := by simpa [List.isEmpty_iff] using below
      obtain ⟨i, second, ids, length, chain⟩ := ih next
      obtain ⟨r, inside, rfl⟩ := List.mem_map.mp second
      obtain ⟨stored, under⟩ := mem_partition_fst.mp inside
      obtain ⟨g, given, first⟩ := isBelow_iff.mp under
      refine ⟨g, first, r.id :: ids, by rw [List.length_cons, length], Chain.cons_cons.mpr ⟨?_, ?_⟩⟩
      · exact mem_parentLinks.mpr ⟨r, stored, rfl, given⟩
      · exact chain.mono fun x left => (mem_partition_snd.mp left).1

/-- A chain of rows that are there at first takes as many levels as it has rows. -/
theorem length_le_sweepDepth (gone : List String) (rows : List StoredWidget)
    (distinct : (rowIds rows).Nodup) (apart : ∀ r ∈ rows, r.id ∉ gone) {g : String}
    {ids : List String} (first : g ∈ gone) (chain : Chain rows (g :: ids)) :
    ids.length ≤ sweepDepth gone rows := by
  fun_induction sweepDepth gone rows generalizing g ids with
  | case1 gone rows split =>
      have none : split.1.isEmpty = true := by assumption
      cases ids with
      | nil => exact Nat.zero_le _
      | cons i ids =>
          obtain ⟨r, stored, _, given⟩ := mem_parentLinks.mp (Chain.cons_cons.mp chain).1
          have below : r ∈ split.1 :=
            mem_partition_fst.mpr ⟨stored, isBelow_iff.mpr ⟨g, given, first⟩⟩
          rw [List.isEmpty_iff.mp none] at below
          cases below
  | case2 gone rows split _ ih =>
      cases ids with
      | nil => exact Nat.zero_le _
      | cons i ids =>
          obtain ⟨link, rest⟩ := Chain.cons_cons.mp chain
          obtain ⟨r, stored, rfl, given⟩ := mem_parentLinks.mp link
          have second : r ∈ split.1 :=
            mem_partition_fst.mpr ⟨stored, isBelow_iff.mpr ⟨g, given, first⟩⟩
          have unique := List.inj_on_of_nodup_map distinct
          -- Below the first level no row names one that is gone, so none of them goes with it.
          have left : Chain split.2 (r.id :: ids) := by
            refine rest.of_left fun x member listed => mem_partition_snd.mpr ⟨member, ?_⟩
            obtain ⟨p, above, up⟩ := rest.exists_above listed
            obtain ⟨y, inside, same, up⟩ := mem_parentLinks.mp up
            cases unique inside member same
            have outside : p ∉ gone := by
              rcases List.mem_cons.mp above with rfl | above
              · exact apart r stored
              · obtain ⟨_, _, link⟩ := rest.exists_above above
                obtain ⟨z, present, rfl, _⟩ := mem_parentLinks.mp link
                exact apart z present
            rw [Bool.eq_false_iff]
            intro below
            obtain ⟨q, named, went⟩ := isBelow_iff.mp below
            exact outside (Option.some.inj (up.symm.trans named) ▸ went)
          have once : (rowIds split.1 ++ rowIds split.2).Nodup := by
            rw [rowIds, rowIds, ← List.map_append]
            exact ((perm_partition (isBelow gone) rows).map _).nodup_iff.mpr distinct
          obtain ⟨_, distinct', others⟩ := List.nodup_append.mp once
          rw [List.length_cons]
          exact Nat.succ_le_succ (ih distinct' (fun x inside went =>
            others x.id went x.id (List.mem_map_of_mem inside) rfl) (List.mem_map_of_mem second) left)

theorem sweepDepth_nil (rows : List StoredWidget) : sweepDepth [] rows = 0 := by
  have none : (rows.partition (isBelow [])).1 = [] := by
    rw [List.partition_eq_filter_filter, List.filter_eq_nil_iff]
    rintro r _ below
    obtain ⟨_, _, gone⟩ := isBelow_iff.mp below
    exact absurd gone List.not_mem_nil
  rw [sweepDepth, none]
  rfl

theorem dropWidgets_eq_ok_iff {picked : StoredWidget → Bool} :
    s.dropWidgets picked = .ok (s.removeWidgets picked) ↔
      sweepDepth ((s.widgets.filter picked).map (·.id)) (s.widgets.filter fun r => !picked r) <
        Db.Limit.cascade.most := by
  dsimp only [dropWidgets]
  rw [bind_eq_ok_iff, ← Nat.succ_le_iff, ← Db.check_eq_ok_iff]
  constructor
  · rintro ⟨_, few, _⟩
    exact few
  · exact fun few => ⟨(), few, rfl⟩

/-! ## Stale children -/

/-- Whether the widgets that go with a dropped child lie in it on as many levels as a removal goes
through, at the most. -/
def Shallow (s : Store) (drops : String → String → Prop) : Prop :=
  ∀ v y ids, drops v y → Chain s.widgets (v :: y :: ids) →
    (y :: ids).length ≤ Db.Limit.cascade.most

theorem Shallow.mono (shallow : s.Shallow drops)
    (part : ∀ v, ∀ y ∈ s.widgetIds, drops' v y → drops v y) : s.Shallow drops' := by
  intro v y ids drop chain
  obtain ⟨r, stored, rfl, _⟩ := mem_parentLinks.mp (Chain.cons_cons.mp chain).1
  exact shallow v r.id ids (part v r.id (List.mem_map_of_mem stored) drop) chain

theorem shallow_of_few (wellFormed : WellFormed s)
    (few : s.widgets.length ≤ Db.Limit.cascade.most) : s.Shallow drops :=
  fun _ _ _ _ chain => Nat.le_trans (chain.length_le wellFormed) few

theorem isStale_iff {parent : String} {kept : List String} {r : StoredWidget} :
    (r.parent == some parent && !kept.contains r.id) = true ↔
      r.parent = some parent ∧ r.id ∉ kept := by
  simp

section

variable {parent : String} {kept : List String}

/-- Stale children can be removed if the widgets that go with them do not lie too deep in them. -/
theorem dropWidgets_stale_iff (wellFormed : WellFormed s) :
    s.dropWidgets (fun r => r.parent == some parent && !kept.contains r.id) =
        .ok (s.removeWidgets fun r => r.parent == some parent && !kept.contains r.id) ↔
      s.Shallow fun v y => v = parent ∧ y ∉ kept := by
  rw [dropWidgets_eq_ok_iff]
  constructor
  · rintro few v y ids ⟨rfl, absent⟩ chain
    obtain ⟨link, rest⟩ := Chain.cons_cons.mp chain
    obtain ⟨r, stored, rfl, given⟩ := mem_parentLinks.mp link
    have first : r ∈ s.widgets.filter fun r => r.parent == some v && !kept.contains r.id :=
      List.mem_filter.mpr ⟨stored, isStale_iff.mpr ⟨given, absent⟩⟩
    have below := (List.pairwise_cons.mp chain.pairwise_under).1
    -- What goes with a child has another parent than the child itself.
    have left : Chain (s.widgets.filter fun r => !(r.parent == some v && !kept.contains r.id))
        (r.id :: ids) := by
      refine rest.of_left fun x member listed => List.mem_filter.mpr ⟨member, ?_⟩
      obtain ⟨p, above, link⟩ := rest.exists_above listed
      obtain ⟨y, inside, same, up⟩ := mem_parentLinks.mp link
      cases wellFormed.row_unique inside member same
      rw [Bool.not_eq_true', Bool.eq_false_iff, Ne, isStale_iff]
      rintro ⟨top, _⟩
      cases Option.some.inj (up.symm.trans top)
      exact wellFormed.not_under_self v (below v above)
    refine Nat.lt_of_le_of_lt (length_le_sweepDepth _ _
      (wellFormed.widgets.sublist (List.filter_sublist.map _)) ?_ (List.mem_map_of_mem first) left) few
    intro x inside gone
    obtain ⟨member, kept'⟩ := List.mem_filter.mp inside
    obtain ⟨y, stale, same⟩ := List.mem_map.mp gone
    obtain ⟨member', stale⟩ := List.mem_filter.mp stale
    cases wellFormed.row_unique member' member same
    rw [stale] at kept'
    cases kept'
  · intro shallow
    by_cases none : (s.widgets.filter fun r =>
        r.parent == some parent && !kept.contains r.id).map (·.id) = []
    · rw [none, sweepDepth_nil]
      decide
    · obtain ⟨g, first, ids, length, chain⟩ := exists_chain_of_sweepDepth _
        (s.widgets.filter fun r => !(r.parent == some parent && !kept.contains r.id)) none
      obtain ⟨r, inside, rfl⟩ := List.mem_map.mp first
      obtain ⟨stored, stale⟩ := List.mem_filter.mp inside
      obtain ⟨given, absent⟩ := isStale_iff.mp stale
      rw [← length]
      refine shallow parent r.id ids ⟨rfl, absent⟩ (Chain.cons_cons.mpr ⟨?_, ?_⟩)
      · exact mem_parentLinks.mpr ⟨r, stored, rfl, given⟩
      · exact chain.mono fun x left => (List.mem_filter.mp left).1

/-- Stale children go if the database takes the statement, and not else. -/
theorem outcome_removeStale_iff (wellFormed : WellFormed s) :
    outcome (removeStale parent kept) s =
        (.ok (), s.removeWidgets fun r => r.parent == some parent && !kept.contains r.id) ↔
      kept.length < Db.Limit.parameters.most ∧ s.Shallow fun v y => v = parent ∧ y ∉ kept := by
  by_cases few : kept.length < Db.Limit.parameters.most
  · rw [outcome_removeStale_taken (checkParamCount_staleDelete.mpr few), outcome_attempt_ok,
      dropWidgets_stale_iff wellFormed, and_iff_right few]
  · obtain ⟨offset, refused⟩ := outcome_removeStale_crowded s parent (Nat.not_lt.mp few)
    rw [refused]
    simp [few]

end

/-- Whether the database takes what is asked of it for some edited widgets: to name the children that
stay of each, and to remove those that are missing there with all that is below them. -/
structure WithinLimits (s : Store) (ws : List Widget) : Prop where
  listed : ∀ u ∈ ws, u.children.length < Db.Limit.parameters.most
  dropped : s.Shallow (Missing ws)

theorem WithinLimits.mono {ws ws' : List Widget} (limits : WithinLimits s ws) (part : ws' ⊆ ws) :
    WithinLimits s ws' := by
  refine ⟨fun u member => limits.listed u (part member), limits.dropped.mono ?_⟩
  rintro v y _ ⟨u, member, same, absent⟩
  exact ⟨u, part member, same, absent⟩

/-- Whether one of some widgets has more children than a statement can name. -/
def Crowded (ws : List Widget) : Prop :=
  ∃ u ∈ ws, Db.Limit.parameters.most ≤ u.children.length

instance (ws : List Widget) : Decidable (Crowded ws) :=
  inferInstanceAs (Decidable (∃ u ∈ ws, Db.Limit.parameters.most ≤ u.children.length))

theorem crowded_append {ws ws' : List Widget} : Crowded (ws ++ ws') ↔ Crowded ws ∨ Crowded ws' := by
  simp only [Crowded, List.mem_append, or_and_right, exists_or]

theorem crowded_cons {w : Widget} {ws : List Widget} : Crowded (w :: ws) ↔
    Db.Limit.parameters.most ≤ w.children.length ∨ Crowded ws := by
  simp only [Crowded, List.mem_cons, exists_eq_or_imp]

/-- A widget with so many bare ones in it. -/
def wideWidget (id : String) (n : Nat) : Widget :=
  { id, name := "", kind := "", children := List.replicate n { name := "", kind := "" } }

/-- So many widgets one in the other, below one more. -/
def deepWidget : Nat → Widget
  | 0 => { name := "", kind := "" }
  | n + 1 => { name := "", kind := "", children := [deepWidget n] }

theorem nodes_wideWidget (id : String) (n : Nat) :
    (wideWidget id n).nodes = wideWidget id n :: List.replicate n { name := "", kind := "" } := by
  have all : ∀ n, Widget.nodesList (List.replicate n { name := "", kind := "" }) =
      List.replicate n { name := "", kind := "" } := by
    intro n
    induction n with
    | zero => rfl
    | succ n ih => rw [List.replicate_succ, Widget.nodesList, ih]; rfl
  rw [wideWidget, Widget.nodes, all]

theorem documents_wideWidget (id : String) (n : Nat) : (wideWidget id n).documents = [] := by
  have all : ∀ n, Widget.documentsList (List.replicate n { name := "", kind := "" }) = [] := by
    intro n
    induction n with
    | zero => rfl
    | succ n ih => rw [List.replicate_succ, Widget.documentsList, ih]; rfl
  rw [wideWidget, Widget.documents, all]
  rfl

theorem chain_deepWidget (supply : Nat → String) (n k : Nat) (parent : Option String) :
    Chain ((((deepWidget n).renew supply k).rows parent).map WidgetRow.stored)
      ((List.range' k (n + 1)).map supply) := by
  induction n generalizing k parent with
  | zero => exact List.isChain_singleton _
  | succ n ih =>
      have rows : ((deepWidget (n + 1)).renew supply k).rows parent =
          ⟨supply k, "", "", none, none, parent⟩ ::
            ((deepWidget n).renew supply (k + 1)).rows (some (supply k)) := by
        rw [deepWidget, Widget.renew, Widget.rows, Widget.renewList, Widget.renewList,
          Widget.rowsList, Widget.rowsList, List.append_nil]
      have top : (⟨supply (k + 1), "", "", none, none, some (supply k)⟩ : WidgetRow) ∈
          ((deepWidget n).renew supply (k + 1)).rows (some (supply k)) := by
        cases n <;> exact List.mem_cons_self
      rw [rows, List.map_cons, List.range'_succ, List.range'_succ, List.map_cons, List.map_cons]
      refine Chain.cons_cons.mpr ⟨?_, ?_⟩
      · exact mem_parentLinks.mpr
          ⟨_, List.mem_cons_of_mem _ (List.mem_map_of_mem top), rfl, rfl⟩
      · have below := ih (k + 1) (some (supply k))
        rw [List.range'_succ, List.map_cons] at below
        exact below.mono (List.subset_cons_self _ _)

end QueryBoard.Store
