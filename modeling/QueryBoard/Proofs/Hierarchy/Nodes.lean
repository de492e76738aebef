import QueryBoard.Hierarchy.Arena
import QueryBoard.Proofs.Fallible

/-!
# Which nodes are collected, and when they can be linked

Of the nodes inserted with an id the first one counts.  Linking fails with the first node that
names a parent without a node.
-/

set_option autoImplicit false

namespace QueryBoard.Hierarchy

variable {α : Type}

/-- The first node of every id. -/
def firsts (rows : List (Node α)) : List (Node α) := rows.eraseDupsBy fun a b => a.id == b.id

def links (nodes : List (Node α)) : List (String × Option String) :=
  nodes.map fun n => (n.id, n.parent)

/-- Whether going from parent to parent leads from an id to one that has no parent. -/
inductive Grounded (links : List (String × Option String)) : String → Prop where
  | root {id : String} : (id, none) ∈ links → Grounded links id
  | under {id parent : String} :
      (id, some parent) ∈ links → Grounded links parent → Grounded links id

theorem mem_links {nodes : List (Node α)} {id : String} {parent : Option String} :
    (id, parent) ∈ links nodes ↔ ∃ n ∈ nodes, n.id = id ∧ n.parent = parent := by
  simp [links]

namespace Nodes

/-! ## Collecting -/

theorem insert_of_contains {ns : Nodes α} {n : Node α} (known : ns.contains n.id = true) :
    ns.insert n = ns := by
  rw [insert, insertNew?, dif_pos known]
  rfl

theorem items_insert_of_new {ns : Nodes α} {n : Node α} (new : ¬ ns.contains n.id = true) :
    (ns.insert n).items = ns.items.push n := by
  rw [insert, insertNew?, dif_neg new]
  rfl

theorem mem_ids_insert {ns : Nodes α} {n : Node α} {id : String} :
    id ∈ (ns.insert n).ids ↔ id ∈ ns.ids ∨ id = n.id := by
  by_cases known : ns.contains n.id = true
  · rw [insert_of_contains known]
    constructor
    · exact Or.inl
    · rintro (member | rfl)
      · exact member
      · exact contains_iff.mp known
  · rw [ids, items_insert_of_new known]
    simp [ids]

/-- What is added behind known nodes is the first node of every new id. -/
theorem toList_foldl_insert (rows : List (Node α)) (ns : Nodes α) :
    (rows.foldl insert ns).items.toList =
      ns.items.toList ++ firsts (rows.filter fun r => !ns.contains r.id) := by
  induction rows generalizing ns with
  | nil => simp [firsts]
  | cons r rest ih =>
      rw [List.foldl_cons, ih]
      by_cases known : ns.contains r.id = true
      · rw [insert_of_contains known, List.filter_cons_of_neg (by simp [known])]
      · have later : (rest.filter fun b => !(ns.insert r).contains b.id) =
            (rest.filter fun b => !ns.contains b.id).filter fun b => (b.id == r.id) = false := by
          rw [List.filter_filter]
          apply List.filter_congr
          intro b _
          rw [Bool.eq_iff_iff]
          simp only [Bool.not_eq_true', ← Bool.not_eq_true, contains_iff, mem_ids_insert, not_or,
            Bool.and_eq_true, decide_eq_true_eq, beq_iff_eq]
          exact and_comm
        have first (rows : List (Node α)) : firsts (r :: rows) =
            r :: firsts (rows.filter fun b => (b.id == r.id) = false) := List.eraseDupsBy_cons
        rw [List.filter_cons_of_pos (by simp [known]), first, items_insert_of_new known,
          Array.toList_push, List.append_assoc, later]
        rfl

theorem toList_ofList (rows : List (Node α)) : (ofList rows).items.toList = firsts rows := by
  rw [ofList, toList_foldl_insert]
  simp [empty, contains]

theorem mem_ids_ofList {rows : List (Node α)} {id : String} :
    id ∈ (ofList rows).ids ↔ id ∈ rows.map Node.id := by
  have general : ∀ (rows : List (Node α)) (ns : Nodes α),
      id ∈ (rows.foldl insert ns).ids ↔ id ∈ ns.ids ∨ id ∈ rows.map Node.id := by
    intro rows
    induction rows with
    | nil => intro ns; simp
    | cons r rest ih =>
        intro ns
        rw [List.foldl_cons, ih, mem_ids_insert, or_assoc, List.map_cons, List.mem_cons]
  rw [ofList, general]
  simp [empty, ids]

end Nodes

theorem nodup_ids_firsts (rows : List (Node α)) : ((firsts rows).map Node.id).Nodup := by
  rw [← Nodes.toList_ofList]
  exact (Nodes.ofList rows).distinct

theorem mem_ids_firsts {rows : List (Node α)} {id : String} :
    id ∈ (firsts rows).map Node.id ↔ id ∈ rows.map Node.id := by
  rw [← Nodes.toList_ofList]
  exact Nodes.mem_ids_ofList

theorem mem_of_mem_firsts {rows : List (Node α)} {n : Node α} (member : n ∈ firsts rows) :
    n ∈ rows := by
  have general : ∀ (rows : List (Node α)) (ns : Nodes α),
      n ∈ (rows.foldl Nodes.insert ns).items.toList → n ∈ ns.items.toList ∨ n ∈ rows := by
    intro rows
    induction rows with
    | nil => intro ns inside; exact Or.inl inside
    | cons r rest ih =>
        intro ns inside
        rcases ih (ns.insert r) inside with inside | later
        · by_cases known : ns.contains r.id = true
          · rw [Nodes.insert_of_contains known] at inside
            exact Or.inl inside
          · rw [Nodes.items_insert_of_new known, Array.toList_push, List.mem_append,
              List.mem_singleton] at inside
            rcases inside with inside | same
            · exact Or.inl inside
            · exact Or.inr (by simp [same])
        · exact Or.inr (by simp [later])
  rw [← Nodes.toList_ofList] at member
  exact (general rows Nodes.empty member).resolve_left (by simp [Nodes.empty])

theorem firsts_eq_self {rows : List (Node α)} (distinct : (rows.map Node.id).Nodup) :
    firsts rows = rows := by
  induction rows with
  | nil => rfl
  | cons r rest ih =>
      obtain ⟨apart, distinct⟩ := List.nodup_cons.mp distinct
      have kept : (rest.filter fun b => (b.id == r.id) = false) = rest := by
        rw [List.filter_eq_self]
        intro b member
        have different : b.id ≠ r.id := fun same => apart (same ▸ List.mem_map_of_mem member)
        simp [different]
      rw [firsts, List.eraseDupsBy_cons, kept]
      exact congrArg (r :: ·) (ih distinct)

theorem Nodes.ofList_firsts (rows : List (Node α)) : ofList (firsts rows) = ofList rows := by
  have items : (ofList (firsts rows)).items = (ofList rows).items := by
    apply Array.toList_inj.mp
    rw [toList_ofList, toList_ofList, firsts_eq_self (nodup_ids_firsts rows)]
  cases first : ofList (firsts rows)
  cases all : ofList rows
  rw [first, all] at items
  cases items
  rfl

/-! ## Linking -/

/-- A node that names a parent without a node. -/
def DanglingIn (ids : List String) (n : Node α) (e : TreeError) : Prop :=
  ∃ parent, n.parent = some parent ∧ parent ∉ ids ∧ e = .danglingParent n.id parent

theorem none_danglingIn_iff {ids : List String} {n : Node α} :
    (∀ e, ¬ DanglingIn ids n e) ↔ ∀ parent, n.parent = some parent → parent ∈ ids := by
  constructor
  · intro clean parent given
    by_contra missing
    exact clean _ ⟨parent, given, missing, rfl⟩
  · rintro known e ⟨parent, given, missing, _⟩
    exact missing (known parent given)

/-- An arena with the links that nodes describe, and with all their values. -/
structure Linked (ns : Nodes α) (a : Arena α ns.size) : Prop where
  ids : ∀ i : Fin ns.size, a.links.idOf i = (ns.node i).id
  children : ∀ i : Fin ns.size, a.links.below i = ns.childrenOf (ns.node i).id
  roots : a.links.roots = ns.rootList
  values : ∀ i : Fin ns.size, a.values.at? i = some (ns.node i).value

namespace Nodes

theorem linked_of_link {ns : Nodes α} {a : Arena α ns.size} (success : ns.link = .ok a) :
    Linked ns a := by
  unfold link at success
  split at success
  · cases success
  · cases success
    constructor <;> simp [Links.idOf, Links.below, Values.at?]

theorem findDangling_eq_some_iff {ns : Nodes α} {n : Node α} {p : String × String} :
    (match n.parent with
      | some parent => if ns.contains parent then none else some (n.id, parent)
      | none => none) = some p ↔ DanglingIn ns.ids n (.danglingParent p.1 p.2) := by
  cases given : n.parent with
  | none => simp [DanglingIn, given]
  | some parent =>
      by_cases known : ns.contains parent = true
      · simp [DanglingIn, given, known, ← contains_iff]
      · obtain ⟨id, parent'⟩ := p
        simp only [known, Bool.false_eq_true, if_false, DanglingIn, given, Option.some.injEq,
          Prod.mk.injEq, TreeError.danglingParent.injEq, ← contains_iff]
        constructor
        · rintro ⟨rfl, rfl⟩
          exact ⟨parent, rfl, known, rfl, rfl⟩
        · rintro ⟨parent, rfl, _, rfl, rfl⟩
          exact ⟨rfl, rfl⟩

theorem not_danglingIn_iff {ns : Nodes α} {n : Node α} :
    (∀ e, ¬ DanglingIn ns.ids n e) ↔
      (match n.parent with
        | some parent => if ns.contains parent then none else some (n.id, parent)
        | none => none) = none := by
  rw [Option.eq_none_iff_forall_ne_some]
  constructor
  · intro clean p found
    exact clean _ (findDangling_eq_some_iff.mp found)
  · rintro absent e ⟨parent, given, missing, same⟩
    exact absent (n.id, parent) (findDangling_eq_some_iff.mpr ⟨parent, given, missing, rfl⟩)

/-- Linking fails with the first node whose parent is missing. -/
theorem link_fails (ns : Nodes α) :
    FailsWith ns.link (First (DanglingIn ns.ids) ns.items.toList) := by
  unfold link
  cases found : ns.dangling? with
  | some p =>
      obtain ⟨before, n, after, split, fault, clean⟩ := List.findSome?_eq_some_iff.mp found
      have first : First (DanglingIn ns.ids) ns.items.toList (.danglingParent p.1 p.2) :=
        ⟨before, n, after, split, fun b member => not_danglingIn_iff.mpr (clean b member),
          findDangling_eq_some_iff.mp fault⟩
      refine FailsWith.error_of first fun e other => First.unique ?_ other first
      rintro b e e' ⟨parent, given, _, rfl⟩ ⟨parent', given', _, rfl⟩
      rw [given] at given'
      cases given'
      rfl
  | none =>
      have clean := List.findSome?_eq_none_iff.mp found
      refine (FailsWith.ok _).congr fun e => ⟨False.elim, ?_⟩
      rintro ⟨before, n, after, split, _, fault⟩
      have member : n ∈ ns.items.toList := by simp [split]
      exact not_danglingIn_iff.mpr (clean n member) e fault

end Nodes

end QueryBoard.Hierarchy
