/-!
# Nodes that name their parents

A hierarchy arrives as a flat list of nodes in any order, each of which may name its parent.
`Nodes` collects them: the first node with an id stays, later ones with the same id are dropped.
-/

set_option autoImplicit false

namespace QueryBoard

inductive TreeError where
  /-- A node names a parent that does not exist. -/
  | danglingParent (id parent : String)
  /-- Going from parent to parent, a node is met again. -/
  | cycle (id : String)
  | notFound (id : String)
deriving DecidableEq, Repr

def TreeError.message : TreeError → String
  | .danglingParent id parent => "node " ++ id ++ " references missing parent " ++ parent
  | .cycle id => "cycle detected at node " ++ id
  | .notFound id => "entity not found: " ++ id

namespace Hierarchy

structure Node (α : Type) where
  id : String
  parent : Option String
  value : α
deriving Repr

/-- Nodes with distinct ids, in the order of insertion. -/
structure Nodes (α : Type) where
  items : Array (Node α)
  distinct : (items.toList.map Node.id).Nodup

namespace Nodes

variable {α : Type}

def empty : Nodes α := ⟨#[], by simp⟩

abbrev size (ns : Nodes α) : Nat := ns.items.size

def isEmpty (ns : Nodes α) : Bool := ns.items.isEmpty

def node (ns : Nodes α) (i : Fin ns.size) : Node α := ns.items[i]

def ids (ns : Nodes α) : List String := ns.items.toList.map Node.id

def contains (ns : Nodes α) (id : String) : Bool := ns.items.any (·.id == id)

theorem contains_iff {ns : Nodes α} {id : String} : ns.contains id = true ↔ id ∈ ns.ids := by
  rw [contains, ← Array.any_toList, List.any_eq_true]
  simp [ids]

/-- Adds a node whose id is new. -/
def insertNew? (ns : Nodes α) (n : Node α) : Option (Nodes α) :=
  if h : ns.contains n.id then none
  else some ⟨ns.items.push n, by
    rw [contains_iff] at h
    rw [Array.toList_push, List.map_append, List.nodup_append]
    refine ⟨ns.distinct, by simp, ?_⟩
    intro a ha b hb hab
    simp only [List.map_cons, List.map_nil, List.mem_singleton] at hb
    exact h (hb ▸ hab ▸ ha)⟩

/-- Adds a node unless its id is known already. -/
def insert (ns : Nodes α) (n : Node α) : Nodes α := (ns.insertNew? n).getD ns

/-- The first node of every id. -/
def ofList (rows : List (Node α)) : Nodes α := rows.foldl insert empty

end Nodes

end Hierarchy

end QueryBoard
