import QueryBoard.Hierarchy.Nodes

/-!
# Folding linked nodes into trees

Linking turns the parent ids of nodes into lists of children by index; it fails when a parent is
missing.  Folding builds a result for a node out of its value and the results of its children.  It
walks over the links with a stack of its own and claims every node that it opens, so a node met a
second time shows a cycle.  A node can be claimed only once, which is why the walk ends whatever
the links are.
-/

set_option autoImplicit false

namespace QueryBoard.Hierarchy

/-- The links between `n` nodes, by index in the order of insertion. -/
structure Links (n : Nat) where
  ids : Vector String n
  children : Vector (List (Fin n)) n
  roots : List (Fin n)

/-- The values that have not been claimed yet. -/
abbrev Values (α : Type) (n : Nat) := Vector (Option α) n

structure Arena (α : Type) (n : Nat) where
  links : Links n
  values : Values α n

namespace Nodes

variable {α : Type}

/-- The nodes that name a parent, in the order of insertion. -/
def childrenOf (ns : Nodes α) (parent : String) : List (Fin ns.size) :=
  (List.finRange ns.size).filter fun i => (ns.node i).parent == some parent

def rootList (ns : Nodes α) : List (Fin ns.size) :=
  (List.finRange ns.size).filter fun i => (ns.node i).parent.isNone

/-- The first node whose parent does not exist. -/
def dangling? (ns : Nodes α) : Option (String × String) :=
  ns.items.toList.findSome? fun n =>
    match n.parent with
    | some parent => if ns.contains parent then none else some (n.id, parent)
    | none => none

def link (ns : Nodes α) : Except TreeError (Arena α ns.size) :=
  match ns.dangling? with
  | some (id, parent) => .error (.danglingParent id parent)
  | none => .ok {
      links := {
        ids := Vector.ofFn fun i => (ns.node i).id
        children := Vector.ofFn fun i => ns.childrenOf (ns.node i).id
        roots := ns.rootList }
      values := Vector.ofFn fun i => some (ns.node i).value }

end Nodes

namespace Values

variable {α : Type} {n : Nat}

/-- The value at an index, unless it has been claimed. -/
def at? (values : Values α n) (i : Fin n) : Option α := values[i]

/-- The values that are left when the one at an index is claimed. -/
def without (values : Values α n) (i : Fin n) : Values α n := values.set i none

def unclaimed (values : Values α n) : Nat := values.countP Option.isSome

def claim (values : Values α n) (i : Fin n) : Option (α × Values α n) :=
  match values.at? i with
  | some v => some (v, values.without i)
  | none => none

theorem unclaimed_claim {values rest : Values α n} {i : Fin n} {v : α}
    (h : values.claim i = some (v, rest)) : rest.unclaimed < values.unclaimed := by
  unfold claim at h
  split at h
  · next w hw =>
    obtain ⟨rfl, rfl⟩ := by simpa using h
    have hw' : values[i.val].isSome = true := by
      have : values[i.val] = some w := hw
      simp [this]
    have hpos : 0 < values.unclaimed :=
      Vector.countP_pos_iff.2 ⟨values[i.val], Vector.getElem_mem i.2, hw'⟩
    simp only [unclaimed, without, Vector.countP_set, hw', if_true] at *
    simp only [Option.isSome_none, Bool.false_eq_true, if_false]
    omega
  · simp at h

end Values

/-- A node that is open: its value, the children still to visit, and the results of the visited
ones, the latest first. -/
structure Frame (α β : Type) (n : Nat) where
  value : α
  pending : List (Fin n)
  built : List β

namespace Links

variable {α β : Type} {n : Nat}

def idOf (l : Links n) (i : Fin n) : String := l.ids[i]

def below (l : Links n) (i : Fin n) : List (Fin n) := l.children[i]

def openNode (l : Links n) (values : Values α n) (i : Fin n) :
    Except TreeError (Frame α β n × Values α n) :=
  match values.claim i with
  | some (v, rest) => .ok (⟨v, l.below i, []⟩, rest)
  | none => .error (.cycle (l.idOf i))

theorem unclaimed_openNode {l : Links n} {values rest : Values α n} {i : Fin n}
    {f : Frame α β n} (h : l.openNode values i = .ok (f, rest)) :
    rest.unclaimed < values.unclaimed := by
  unfold openNode at h
  split at h
  · next v rest' hc =>
    obtain ⟨rfl, rfl⟩ := by simpa using h
    exact Values.unclaimed_claim hc
  · simp at h

/-- Finishes the open node `current` and the nodes around it, innermost first. -/
def finish (l : Links n) (build : α → List β → β) (values : Values α n)
    (current : Frame α β n) (around : List (Frame α β n)) : Except TreeError (β × Values α n) :=
  match current, around with
  | ⟨v, i :: pending, built⟩, around =>
    match _h : l.openNode values i with
    | .ok (child, rest) => l.finish build rest child (⟨v, pending, built⟩ :: around)
    | .error e => .error e
  | ⟨v, [], built⟩, [] => .ok (build v built.reverse, values)
  | ⟨v, [], built⟩, ⟨w, pending, earlier⟩ :: around =>
    l.finish build values ⟨w, pending, build v built.reverse :: earlier⟩ around
-- Each step claims a node or closes one.
termination_by (values.unclaimed, around.length)
decreasing_by
  · exact Prod.Lex.left _ _ (unclaimed_openNode _h)
  · exact Prod.Lex.right _ (by simp)

/-- The result of the subtree that starts at a node, and the values left unclaimed. -/
def materialize (l : Links n) (build : α → List β → β) (values : Values α n) (root : Fin n) :
    Except TreeError (β × Values α n) := do
  let (frame, rest) ← l.openNode values root
  l.finish build rest frame []

def materializeAll (l : Links n) (build : α → List β → β) (values : Values α n) :
    List (Fin n) → Except TreeError (List β × Values α n)
  | [] => .ok ([], values)
  | i :: rest => do
    let (b, values) ← l.materialize build values i
    let (bs, values) ← l.materializeAll build values rest
    return (b :: bs, values)

def index? (l : Links n) (id : String) : Option (Fin n) :=
  (List.finRange n).find? fun i => l.idOf i == id

end Links

namespace Arena

variable {α β : Type} {n : Nat}

def rootIds (a : Arena α n) : List String := a.links.roots.map a.links.idOf

/-- The ids of the children of a node, none for an unknown node. -/
def childIds (a : Arena α n) (id : String) : List String :=
  match a.links.index? id with
  | some i => (a.links.below i).map a.links.idOf
  | none => []

/-- The results of all trees.  A node that hangs on no root lies on a cycle or below one. -/
def foldRoots (a : Arena α n) (build : α → List β → β) : Except TreeError (List β) := do
  let (built, rest) ← a.links.materializeAll build a.values a.links.roots
  match (List.finRange n).find? fun i => (rest.at? i).isSome with
  | some i => throw (.cycle (a.links.idOf i))
  | none => return built

def foldSubtree (a : Arena α n) (id : String) (build : α → List β → β) : Except TreeError β := do
  match a.links.index? id with
  | some i => return (← a.links.materialize build a.values i).1
  | none => throw (.notFound id)

end Arena

end QueryBoard.Hierarchy
