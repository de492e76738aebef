import QueryBoard.Proofs.Store.Editing

/-!
# Trees whose missing ids are filled in

An edit gives new ids to the children that have none, and to all that is in them.  `fill` is the
tree with these ids, and `addedRows` are the rows that are new with it: of all rows of the filled
tree those whose ids were not stored before, in the same order.

The store does not keep the order in which children are listed.  `settled` is a tree in the order in
which it is read: at every level first what was there before, in the order it had, and then what is
new.
-/

set_option autoImplicit false

namespace QueryBoard.Widget

variable {supply : Nat → String}

mutual

/-- How many widgets an edit adds. -/
def added : Widget → Nat
  | ⟨_, _, _, children, _, _⟩ => addedList children

def addedList : List Widget → Nat
  | [] => 0
  | w :: rest => (if w.id.isEmpty then w.count else w.added) + addedList rest

end

mutual

/-- The widget with the ids that an edit gives out, those of a supply from some number on. -/
def fill (supply : Nat → String) (k : Nat) : Widget → Widget
  | ⟨id, name, kind, children, props, query⟩ =>
    ⟨id, name, kind, fillList supply k children, props, query⟩

def fillList (supply : Nat → String) (k : Nat) : List Widget → List Widget
  | [] => []
  | w :: rest =>
    if w.id.isEmpty then w.renew supply k :: fillList supply (k + w.count) rest
    else w.fill supply k :: fillList supply (k + w.added) rest

end

mutual

def addedRows (supply : Nat → String) (k : Nat) : Widget → List WidgetRow
  | ⟨id, _, _, children, _, _⟩ => addedRowsList supply k id children

def addedRowsList (supply : Nat → String) (k : Nat) (parent : String) :
    List Widget → List WidgetRow
  | [] => []
  | w :: rest =>
    if w.id.isEmpty then
      (w.renew supply k).rows (some parent) ++ addedRowsList supply (k + w.count) parent rest
    else w.addedRows supply k ++ addedRowsList supply (k + w.added) parent rest

end

/-! ## Nodes -/

theorem mem_nodes_self (w : Widget) : w ∈ w.nodes := by
  cases w
  simp [nodes]

theorem mem_nodesList {w v : Widget} {ws : List Widget} (member : w ∈ ws) (inside : v ∈ w.nodes) :
    v ∈ nodesList ws := by
  induction ws with
  | nil => cases member
  | cons u ws ih =>
      rw [nodesList, List.mem_append]
      rcases List.mem_cons.mp member with rfl | member
      · exact Or.inl inside
      · exact Or.inr (ih member)

mutual

theorem mem_nodes_of_child : (w : Widget) → ∀ u ∈ w.nodes, ∀ c ∈ u.children, c ∈ w.nodes
  | ⟨id, name, kind, children, props, query⟩, u, member, c, child => by
      rw [nodes, List.mem_cons] at member ⊢
      rcases member with rfl | member
      · exact Or.inr (mem_nodesList child (mem_nodes_self c))
      · exact Or.inr (mem_nodesList_of_child children u member c child)

theorem mem_nodesList_of_child : (ws : List Widget) → ∀ u ∈ nodesList ws, ∀ c ∈ u.children,
    c ∈ nodesList ws
  | [], u, member, _, _ => by cases member
  | w :: rest, u, member, c, child => by
      rw [nodesList, List.mem_append] at member ⊢
      rcases member with member | member
      · exact Or.inl (mem_nodes_of_child w u member c child)
      · exact Or.inr (mem_nodesList_of_child rest u member c child)

end

mutual

theorem documents_of_mem_nodes : (w : Widget) → ∀ u ∈ w.nodes,
    ∀ j ∈ u.props.toList ++ u.query.toList, j ∈ w.documents
  | ⟨id, name, kind, children, props, query⟩, u, member, j, given => by
      rw [nodes, List.mem_cons] at member
      rw [documents]
      rcases member with rfl | member
      · exact List.mem_append_left _ given
      · exact List.mem_append_right _ (documents_of_mem_nodesList children u member j given)

theorem documents_of_mem_nodesList : (ws : List Widget) → ∀ u ∈ nodesList ws,
    ∀ j ∈ u.props.toList ++ u.query.toList, j ∈ documentsList ws
  | [], u, member, _, _ => by cases member
  | w :: rest, u, member, j, given => by
      rw [nodesList, List.mem_append] at member
      rw [documentsList]
      rcases member with member | member
      · exact List.mem_append_left _ (documents_of_mem_nodes w u member j given)
      · exact List.mem_append_right _ (documents_of_mem_nodesList rest u member j given)

end

theorem mem_edited_self (w : Widget) : w ∈ w.edited := by
  cases w
  simp [edited]

mutual

theorem edited_subset_nodes : (w : Widget) → w.edited ⊆ w.nodes
  | ⟨id, name, kind, children, props, query⟩, u, member => by
      rw [edited, List.mem_cons] at member
      rw [nodes, List.mem_cons]
      exact member.imp_right fun below => editedList_subset_nodesList children below

theorem editedList_subset_nodesList : (ws : List Widget) → editedList ws ⊆ nodesList ws
  | [], _, member => by cases member
  | w :: rest, u, member => by
      rw [editedList, List.mem_append] at member
      rw [nodesList, List.mem_append]
      rcases member with member | member
      · split at member
        · cases member
        · exact Or.inl (edited_subset_nodes w member)
      · exact Or.inr (editedList_subset_nodesList rest member)

end

mutual

/-- What holds of the root of an edit, and goes over to children that have ids, holds of all that
the edit changes. -/
theorem edited_induction {P : Widget → Prop} : (w : Widget) → P w →
    (∀ p ∈ w.edited, P p → ∀ c ∈ p.children, c.id.isEmpty = false → P c) → ∀ u ∈ w.edited, P u
  | ⟨id, name, kind, children, props, query⟩, root, step, u, member => by
      rw [edited] at member step
      rcases List.mem_cons.mp member with rfl | member
      · exact root
      · exact editedList_induction children (step _ List.mem_cons_self root)
          (fun p inside => step p (List.mem_cons_of_mem _ inside)) u member

theorem editedList_induction {P : Widget → Prop} : (ws : List Widget) →
    (∀ w ∈ ws, w.id.isEmpty = false → P w) →
    (∀ p ∈ editedList ws, P p → ∀ c ∈ p.children, c.id.isEmpty = false → P c) →
    ∀ u ∈ editedList ws, P u
  | [], _, _, u, member => by cases member
  | w :: rest, tops, step, u, member => by
      rw [editedList] at member step
      rcases List.mem_append.mp member with below | below
      · cases named : w.id.isEmpty with
        | true => simp [named] at below
        | false =>
            rw [named] at below step
            exact edited_induction w (tops w List.mem_cons_self named)
              (fun p inside => step p (List.mem_append_left _ inside)) u below
      · exact editedList_induction rest (fun v inside => tops v (List.mem_cons_of_mem w inside))
          (fun p inside => step p (List.mem_append_right _ inside)) u below

end

/-! ## Filled ids -/

theorem id_fill (k : Nat) (w : Widget) : (w.fill supply k).id = w.id := by
  cases w
  rfl

mutual

theorem map_id_addedRows : (w : Widget) → (k : Nat) →
    (w.addedRows supply k).map (fun r => r.id) = (List.range' k w.added).map supply
  | ⟨id, _, _, children, _, _⟩, k => by
      rw [addedRows, added, map_id_addedRowsList children k id]

theorem map_id_addedRowsList : (ws : List Widget) → (k : Nat) → (parent : String) →
    (addedRowsList supply k parent ws).map (fun r => r.id) =
      (List.range' k (addedList ws)).map supply
  | [], _, _ => rfl
  | w :: rest, k, parent => by
      rw [addedRowsList, addedList]
      split
      · rw [List.map_append, map_id_rows, ids_renew, map_id_addedRowsList rest (k + w.count) parent,
          ← List.map_append, List.range'_append_1]
      · rw [List.map_append, map_id_addedRows w k, map_id_addedRowsList rest (k + w.added) parent,
          ← List.map_append, List.range'_append_1]

end

theorem length_addedRows (w : Widget) (k : Nat) : (w.addedRows supply k).length = w.added := by
  have ids : (w.addedRows supply k).map (fun r => r.id) = (List.range' k w.added).map supply :=
    map_id_addedRows w k
  simpa using congrArg List.length ids

/-- What an edit adds for a child. -/
def addedChild (supply : Nat → String) (k : Nat) (parent : String) (w : Widget) : List WidgetRow :=
  if w.id.isEmpty then (w.renew supply k).rows (some parent) else w.addedRows supply k

theorem length_addedChild (k : Nat) (parent : String) (w : Widget) :
    (addedChild supply k parent w).length = if w.id.isEmpty then w.count else w.added := by
  unfold addedChild
  split
  · exact Store.length_rows_renew w k (some parent)
  · exact length_addedRows w k

theorem addedRowsList_cons (k : Nat) (parent : String) (w : Widget) (rest : List Widget) :
    addedRowsList supply k parent (w :: rest) = addedChild supply k parent w ++
      addedRowsList supply (k + (addedChild supply k parent w).length) parent rest := by
  rw [addedRowsList, length_addedChild, addedChild]
  split <;> rfl

theorem length_fillList (ws : List Widget) (k : Nat) :
    (fillList supply k ws).length = ws.length := by
  induction ws generalizing k with
  | nil => rfl
  | cons w rest ih =>
      rw [fillList]
      split
      · rw [List.length_cons, ih, List.length_cons]
      · rw [List.length_cons, ih, List.length_cons]

theorem fillList_cons (k : Nat) (parent : String) (w : Widget) (rest : List Widget) :
    fillList supply k (w :: rest) =
      (if w.id.isEmpty then w.renew supply k else w.fill supply k) ::
        fillList supply (k + (addedChild supply k parent w).length) rest := by
  rw [fillList, length_addedChild]
  split <;> rfl

mutual

/-- Every id of a filled tree is one that was given or one that is new. -/
theorem perm_ids_fill : (w : Widget) → (k : Nat) → (w.fill supply k).ids.Perm
    (w.edited.map (fun u => u.id) ++ (w.addedRows supply k).map fun r => r.id)
  | ⟨id, name, kind, children, props, query⟩, k => by
      rw [fill, ids, edited, addedRows, List.map_cons, List.cons_append]
      exact (perm_idsList_fillList children k id).cons id

theorem perm_idsList_fillList : (ws : List Widget) → (k : Nat) → (parent : String) →
    (idsList (fillList supply k ws)).Perm
      ((editedList ws).map (fun u => u.id) ++ (addedRowsList supply k parent ws).map fun r => r.id)
  | [], _, _ => List.Perm.refl _
  | w :: rest, k, parent => by
      rw [fillList, editedList, addedRowsList]
      split
      · have later := perm_idsList_fillList rest (k + w.count) parent
        rw [idsList, List.nil_append, List.map_append, map_id_rows]
        exact (later.append_left _).trans (List.perm_append_comm_assoc ..)
      · have first := perm_ids_fill w k
        have later := perm_idsList_fillList rest (k + w.added) parent
        rw [idsList, List.map_append, List.map_append, List.append_assoc]
        refine (first.append later).trans ?_
        rw [List.append_assoc]
        exact (List.perm_append_comm_assoc ..).append_left _

end

mutual

/-- The new rows are the rows of the filled tree that are new, and stand in the same order. -/
theorem addedRows_eq_filter {known : List String} : (w : Widget) → (k : Nat) →
    (parent : Option String) → (∀ u ∈ w.edited, u.id ∈ known) → (∀ j, k ≤ j → supply j ∉ known) →
    w.addedRows supply k = ((w.fill supply k).rows parent).filter fun r => r.id ∉ known
  | ⟨id, name, kind, children, props, query⟩, k, parent, stored, new => by
      rw [edited] at stored
      have top : id ∈ known := stored _ List.mem_cons_self
      rw [addedRows, fill, rows, List.filter_cons_of_neg (by simpa using top)]
      exact addedRowsList_eq_filter children k id
        (fun u member => stored u (List.mem_cons_of_mem _ member)) new

theorem addedRowsList_eq_filter {known : List String} : (ws : List Widget) → (k : Nat) →
    (parent : String) → (∀ u ∈ editedList ws, u.id ∈ known) → (∀ j, k ≤ j → supply j ∉ known) →
    addedRowsList supply k parent ws =
      (rowsList parent (fillList supply k ws)).filter fun r => r.id ∉ known
  | [], _, _, _, _ => rfl
  | w :: rest, k, parent, stored, new => by
      rw [editedList] at stored
      have others : ∀ u ∈ editedList rest, u.id ∈ known :=
        fun u member => stored u (List.mem_append_right _ member)
      rw [addedRowsList, fillList]
      cases named : w.id.isEmpty with
      | true =>
          have all : ((w.renew supply k).rows (some parent)).filter (fun r => r.id ∉ known) =
              (w.renew supply k).rows (some parent) := by
            rw [List.filter_eq_self]
            intro r member
            have listed : r.id ∈ ((w.renew supply k).rows (some parent)).map fun r => r.id :=
              List.mem_map_of_mem member
            rw [map_id_rows, ids_renew] at listed
            obtain ⟨j, range, same⟩ := List.mem_map.mp listed
            simpa [← same] using new j (List.mem_range'_1.mp range).1
          rw [if_pos rfl, if_pos rfl, rowsList, List.filter_append, all,
            addedRowsList_eq_filter rest (k + w.count) parent others
              fun j later => new j (by omega)]
      | false =>
          have own : ∀ u ∈ w.edited, u.id ∈ known := by
            intro u member
            exact stored u (List.mem_append_left _ (by simpa [named] using member))
          rw [if_neg (by simp), if_neg (by simp), rowsList, List.filter_append,
            ← addedRows_eq_filter w k (some parent) own new,
            addedRowsList_eq_filter rest (k + w.added) parent others fun j later => new j (by omega)]

end

/-- An id that is not new is among filled children when it is listed. -/
theorem mem_map_id_fillList {y : String} : (ws : List Widget) → (k : Nat) →
    (∀ j, k ≤ j → y ≠ supply j) →
    (y ∈ (fillList supply k ws).map (fun w => w.id) ↔ y ∈ listedIds ws)
  | [], _, _ => by simp [fillList, listedIds]
  | w :: rest, k, old => by
      rw [fillList]
      cases named : w.id.isEmpty with
      | true =>
          have skipped : listedIds (w :: rest) = listedIds rest := by simp [listedIds, named]
          rw [if_pos rfl, skipped, List.map_cons, List.mem_cons, id_renew,
            mem_map_id_fillList rest (k + w.count) fun j later => old j (by omega)]
          exact or_iff_right (old k (Nat.le_refl k))
      | false =>
          rw [if_neg (by simp), Store.listedIds_cons_of_ne named, List.map_cons, List.mem_cons,
            List.mem_cons, id_fill,
            mem_map_id_fillList rest (k + w.added) fun j later => old j (by omega)]

theorem new_of_mem_renew {w u : Widget} {k : Nat} (member : u ∈ (w.renew supply k).nodes) :
    ∃ j, k ≤ j ∧ u.id = supply j := by
  have listed : u.id ∈ (w.renew supply k).nodes.map fun v => v.id := List.mem_map_of_mem member
  rw [map_id_nodes, ids_renew] at listed
  obtain ⟨j, range, same⟩ := List.mem_map.mp listed
  exact ⟨j, (List.mem_range'_1.mp range).1, same.symm⟩

/-- What stands in a filled tree: a widget that is edited, or a new one with only new children. -/
def Filled (supply : Nat → String) (k : Nat) (edited : List Widget) (u : Widget) : Prop :=
  (∃ v ∈ edited, ∃ j, k ≤ j ∧ u = v.fill supply j) ∨
    (∃ j, k ≤ j ∧ u.id = supply j) ∧ ∀ c ∈ u.children, ∃ j, k ≤ j ∧ c.id = supply j

theorem Filled.mono {k k' : Nat} {vs vs' : List Widget} {u : Widget} (filled : Filled supply k' vs u)
    (later : k ≤ k') (part : vs ⊆ vs') : Filled supply k vs' u := by
  rcases filled with ⟨v, member, j, after, same⟩ | ⟨⟨j, after, same⟩, new⟩
  · exact Or.inl ⟨v, part member, j, by omega, same⟩
  · refine Or.inr ⟨⟨j, by omega, same⟩, fun c child => ?_⟩
    obtain ⟨i, after, same⟩ := new c child
    exact ⟨i, by omega, same⟩

mutual

theorem filled_of_mem_fill : (w : Widget) → (k : Nat) → ∀ u ∈ (w.fill supply k).nodes,
    Filled supply k w.edited u
  | ⟨id, name, kind, children, props, query⟩, k, u, member => by
      rw [fill, nodes, List.mem_cons] at member
      rw [edited]
      rcases member with rfl | member
      · exact Or.inl ⟨_, List.mem_cons_self, k, Nat.le_refl k, rfl⟩
      · exact (filled_of_mem_fillList children k u member).mono (Nat.le_refl k)
          (List.subset_cons_self _ _)

theorem filled_of_mem_fillList : (ws : List Widget) → (k : Nat) →
    ∀ u ∈ nodesList (fillList supply k ws), Filled supply k (editedList ws) u
  | [], _, u, member => by cases member
  | w :: rest, k, u, member => by
      rw [fillList] at member
      rw [editedList]
      split at member
      · rw [nodesList, List.mem_append] at member
        rcases member with member | member
        · refine Or.inr ⟨new_of_mem_renew member, fun c child => ?_⟩
          exact new_of_mem_renew (mem_nodes_of_child _ u member c child)
        · exact (filled_of_mem_fillList rest _ u member).mono (Nat.le_add_right k _)
            (List.subset_append_right _ _)
      · next named =>
        rw [nodesList, List.mem_append] at member
        rw [if_neg named]
        rcases member with member | member
        · exact (filled_of_mem_fill w k u member).mono (Nat.le_refl k)
            (List.subset_append_left _ _)
        · exact (filled_of_mem_fillList rest _ u member).mono (Nat.le_add_right k _)
            (List.subset_append_right _ _)

end

mutual

theorem documents_fill : (w : Widget) → (k : Nat) → (w.fill supply k).documents = w.documents
  | ⟨_, _, _, children, _, _⟩, k => by
      rw [fill, documents, documents, documentsList_fillList children k]

theorem documentsList_fillList : (ws : List Widget) → (k : Nat) →
    documentsList (fillList supply k ws) = documentsList ws
  | [], _ => rfl
  | w :: rest, k => by
      rw [fillList]
      split
      · rw [documentsList, documentsList, documents_renew w k, documentsList_fillList rest]
      · rw [documentsList, documentsList, documents_fill w k, documentsList_fillList rest]

end

/-! ## Parents of new rows -/

theorem parent_of_mem_renewed (w : Widget) (k : Nat) (parent : Option String) {r : WidgetRow}
    (member : r ∈ (w.renew supply k).rows parent) :
    (r.parent = parent ∧ r.id = (w.renew supply k).id) ∨
      ∃ p, r.parent = some p ∧ p ∈ ((w.renew supply k).rows parent).map fun r => r.id := by
  rw [map_id_rows]
  obtain ⟨id, name, kind, children, props, query⟩ := w
  rw [renew, rows] at member
  rw [renew, ids]
  rcases List.mem_cons.mp member with rfl | below
  · exact Or.inl ⟨rfl, rfl⟩
  · rcases parent_of_mem_rowsList _ _ r below with given | ⟨p, listed, given⟩
    · exact Or.inr ⟨supply k, given, List.mem_cons_self⟩
    · exact Or.inr ⟨p, given, List.mem_cons_of_mem _ listed⟩

mutual

/-- A new row is below another new one or below a widget that is edited. -/
theorem parent_of_mem_addedRows : (w : Widget) → (k : Nat) → ∀ r ∈ w.addedRows supply k, ∃ p,
    r.parent = some p ∧ (p ∈ (w.addedRows supply k).map (fun r => r.id) ∨
      p ∈ w.edited.map fun u => u.id)
  | ⟨id, name, kind, children, props, query⟩, k, r, member => by
      rw [addedRows] at member ⊢
      rw [edited, List.map_cons]
      rcases parent_of_mem_addedRowsList children k id r member with ⟨top, _⟩ | ⟨p, given, above⟩
      · exact ⟨id, top, Or.inr List.mem_cons_self⟩
      · exact ⟨p, given, above.imp_right (List.mem_cons_of_mem id)⟩

/-- The same for rows that are new among children; a child itself gets its id in the filled list. -/
theorem parent_of_mem_addedRowsList : (ws : List Widget) → (k : Nat) → (parent : String) →
    ∀ r ∈ addedRowsList supply k parent ws,
      (r.parent = some parent ∧ r.id ∈ (fillList supply k ws).map fun w => w.id) ∨
      ∃ p, r.parent = some p ∧ (p ∈ (addedRowsList supply k parent ws).map (fun r => r.id) ∨
        p ∈ (editedList ws).map fun u => u.id)
  | [], _, _, r, member => by cases member
  | w :: rest, k, parent, r, member => by
      rw [addedRowsList] at member ⊢
      rw [fillList, editedList]
      cases named : w.id.isEmpty with
      | true =>
          rw [named, if_pos rfl, List.mem_append] at member
          rw [if_pos rfl, if_pos rfl, if_pos rfl, List.nil_append, List.map_append, List.map_cons]
          rcases member with member | member
          · rcases parent_of_mem_renewed w k (some parent) member with
              ⟨given, first⟩ | ⟨p, given, listed⟩
            · exact Or.inl ⟨given, first ▸ List.mem_cons_self⟩
            · exact Or.inr ⟨p, given, Or.inl (List.mem_append_left _ listed)⟩
          · rcases parent_of_mem_addedRowsList rest (k + w.count) parent r member with
              ⟨given, listed⟩ | ⟨p, given, above⟩
            · exact Or.inl ⟨given, List.mem_cons_of_mem _ listed⟩
            · exact Or.inr ⟨p, given, above.imp_left (List.mem_append_right _)⟩
      | false =>
          rw [named, if_neg (by simp), List.mem_append] at member
          rw [if_neg (by simp), if_neg (by simp), if_neg (by simp), List.map_append,
            List.map_append, List.map_cons]
          rcases member with member | member
          · obtain ⟨p, given, above⟩ := parent_of_mem_addedRows w k r member
            exact Or.inr ⟨p, given, above.imp (List.mem_append_left _) (List.mem_append_left _)⟩
          · rcases parent_of_mem_addedRowsList rest (k + w.added) parent r member with
              ⟨given, listed⟩ | ⟨p, given, above⟩
            · exact Or.inl ⟨given, List.mem_cons_of_mem _ listed⟩
            · exact Or.inr
                ⟨p, given, above.imp (List.mem_append_right _) (List.mem_append_right _)⟩

end

theorem parent_of_mem_addedChild {k : Nat} {parent : String} {w : Widget} {r : WidgetRow}
    (member : r ∈ addedChild supply k parent w) : ∃ p, r.parent = some p ∧
      (p ∈ (addedChild supply k parent w).map (fun r => r.id) ∨
        p ∈ parent :: (if w.id.isEmpty then [] else w.edited).map fun u => u.id) := by
  unfold addedChild at member ⊢
  split at member
  · next named =>
    rw [if_pos named]
    rcases parent_of_mem_renewed w k (some parent) member with ⟨given, _⟩ | ⟨p, given, listed⟩
    · exact ⟨parent, given, Or.inr List.mem_cons_self⟩
    · exact ⟨p, given, Or.inl listed⟩
  · next named =>
    rw [if_neg named, if_neg named]
    obtain ⟨p, given, above⟩ := parent_of_mem_addedRows w k r member
    exact ⟨p, given, above.imp_right (List.mem_cons_of_mem parent)⟩

/-! ## Other ids -/

mutual

/-- The widget with each id replaced. -/
def mapIds (f : String → String) : Widget → Widget
  | ⟨id, name, kind, children, props, query⟩ =>
    ⟨f id, name, kind, mapIdsList f children, props, query⟩

def mapIdsList (f : String → String) : List Widget → List Widget
  | [] => []
  | w :: rest => w.mapIds f :: mapIdsList f rest

end

section

variable {f : String → String}

mutual

theorem mapIds_renew : (w : Widget) → (k : Nat) → (∀ x ∈ w.nodes, x.id = "") →
    (∀ j, k ≤ j → f (supply j) = "") → (w.renew supply k).mapIds f = w
  | ⟨id, name, kind, children, props, query⟩, k, bare, new => by
      rw [nodes] at bare
      have top : id = "" := bare _ List.mem_cons_self
      rw [renew, mapIds, new k (Nat.le_refl k), top, mapIdsList_renewList children (k + 1)
        (fun x member => bare x (List.mem_cons_of_mem _ member)) fun j later => new j (by omega)]

theorem mapIdsList_renewList : (ws : List Widget) → (k : Nat) → (∀ x ∈ nodesList ws, x.id = "") →
    (∀ j, k ≤ j → f (supply j) = "") → mapIdsList f (renewList supply k ws) = ws
  | [], _, _, _ => rfl
  | w :: rest, k, bare, new => by
      rw [nodesList] at bare
      rw [renewList, mapIdsList, mapIds_renew w k
          (fun x member => bare x (List.mem_append_left _ member)) new,
        mapIdsList_renewList rest (k + w.count)
          (fun x member => bare x (List.mem_append_right _ member)) fun j later => new j (by omega)]

end

mutual

/-- Taking the new ids back out of a filled tree gives the tree. -/
theorem mapIds_fill : (w : Widget) → (k : Nat) → (∀ u ∈ w.edited, f u.id = u.id) →
    (∀ u ∈ w.edited, ∀ c ∈ u.children, c.id = "" → ∀ x ∈ c.nodes, x.id = "") →
    (∀ j, k ≤ j → f (supply j) = "") → (w.fill supply k).mapIds f = w
  | ⟨id, name, kind, children, props, query⟩, k, kept, bare, new => by
      rw [edited] at kept bare
      have top : f id = id := kept _ List.mem_cons_self
      rw [fill, mapIds, top, mapIdsList_fillList children k
        (fun u member => kept u (List.mem_cons_of_mem _ member)) (bare _ List.mem_cons_self)
        (fun u member => bare u (List.mem_cons_of_mem _ member)) new]

theorem mapIdsList_fillList : (ws : List Widget) → (k : Nat) →
    (∀ u ∈ editedList ws, f u.id = u.id) → (∀ c ∈ ws, c.id = "" → ∀ x ∈ c.nodes, x.id = "") →
    (∀ u ∈ editedList ws, ∀ c ∈ u.children, c.id = "" → ∀ x ∈ c.nodes, x.id = "") →
    (∀ j, k ≤ j → f (supply j) = "") → mapIdsList f (fillList supply k ws) = ws
  | [], _, _, _, _, _ => rfl
  | w :: rest, k, kept, bareTops, bare, new => by
      rw [editedList] at kept bare
      have others : ∀ k', k ≤ k' → mapIdsList f (fillList supply k' rest) = rest := fun k' after =>
        mapIdsList_fillList rest k' (fun u member => kept u (List.mem_append_right _ member))
          (fun c member => bareTops c (List.mem_cons_of_mem w member))
          (fun u member => bare u (List.mem_append_right _ member)) fun j later => new j (by omega)
      rw [fillList]
      split
      · next named =>
        rw [mapIdsList, others _ (Nat.le_add_right k _), mapIds_renew w k
          (bareTops w List.mem_cons_self (String.isEmpty_iff.mp named)) new]
      · next named =>
        rw [if_neg named] at kept bare
        rw [mapIdsList, others _ (Nat.le_add_right k _), mapIds_fill w k
          (fun u member => kept u (List.mem_append_left _ member))
          (fun u member => bare u (List.mem_append_left _ member)) new]

end

end

/-! ## The order in which children are read -/

/-- Those of some widgets that have listed ids in the order of the list, and then the others. -/
def settle (ids : List String) (ws : List Widget) : List Widget :=
  (ids.filterMap fun i => ws.find? fun w => w.id == i) ++ ws.filter fun w => w.id ∉ ids

mutual

/-- The widget with the children of every widget in it in an order that its id determines. -/
def settled (order : String → List String) : Widget → Widget
  | ⟨id, name, kind, children, props, query⟩ =>
    ⟨id, name, kind, settle (order id) (settledList order children), props, query⟩

def settledList (order : String → List String) : List Widget → List Widget
  | [] => []
  | w :: rest => w.settled order :: settledList order rest

end

theorem mem_of_mem_settle {ids : List String} {ws : List Widget} {w : Widget}
    (member : w ∈ settle ids ws) : w ∈ ws := by
  rcases List.mem_append.mp member with listed | other
  · obtain ⟨i, _, found⟩ := List.mem_filterMap.mp listed
    exact List.mem_of_find?_eq_some found
  · exact (List.mem_filter.mp other).1

theorem map_id_settle (ids : List String) (ws : List Widget) :
    (settle ids ws).map (fun w => w.id) =
      (ids.filter fun i => i ∈ ws.map fun w => w.id) ++
        (ws.map fun w => w.id).filter fun i => i ∉ ids := by
  have listed : (ids.filterMap fun i => ws.find? fun w => w.id == i).map (fun w => w.id) =
      ids.filter fun i => i ∈ ws.map fun w => w.id := by
    induction ids with
    | nil => rfl
    | cons i ids ih =>
        cases found : ws.find? fun w => w.id == i with
        | none =>
            have absent : i ∉ ws.map fun w => w.id := by
              simpa using List.find?_eq_none.mp found
            rw [List.filterMap_cons, found, ih, List.filter_cons_of_neg (by simpa using absent)]
        | some w =>
            have same : w.id = i := by simpa using List.find?_some found
            have present : i ∈ ws.map fun w => w.id :=
              List.mem_map.mpr ⟨w, List.mem_of_find?_eq_some found, same⟩
            rw [List.filterMap_cons, found, List.map_cons, ih, same,
              List.filter_cons_of_pos (by simpa using present)]
  rw [settle, List.map_append, listed, List.filter_map]
  rfl

theorem id_settled (order : String → List String) (w : Widget) : (w.settled order).id = w.id := by
  cases w
  rfl

theorem map_id_settledList (order : String → List String) (ws : List Widget) :
    (settledList order ws).map (fun w => w.id) = ws.map fun w => w.id := by
  induction ws with
  | nil => rfl
  | cons w ws ih => rw [settledList, List.map_cons, List.map_cons, id_settled, ih]

section

variable {rows : List WidgetRow} {order : String → List String}

/-- Whether rows say of a widget what it is, and have its children settled. -/
structure Settled (rows : List WidgetRow) (order : String → List String) (u : Widget) : Prop where
  own : ∃ parent, ⟨u.id, u.name, u.kind, u.props, u.query, parent⟩ ∈ rows
  children : (settle (order u.id) u.children).map (fun c => c.id) =
    (childRows rows u.id).map fun r => r.id

mutual

/-- A tree is read in settled order when all its widgets are. -/
theorem readFrom_settled : (w : Widget) → (∀ u ∈ w.nodes, Settled rows order u) →
    (w.settled order).ReadFrom rows
  | ⟨id, name, kind, children, props, query⟩, each => by
      rw [nodes] at each
      obtain ⟨own, ids⟩ := each _ List.mem_cons_self
      refine ⟨own, ?_, readFromAll_iff.mpr fun c member => ?_⟩
      · rw [map_id_settle, map_id_settledList, ← ids, map_id_settle]
      · have below := readFromAll_settledList children
          fun u inside => each u (List.mem_cons_of_mem _ inside)
        exact readFromAll_iff.mp below c (mem_of_mem_settle member)

theorem readFromAll_settledList : (ws : List Widget) →
    (∀ u ∈ nodesList ws, Settled rows order u) → ReadFromAll rows (settledList order ws)
  | [], _ => trivial
  | w :: rest, each => by
      rw [nodesList] at each
      exact ⟨readFrom_settled w fun u inside => each u (List.mem_append_left _ inside),
        readFromAll_settledList rest fun u inside => each u (List.mem_append_right _ inside)⟩

end

end

end QueryBoard.Widget
