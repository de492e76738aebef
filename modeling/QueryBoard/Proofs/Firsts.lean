import Mathlib.Data.List.Induction
import Mathlib.Data.List.Nodup

/-!
# First elements

Rows are told apart by a key, and of several rows with one key the first counts.  `firstsBy` keeps
the first element of every key, in the order of the list.
-/

set_option autoImplicit false

namespace QueryBoard

/-! ## Without repetitions -/

section

variable {α : Type} [DecidableEq α]

theorem nodup_eraseDups : (l : List α) → l.eraseDups.Nodup
  | [] => List.nodup_nil
  | a :: l => by
      rw [List.eraseDups_cons, List.nodup_cons]
      refine ⟨fun member => ?_, nodup_eraseDups _⟩
      simpa using List.mem_eraseDups.mp member
termination_by l => l.length
decreasing_by
  have shorter := List.length_filter_le (fun b => !b == a) l
  simp only [List.length_cons]
  omega

theorem eraseDups_of_nodup {l : List α} (distinct : l.Nodup) : l.eraseDups = l := by
  induction l with
  | nil => rfl
  | cons a l ih =>
      obtain ⟨apart, distinct⟩ := List.nodup_cons.mp distinct
      have kept : (l.filter fun b => !b == a) = l := by
        rw [List.filter_eq_self]
        intro b member
        have different : b ≠ a := fun same => apart (same ▸ member)
        simp [different]
      rw [List.eraseDups_cons, kept, ih distinct]

theorem eraseDups_concat (l : List α) (a : α) :
    (l ++ [a]).eraseDups = l.eraseDups ++ if a ∈ l then [] else [a] := by
  rw [List.eraseDups_append]
  by_cases known : a ∈ l
  · have none : [a].removeAll l = [] := by simp [List.removeAll, known]
    rw [none, if_pos known, List.eraseDups_nil]
  · have single : [a].removeAll l = [a] := by simp [List.removeAll, known]
    rw [single, if_neg known, List.eraseDups_cons]
    rfl

theorem filter_eraseDups (p : α → Bool) (l : List α) :
    l.eraseDups.filter p = (l.filter p).eraseDups := by
  induction l using List.reverseRecOn with
  | nil => rfl
  | append_singleton l a ih =>
      rw [eraseDups_concat, List.filter_append, List.filter_append, ih]
      by_cases kept : p a = true
      · rw [List.filter_cons_of_pos kept, List.filter_nil, eraseDups_concat]
        by_cases known : a ∈ l <;> simp [kept, known]
      · rw [List.filter_cons_of_neg kept, List.filter_nil, List.append_nil]
        by_cases known : a ∈ l <;> simp [kept, known]

end

/-! ## With a key -/

section

variable {α β : Type} (key : α → String)

/-- The first element of every key. -/
def firstsBy (l : List α) : List α := l.eraseDupsBy fun a b => key a == key b

theorem firstsBy_cons (a : α) (l : List α) :
    firstsBy key (a :: l) = a :: firstsBy key (l.filter fun b => (key b == key a) = false) :=
  List.eraseDupsBy_cons

theorem firstsBy_append (l m : List α) :
    firstsBy key (l ++ m) =
      firstsBy key l ++ firstsBy key (m.filter fun b => key b ∉ l.map key) := by
  induction length : l.length using Nat.strongRecOn generalizing l m with
  | ind n ih =>
      cases l with
      | nil => simp [firstsBy]
      | cons a l =>
          have shorter := List.length_filter_le (fun b => decide ((key b == key a) = false)) l
          rw [List.length_cons] at length
          rw [List.cons_append, firstsBy_cons, firstsBy_cons, List.filter_append,
            ih _ (by omega) _ _ rfl, List.cons_append, List.filter_filter]
          congr 3
          apply List.filter_congr
          intro b _
          by_cases same : key b = key a
          · simp [same]
          · have listed : key b ∈ (l.filter fun b => (key b == key a) = false).map key ↔
                key b ∈ l.map key := by
              constructor
              · exact fun member => (List.filter_sublist.map key).subset member
              · intro member
                obtain ⟨c, inside, equal⟩ := List.mem_map.mp member
                have kept : key c ≠ key a := fun other => same (equal.symm.trans other)
                exact List.mem_map.mpr ⟨c, List.mem_filter.mpr ⟨inside, by simpa using kept⟩, equal⟩
            rw [Bool.eq_iff_iff, Bool.and_eq_true, decide_eq_true_iff, decide_eq_true_iff,
              decide_eq_true_iff, listed, List.map_cons, List.mem_cons]
            simp [same]

theorem firstsBy_concat (l : List α) (a : α) :
    firstsBy key (l ++ [a]) = firstsBy key l ++ if key a ∈ l.map key then [] else [a] := by
  rw [firstsBy_append]
  by_cases known : key a ∈ l.map key
  · rw [if_pos known, List.filter_cons_of_neg (by simpa using known)]
    rfl
  · rw [if_neg known, List.filter_cons_of_pos (by simpa using known)]
    rfl

theorem firstsBy_map (g : β → α) (l : List β) :
    firstsBy key (l.map g) = (firstsBy (fun b => key (g b)) l).map g := by
  induction l using List.reverseRecOn with
  | nil => rfl
  | append_singleton l b ih =>
      rw [List.map_append, List.map_singleton, firstsBy_concat, firstsBy_concat, ih,
        List.map_append, List.map_map]
      congr 1
      by_cases known : key (g b) ∈ l.map fun b => key (g b)
      · rw [if_pos known]
        exact if_pos known
      · rw [if_neg known]
        exact if_neg known

theorem mem_keys_firstsBy {l : List α} {k : String} :
    k ∈ (firstsBy key l).map key ↔ k ∈ l.map key := by
  induction l using List.reverseRecOn with
  | nil => rfl
  | append_singleton l b ih =>
      rw [firstsBy_concat, List.map_append, List.map_append, List.mem_append, List.mem_append, ih]
      by_cases known : key b ∈ l.map key
      · rw [if_pos known]
        simp only [List.map_nil, List.not_mem_nil, or_false, List.map_singleton,
          List.mem_singleton, iff_self_or]
        rintro rfl
        exact known
      · rw [if_neg known]

theorem nodup_keys_firstsBy (l : List α) : ((firstsBy key l).map key).Nodup := by
  induction l using List.reverseRecOn with
  | nil => exact List.nodup_nil
  | append_singleton l b ih =>
      rw [firstsBy_concat, List.map_append]
      by_cases known : key b ∈ l.map key
      · rw [if_pos known]
        simpa using ih
      · rw [if_neg known]
        exact List.nodup_append_comm.mpr (List.nodup_cons.mpr
          ⟨fun member => known ((mem_keys_firstsBy key).mp member), ih⟩)

theorem firstsBy_of_nodup {l : List α} (distinct : (l.map key).Nodup) : firstsBy key l = l := by
  induction l using List.reverseRecOn with
  | nil => rfl
  | append_singleton l b ih =>
      rw [List.map_append, List.nodup_append] at distinct
      have new : key b ∉ l.map key :=
        fun member => distinct.2.2 _ member _ (List.mem_singleton_self _) rfl
      rw [firstsBy_concat, ih distinct.1, if_neg new]

theorem mem_of_mem_firstsBy {l : List α} {a : α} (member : a ∈ firstsBy key l) : a ∈ l := by
  induction l using List.reverseRecOn with
  | nil => cases member
  | append_singleton l b ih =>
      rw [firstsBy_concat, List.mem_append] at member
      rcases member with member | member
      · exact List.mem_append_left _ (ih member)
      · split at member
        · cases member
        · exact List.mem_append_right _ member

theorem firstsBy_congr {key' : α → String} {l : List α} (same : ∀ a ∈ l, key a = key' a) :
    firstsBy key l = firstsBy key' l := by
  induction l using List.reverseRecOn with
  | nil => rfl
  | append_singleton l b ih =>
      have before : ∀ a ∈ l, key a = key' a :=
        fun a member => same a (List.mem_append_left _ member)
      rw [firstsBy_concat, firstsBy_concat, ih before, List.map_congr_left before,
        same b (by simp)]

/-- Leaving out repetitions before looking for first elements makes no difference. -/
theorem firstsBy_eraseDups [DecidableEq α] (l : List α) :
    firstsBy key l.eraseDups = firstsBy key l := by
  induction l using List.reverseRecOn with
  | nil => rfl
  | append_singleton l b ih =>
      rw [eraseDups_concat, firstsBy_append, firstsBy_append, ih]
      congr 1
      by_cases known : b ∈ l
      · have listed : key b ∈ l.map key := List.mem_map_of_mem known
        rw [if_pos known, List.filter_cons_of_neg (by simpa using listed)]
        rfl
      · rw [if_neg known]
        simp [List.mem_eraseDups]

/-- What is asked of keys only can be asked before or after. -/
theorem firstsBy_filter (p : String → Bool) (l : List α) :
    firstsBy key (l.filter fun a => p (key a)) = (firstsBy key l).filter fun a => p (key a) := by
  induction l using List.reverseRecOn with
  | nil => rfl
  | append_singleton l b ih =>
      rw [List.filter_append, firstsBy_concat, List.filter_append, ← ih]
      by_cases kept : p (key b) = true
      · have single : [b].filter (fun a => p (key a)) = [b] := List.filter_cons_of_pos kept
        have listed : key b ∈ (l.filter fun a => p (key a)).map key ↔ key b ∈ l.map key := by
          constructor
          · exact fun member => (List.filter_sublist.map key).subset member
          · intro member
            obtain ⟨a, inside, same⟩ := List.mem_map.mp member
            exact List.mem_map.mpr ⟨a, List.mem_filter.mpr ⟨inside, same ▸ kept⟩, same⟩
        simp only [single, firstsBy_concat, listed]
        split
        · rfl
        · rw [single]
      · have none : [b].filter (fun a => p (key a)) = [] := List.filter_cons_of_neg kept
        rw [none, List.append_nil]
        split
        · exact (List.append_nil _).symm
        · rw [none, List.append_nil]

theorem find?_of_mem_firstsBy {l : List α} {a : α} (first : a ∈ firstsBy key l) :
    l.find? (fun b => key b == key a) = some a := by
  induction l using List.reverseRecOn with
  | nil => cases first
  | append_singleton l b ih =>
      rw [firstsBy_concat, List.mem_append] at first
      rw [List.find?_append]
      rcases first with first | last
      · rw [ih first]
        rfl
      · split at last
        · cases last
        · next new =>
            obtain rfl := List.mem_singleton.mp last
            have none : l.find? (fun b => key b == key a) = none := by
              rw [List.find?_eq_none]
              intro b member same
              have same : key b = key a := by simpa using same
              exact new (same ▸ List.mem_map_of_mem member)
            rw [none]
            simp

theorem eraseDups_map (l : List α) : (l.map key).eraseDups = (firstsBy key l).map key :=
  firstsBy_map id key l

end

/-! ## By a key -/

section

variable {α β : Type} {f : α → String} {l : List α}

theorem exists_firstsBy {k : String} (known : k ∈ l.map f) : ∃ a ∈ firstsBy f l, f a = k :=
  List.mem_map.mp ((mem_keys_firstsBy f).mpr known)

theorem filter_key_eq_nil {k : String} (new : k ∉ l.map f) : (l.filter fun a => f a == k) = [] := by
  rw [List.filter_eq_nil_iff]
  intro a member same
  exact new (List.mem_map.mpr ⟨a, member, beq_iff_eq.mp same⟩)

/-- In a list with distinct values there is one element with a value of it. -/
theorem filter_eq_singleton {a : α} (distinct : (l.map f).Nodup) (member : a ∈ l) :
    (l.filter fun b => f b == f a) = [a] := by
  induction l with
  | nil => cases member
  | cons b l ih =>
      obtain ⟨apart, distinct⟩ := List.nodup_cons.mp distinct
      rcases List.mem_cons.mp member with rfl | member
      · rw [List.filter_cons_of_pos (by simp), filter_key_eq_nil apart]
      · have different : f b ≠ f a := fun same => apart (same ▸ List.mem_map_of_mem member)
        rw [List.filter_cons_of_neg (by simpa using different), ih distinct member]

theorem length_filter_key_le_one (distinct : (l.map f).Nodup) (k : String) :
    (l.filter fun a => f a == k).length ≤ 1 := by
  by_cases known : k ∈ l.map f
  · obtain ⟨a, member, rfl⟩ := List.mem_map.mp known
    rw [filter_eq_singleton distinct member]
    exact Nat.le_refl 1
  · rw [filter_key_eq_nil known]
    exact Nat.zero_le 1

/-- Where elements give rise to elements that are kept if they are, those of the kept ones are
kept. -/
theorem filter_flatMap_own {g : α → List β} {p : β → Bool} {q : α → Bool}
    (own : ∀ a, ∀ b ∈ g a, p b = q a) (l : List α) :
    (l.flatMap g).filter p = (l.filter q).flatMap g := by
  induction l with
  | nil => rfl
  | cons a l ih =>
      rw [List.flatMap_cons, List.filter_append, ih]
      by_cases kept : q a = true
      · have all : (g a).filter p = g a :=
          List.filter_eq_self.mpr fun b member => (own a b member).trans kept
        rw [all, List.filter_cons_of_pos kept, List.flatMap_cons]
      · have none : (g a).filter p = [] :=
          List.filter_eq_nil_iff.mpr fun b member => own a b member ▸ kept
        rw [none, List.filter_cons_of_neg kept, List.nil_append]

variable {g : α → List β} {f' : β → String} (own : ∀ a, ∀ b ∈ g a, f' b = f a)
include own

/-- Where elements give rise to elements of their own key, those of one key come from its elements. -/
theorem filter_flatMap_key (l : List α) (k : String) :
    (l.flatMap g).filter (fun b => f' b == k) = (l.filter fun a => f a == k).flatMap g :=
  filter_flatMap_own (fun a b member => by rw [own a b member]) l

/-- Where every element gives rise to some, the keys come in the order of the elements. -/
theorem eraseDups_flatMap_key (some : ∀ a, g a ≠ []) (distinct : (l.map f).Nodup) :
    ((l.flatMap g).map f').eraseDups = l.map f := by
  induction l with
  | nil => rfl
  | cons a l ih =>
      obtain ⟨apart, distinct⟩ := List.nodup_cons.mp distinct
      have first : ((g a).map f').eraseDups = [f a] := by
        obtain ⟨b, rest, split⟩ := List.exists_cons_of_ne_nil (some a)
        have keys : ∀ k ∈ (b :: rest).map f', k = f a := by
          intro k member
          obtain ⟨c, inside, rfl⟩ := List.mem_map.mp member
          exact own a c (split ▸ inside)
        rw [List.map_cons, List.forall_mem_cons] at keys
        have others : ((rest.map f').filter fun k => !k == f' b) = [] := by
          rw [List.filter_eq_nil_iff]
          intro k member
          simp [keys.1, keys.2 k member]
        rw [split, List.map_cons, List.eraseDups_cons, others, keys.1]
        rfl
      have later : ((l.flatMap g).map f').removeAll ((g a).map f') = (l.flatMap g).map f' := by
        rw [List.removeAll, List.filter_eq_self]
        intro k member
        obtain ⟨b, inside, rfl⟩ := List.mem_map.mp member
        obtain ⟨a', listed, inside⟩ := List.mem_flatMap.mp inside
        rw [Bool.not_eq_true', List.elem_eq_contains, List.contains_eq_mem, decide_eq_false_iff_not]
        intro before
        obtain ⟨b', before, same⟩ := List.mem_map.mp before
        rw [own a b' before, own a' b inside] at same
        exact apart (List.mem_map.mpr ⟨a', listed, same.symm⟩)
      rw [List.flatMap_cons, List.map_append, List.eraseDups_append, first, later, ih distinct]
      rfl

end

end QueryBoard
