import Mathlib.Data.List.Forall2

/-!
# Computations that may fail

`FailsWith x P` says which errors a computation ends with: those that `P` holds of, and no error at
all when `P` holds of none.  `First P l` is the error of the first element of a list that has one,
which is how a computation over a list fails.
-/

set_option autoImplicit false

namespace QueryBoard

variable {α β ε : Type}

-- Not by definition, so that the steps of a computation stay apart when a proof is checked.
theorem ok_bind (a : α) (f : α → Except ε β) : (Except.ok a >>= f) = f a := (rfl)

theorem bind_of_eq_ok {x : Except ε α} {a : α} (success : x = .ok a) {f : α → Except ε β} :
    (x >>= f) = f a := by
  rw [success, ok_bind]

theorem pure_eq_ok (a : α) : (pure a : Except ε α) = .ok a := rfl

theorem map_ok (f : α → β) (a : α) : f <$> (Except.ok a : Except ε α) = .ok (f a) := rfl

theorem bind_eq_ok_iff {x : Except ε α} {f : α → Except ε β} {b : β} :
    (x >>= f) = .ok b ↔ ∃ a, x = .ok a ∧ f a = .ok b := by
  cases x with
  | error e => simp [bind, Except.bind]
  | ok a => simp [bind, Except.bind]

theorem mapError_eq_ok_iff {ε' : Type} {f : ε → ε'} {x : Except ε α} {a : α} :
    x.mapError f = .ok a ↔ x = .ok a := by
  cases x <;> simp [Except.mapError]

/-- What is computed of a result without loss tells the result. -/
theorem eq_of_map_eq {f : α → β} (injective : Function.Injective f) {x y : Except ε α}
    (same : f <$> x = f <$> y) : x = y := by
  cases x with
  | error e =>
      cases y with
      | error e' => exact congrArg Except.error (Except.error.inj same)
      | ok b => cases same
  | ok a =>
      cases y with
      | error e' => cases same
      | ok b => exact congrArg Except.ok (injective (Except.ok.inj same))

/-- What is computed of a result shows that there is one. -/
theorem exists_ok_of_toOption_map {g : α → β} {x : Except ε α} {b : β}
    (computed : x.toOption.map g = some b) : ∃ a, x = .ok a ∧ g a = b := by
  cases x with
  | error e => cases computed
  | ok a => exact ⟨a, rfl, Option.some.inj computed⟩

theorem mapM_eq_ok_iff {f : α → Except ε β} {l : List α} {bs : List β} :
    l.mapM f = .ok bs ↔ List.Forall₂ (fun a b => f a = .ok b) l bs := by
  induction l generalizing bs with
  | nil =>
      rw [List.forall₂_nil_left_iff]
      constructor <;> intro same <;> cases same <;> rfl
  | cons a l ih =>
      rw [List.mapM_cons, bind_eq_ok_iff, List.forall₂_cons_left_iff]
      constructor
      · rintro ⟨b, head, rest⟩
        obtain ⟨bs', tail, same⟩ := bind_eq_ok_iff.mp rest
        cases same
        exact ⟨b, bs', head, ih.mp tail, rfl⟩
      · rintro ⟨b, bs', head, tail, rfl⟩
        exact ⟨b, head, bind_eq_ok_iff.mpr ⟨bs', ih.mpr tail, rfl⟩⟩

theorem mapM_eq_ok_map {f : α → Except ε β} {g : α → β} {l : List α}
    (each : ∀ a ∈ l, f a = .ok (g a)) : l.mapM f = .ok (l.map g) := by
  rw [mapM_eq_ok_iff, List.forall₂_map_right_iff, List.forall₂_same]
  exact each

theorem mapM_congr {f g : α → Except ε β} {l : List α} (same : ∀ a ∈ l, f a = g a) :
    l.mapM f = l.mapM g := by
  induction l with
  | nil => rfl
  | cons a l ih =>
      rw [List.mapM_cons, List.mapM_cons, same a (by simp),
        ih fun a' member => same a' (by simp [member])]

theorem mapM_map {γ : Type} (g : β → γ) (f : α → Except ε β) (l : List α) :
    l.mapM (fun a => g <$> f a) = (·.map g) <$> l.mapM f := by
  induction l with
  | nil => rfl
  | cons a l ih =>
      rw [List.mapM_cons, List.mapM_cons, ih]
      cases f a with
      | error e => rfl
      | ok b => cases l.mapM f <;> rfl

theorem mapM_mapError {ε' : Type} (g : ε → ε') (f : α → Except ε β) (l : List α) :
    l.mapM (fun a => (f a).mapError g) = (l.mapM f).mapError g := by
  induction l with
  | nil => rfl
  | cons a l ih =>
      rw [List.mapM_cons, List.mapM_cons, ih]
      cases f a with
      | error e => rfl
      | ok b => cases l.mapM f <;> rfl

theorem exists_of_mem_forall₂ {R : α → β → Prop} {l : List α} {bs : List β}
    (related : List.Forall₂ R l bs) : ∀ b ∈ bs, ∃ a ∈ l, R a b := by
  intro b member
  induction related with
  | nil => cases member
  | @cons a _ l _ head tail ih =>
      rcases List.mem_cons.mp member with rfl | member
      · exact ⟨a, by simp, head⟩
      · obtain ⟨a', inside, of⟩ := ih member
        exact ⟨a', by simp [inside], of⟩

theorem forall₂_eq_iff {γ : Type} {f : α → γ} {g : β → γ} {l : List α} {bs : List β} :
    List.Forall₂ (fun a b => f a = g b) l bs ↔ l.map f = bs.map g := by
  have same := congrFun (congrFun (List.forall₂_eq_eq_eq (α := γ)) (l.map f)) (bs.map g)
  rw [List.forall₂_map_left_iff, List.forall₂_map_right_iff] at same
  exact Iff.of_eq same

theorem forall₂_mem {R : α → β → Prop} {l : List α} {bs : List β}
    (related : List.Forall₂ R l bs) :
    List.Forall₂ (fun a b => R a b ∧ a ∈ l ∧ b ∈ bs) l bs := by
  induction related with
  | nil => exact .nil
  | cons head _ ih =>
      refine .cons ⟨head, by simp, by simp⟩ (ih.imp fun a b both => ?_)
      obtain ⟨of, inside, inside'⟩ := both
      exact ⟨of, List.mem_cons_of_mem _ inside, List.mem_cons_of_mem _ inside'⟩

theorem exists_eq_singleton {R : α → β → Prop} {l : List α} {b : β}
    (related : List.Forall₂ R l [b]) : ∃ a, l = [a] ∧ R a b := by
  obtain ⟨a, rest, same, none, one⟩ := List.forall₂_cons_right_iff.mp related
  rw [List.forall₂_nil_right_iff.mp none] at one
  exact ⟨a, one, same⟩

theorem exists_of_mem_mapM {f : α → Except ε β} {l : List α} {bs : List β}
    (success : l.mapM f = .ok bs) : ∀ b ∈ bs, ∃ a ∈ l, f a = .ok b :=
  exists_of_mem_forall₂ (mapM_eq_ok_iff.mp success)

/-- What is asked of results can be asked before. -/
theorem mapM_filter {f : α → Except ε β} {p : α → Bool} {q : β → Bool}
    (same : ∀ a b, f a = .ok b → q b = p a) {l : List α} {bs : List β}
    (success : l.mapM f = .ok bs) : (l.filter p).mapM f = .ok (bs.filter q) := by
  induction mapM_eq_ok_iff.mp success with
  | nil => rfl
  | @cons a b l bs head tail ih =>
      have rest := ih (mapM_eq_ok_iff.mpr tail)
      by_cases kept : p a = true
      · rw [List.filter_cons_of_pos kept, List.filter_cons_of_pos (by rw [same a b head, kept]),
          List.mapM_cons, head, ok_bind, rest, ok_bind]
        rfl
      · rw [List.filter_cons_of_neg kept, List.filter_cons_of_neg (by rwa [same a b head]), rest]

theorem exists_mapM {f : α → Except ε β} {l : List α} (each : ∀ a ∈ l, ∃ b, f a = .ok b) :
    ∃ bs, l.mapM f = .ok bs := by
  induction l with
  | nil => exact ⟨[], rfl⟩
  | cons a l ih =>
      obtain ⟨b, head⟩ := each a (by simp)
      obtain ⟨bs, tail⟩ := ih fun a' member => each a' (by simp [member])
      exact ⟨b :: bs, mapM_eq_ok_iff.mpr (List.Forall₂.cons head (mapM_eq_ok_iff.mp tail))⟩

/-- Where there is only one error to fail with, one failing element is enough. -/
theorem mapM_eq_error {f : α → Except ε β} {e : ε} {l : List α}
    (single : ∀ a ∈ l, ∀ e', f a = .error e' → e' = e) {a : α} (member : a ∈ l)
    (fault : f a = .error e) : l.mapM f = .error e := by
  induction l with
  | nil => cases member
  | cons b l ih =>
      rw [List.mapM_cons]
      cases head : f b with
      | error e' =>
          rw [single b (by simp) e' head]
          rfl
      | ok c =>
          rcases List.mem_cons.mp member with rfl | member
          · rw [fault] at head
            cases head
          · rw [ok_bind, ih (fun a inside => single a (by simp [inside])) member]
            rfl

theorem map_eq_of_mapM {γ : Type} {f : α → Except ε β} {g : α → γ} {h : β → γ}
    (same : ∀ a b, f a = .ok b → h b = g a) {l : List α} {bs : List β}
    (success : l.mapM f = .ok bs) : bs.map h = l.map g := by
  induction mapM_eq_ok_iff.mp success with
  | nil => rfl
  | @cons a b l bs head tail ih =>
      rw [List.map_cons, List.map_cons, same a b head, ih (mapM_eq_ok_iff.mpr tail)]

/-- The errors of a computation are those of a predicate. -/
def FailsWith (x : Except ε α) (P : ε → Prop) : Prop := ∀ e, x = .error e ↔ P e

def First (P : α → ε → Prop) (l : List α) (e : ε) : Prop :=
  ∃ before a after, l = before ++ a :: after ∧ (∀ b ∈ before, ∀ e', ¬ P b e') ∧ P a e

namespace First

variable {P : α → ε → Prop} {e : ε}

theorem nil_iff : First P [] e ↔ False := by
  constructor
  · rintro ⟨before, a, after, same, _, _⟩
    simp at same
  · exact False.elim

theorem cons_iff {a : α} {l : List α} :
    First P (a :: l) e ↔ P a e ∨ (∀ e', ¬ P a e') ∧ First P l e := by
  constructor
  · rintro ⟨before, b, after, same, clean, fault⟩
    cases before with
    | nil =>
        cases same
        exact Or.inl fault
    | cons c before =>
        cases same
        exact Or.inr ⟨clean a (by simp), before, b, after, rfl,
          fun d member => clean d (by simp [member]), fault⟩
  · rintro (fault | ⟨cleanHead, before, b, after, same, clean, fault⟩)
    · exact ⟨[], a, l, rfl, by simp, fault⟩
    · refine ⟨a :: before, b, after, by simp [same], ?_, fault⟩
      intro d member
      rcases List.mem_cons.mp member with rfl | member
      · exact cleanHead
      · exact clean d member

theorem append_iff {l m : List α} :
    First P (l ++ m) e ↔ First P l e ∨ (∀ a ∈ l, ∀ e', ¬ P a e') ∧ First P m e := by
  induction l with
  | nil => simp [nil_iff]
  | cons a l ih =>
      rw [List.cons_append, cons_iff, cons_iff, ih]
      simp only [List.mem_cons, forall_eq_or_imp]
      constructor
      · rintro (fault | ⟨clean, fault | ⟨cleanAll, fault⟩⟩)
        · exact Or.inl (Or.inl fault)
        · exact Or.inl (Or.inr ⟨clean, fault⟩)
        · exact Or.inr ⟨⟨clean, cleanAll⟩, fault⟩
      · rintro ((fault | ⟨clean, fault⟩) | ⟨⟨clean, cleanAll⟩, fault⟩)
        · exact Or.inl fault
        · exact Or.inr ⟨clean, Or.inl fault⟩
        · exact Or.inr ⟨clean, Or.inr ⟨cleanAll, fault⟩⟩

theorem map_iff {γ : Type} {f : γ → α} {l : List γ} :
    First P (l.map f) e ↔ First (fun c => P (f c)) l e := by
  induction l with
  | nil => rw [List.map_nil, nil_iff, nil_iff]
  | cons c l ih => rw [List.map_cons, cons_iff, cons_iff, ih]

/-- The first element with an error decides which error it is. -/
theorem unique (single : ∀ a e e', P a e → P a e' → e = e') {l : List α} {e' : ε}
    (one : First P l e) (other : First P l e') : e = e' := by
  induction l with
  | nil => exact (nil_iff.mp one).elim
  | cons a l ih =>
      rcases cons_iff.mp one with fault | ⟨clean, fault⟩
      · rcases cons_iff.mp other with fault' | ⟨clean', _⟩
        · exact single a e e' fault fault'
        · exact absurd fault (clean' e)
      · rcases cons_iff.mp other with fault' | ⟨_, fault'⟩
        · exact absurd fault' (clean e')
        · exact ih fault fault'

end First

theorem none_first_iff {P : α → ε → Prop} {l : List α} :
    (∀ e, ¬ First P l e) ↔ ∀ a ∈ l, ∀ e, ¬ P a e := by
  induction l with
  | nil => simp [First.nil_iff]
  | cons a l ih =>
      simp only [First.cons_iff, List.mem_cons, forall_eq_or_imp, ← ih]
      constructor
      · intro clean
        have head : ∀ e, ¬ P a e := fun e fault => clean e (Or.inl fault)
        exact ⟨head, fun e fault => clean e (Or.inr ⟨head, fault⟩)⟩
      · rintro ⟨head, tail⟩ e (fault | ⟨_, fault⟩)
        · exact head e fault
        · exact tail e fault

namespace FailsWith

variable {x : Except ε α} {P Q : ε → Prop}

theorem ok_iff (fails : FailsWith x P) : (∃ a, x = .ok a) ↔ ∀ e, ¬ P e := by
  cases x with
  | ok a =>
      refine ⟨fun _ e fault => ?_, fun _ => ⟨a, rfl⟩⟩
      cases (fails e).mpr fault
  | error e =>
      refine ⟨?_, fun clean => absurd ((fails e).mp rfl) (clean e)⟩
      rintro ⟨a, same⟩
      cases same

theorem unique (fails : FailsWith x P) {e e' : ε} (one : P e) (other : P e') : e = e' := by
  have left := (fails e).mpr one
  rw [(fails e').mpr other] at left
  cases left
  rfl

theorem congr (fails : FailsWith x P) (same : ∀ e, P e ↔ Q e) : FailsWith x Q :=
  fun e => (fails e).trans (same e)

theorem ok (a : α) : FailsWith (.ok a : Except ε α) fun _ => False := by
  intro e
  constructor <;> intro impossible <;> cases impossible

theorem error (e : ε) : FailsWith (.error e : Except ε α) fun e' => e' = e := by
  intro e'
  constructor <;> intro same <;> cases same <;> rfl

/-- The one error that a predicate holds of. -/
theorem error_of {e : ε} (fault : P e) (single : ∀ e', P e' → e' = e) :
    FailsWith (.error e : Except ε α) P := by
  refine (error e).congr fun e' => ⟨?_, single e'⟩
  rintro rfl
  exact fault

/-- A second computation fails only after the first has not. -/
theorem bind (first : FailsWith x P) {f : α → Except ε β}
    (second : ∀ a, x = .ok a → FailsWith (f a) Q) :
    FailsWith (x >>= f) fun e => P e ∨ (∀ e', ¬ P e') ∧ Q e := by
  intro e
  cases x with
  | error e' =>
      have fault : P e' := (first e').mp rfl
      constructor
      · intro same
        cases same
        exact Or.inl fault
      · rintro (other | ⟨clean, _⟩)
        · rw [first.unique other fault]
          rfl
        · exact absurd fault (clean e')
  | ok a =>
      have clean : ∀ e', ¬ P e' := first.ok_iff.mp ⟨a, rfl⟩
      have rest : f a = .error e ↔ Q e := second a rfl e
      constructor
      · intro fails
        exact Or.inr ⟨clean, rest.mp fails⟩
      · rintro (fault | ⟨_, fault⟩)
        · exact absurd fault (clean e)
        · exact rest.mpr fault

theorem map (first : FailsWith x P) (f : α → β) : FailsWith (f <$> x) P := by
  intro e
  cases x with
  | error e' =>
      rw [← first e]
      constructor <;> intro same <;> cases same <;> rfl
  | ok a =>
      rw [← first e]
      constructor <;> intro impossible <;> cases impossible

theorem mapM {f : α → Except ε β} {R : α → ε → Prop} (each : ∀ a, FailsWith (f a) (R a)) :
    ∀ l : List α, FailsWith (l.mapM f) (First R l) := by
  intro l
  induction l with
  | nil => exact (ok _).congr fun e => First.nil_iff.symm
  | cons a l ih =>
      rw [List.mapM_cons]
      have tail := (each a).bind fun b _ => ih.map (fun bs => b :: bs)
      exact tail.congr fun e => First.cons_iff.symm

theorem forM {f : α → Except ε PUnit} {R : α → ε → Prop} (each : ∀ a, FailsWith (f a) (R a)) :
    ∀ l : List α, FailsWith (l.forM f) (First R l) := by
  intro l
  induction l with
  | nil => exact (ok _).congr fun e => First.nil_iff.symm
  | cons a l ih =>
      have tail := (each a).bind fun _ _ => ih
      exact tail.congr fun e => First.cons_iff.symm

end FailsWith

end QueryBoard
