import QueryBoard.Proofs.Fallible
import QueryBoard.Store.Write
import Mathlib.Order.Defs.Unbundled

/-!
# Calls on the store

A call leaves a store also when it fails, so what holds of the store after a call has to hold of all
that the call may leave on its way.  `Leads R x s Q` says that `x` started in `s` only leaves a store
that stands in a relation `R` to `s`, and that `Q` holds of its result when it has one.
-/

set_option autoImplicit false

namespace QueryBoard.Store

variable {α β : Type}

def outcome (x : Writing α) (s : Store) : Except StoreError α × Store := Id.run (x.run.run s)

/-! ## The outcome of each step -/

theorem outcome_bind (x : Writing α) (f : α → Writing β) (s : Store) :
    outcome (x >>= f) s =
      match outcome x s with
      | (.ok a, s') => outcome (f a) s'
      | (.error e, s') => (.error e, s') := by
  unfold outcome
  rw [ExceptT.run_bind, StateT.run_bind]
  simp only [Id.run_bind]
  rcases (x.run.run s).run with ⟨_ | _, s'⟩ <;> rfl

theorem outcome_bind_ok {x : Writing α} {f : α → Writing β} {s s' : Store} {b : β} :
    outcome (x >>= f) s = (.ok b, s') ↔
      ∃ a s₁, outcome x s = (.ok a, s₁) ∧ outcome (f a) s₁ = (.ok b, s') := by
  rw [outcome_bind]
  rcases outcome x s with ⟨e | a, s₁⟩
  · simp
  · constructor
    · intro success
      exact ⟨a, s₁, rfl, success⟩
    · rintro ⟨_, _, same, success⟩
      cases same
      exact success

theorem outcome_attempt (change : Store → Except Db.DbError Store) (s : Store) :
    outcome (attempt change) s =
      match change s with
      | .ok s' => (.ok (), s')
      | .error e => (.error (.database e), s) := by
  have step : outcome (attempt change) s = outcome (match change s with
      | .ok s' => set s'
      | .error e => throw (.database e)) s := outcome_bind get _ s
  rw [step]
  cases change s <;> rfl

theorem outcome_attempt_ok {change : Store → Except Db.DbError Store} {s s' : Store} :
    outcome (attempt change) s = (.ok (), s') ↔ change s = .ok s' := by
  rw [outcome_attempt]
  cases change s <;> simp

theorem outcome_modify_ok {f : Store → Store} {s s' : Store} {u : Unit} :
    outcome (modify f) s = (.ok u, s') ↔ f s = s' := by
  have step : outcome (modify f) s = (.ok (), f s) := rfl
  rw [step]
  simp

theorem dropWidgets_ok {picked : StoredWidget → Bool} {s s' : Store}
    (success : s.dropWidgets picked = .ok s') : s' = s.removeWidgets picked := by
  unfold dropWidgets at success
  obtain ⟨_, _, same⟩ := bind_eq_ok_iff.mp success
  cases same
  rfl

section

variable {parent : String} {kept : List String} {s s' : Store}

theorem outcome_removeStale_refused {e : Db.DbError}
    (count : Db.checkParamCount (staleDelete parent kept).tokens = .error e) :
    outcome (removeStale parent kept) s =
      (.error (.query e ((staleDelete parent kept).tokens.text .sqlite)), s) := by
  dsimp only [removeStale]
  rw [count]
  rfl

theorem outcome_removeStale_taken
    (count : Db.checkParamCount (staleDelete parent kept).tokens = .ok ()) :
    outcome (removeStale parent kept) s = outcome (attempt (·.dropWidgets fun r =>
      r.parent == some parent && !kept.contains r.id)) s := by
  dsimp only [removeStale]
  rw [count]

/-- Where stale children are removed, all of them are. -/
theorem eq_of_outcome_removeStale {u : Unit}
    (success : outcome (removeStale parent kept) s = (.ok u, s')) :
    s' = s.removeWidgets fun r => r.parent == some parent && !kept.contains r.id := by
  cases count : Db.checkParamCount (staleDelete parent kept).tokens with
  | error e =>
      rw [outcome_removeStale_refused count] at success
      cases success
  | ok =>
      rw [outcome_removeStale_taken count, outcome_attempt_ok] at success
      exact dropWidgets_ok success

end

/-- Goes on only where something is stored under an id. -/
def require (stored : Store → Bool) (id : String) (rest : Writing α) : Writing α := do
  if !stored (← get) then throw (.notFound id)
  rest

theorem outcome_require (stored : Store → Bool) (id : String) (rest : Writing α) (s : Store) :
    outcome (require stored id rest) s =
      if stored s then outcome rest s else (.error (.notFound id), s) := by
  have step : outcome (require stored id rest) s = outcome
      (if !stored s then (throw (.notFound id) : Writing Unit) >>= fun _ => rest else rest) s :=
    outcome_bind get _ s
  rw [step]
  cases stored s
  · exact outcome_bind _ _ s
  · rfl

theorem outcome_require_ok {stored : Store → Bool} {id : String} {rest : Writing α} {s s' : Store}
    {a : α} : outcome (require stored id rest) s = (.ok a, s') ↔
      stored s = true ∧ outcome rest s = (.ok a, s') := by
  rw [outcome_require]
  cases stored s <;> simp

/-! ## What the calls do -/

theorem editWidget_eq (supply : Nat → String) (id name kind : String) (children : List Widget)
    (props query : Option Json) :
    editWidget supply ⟨id, name, kind, children, props, query⟩ = require (·.hasWidget id) id (do
      modify (·.changeWidget id fun r =>
        { r with name, kind, props := props.map Json.compact, query := query.map Json.compact })
      let kept ← editChildren supply id children
      removeStale id kept) := by
  rw [editWidget]
  rfl

def editChild (supply : Nat → String) (parent : String) (w : Widget) : Writing String :=
  if w.id.isEmpty then insertWidget supply (some parent) w
  else do
    editWidget supply w
    pure w.id

theorem editChildren_cons_eq (supply : Nat → String) (parent : String) (w : Widget)
    (rest : List Widget) :
    editChildren supply parent (w :: rest) = (do
      let id ← editChild supply parent w
      let ids ← editChildren supply parent rest
      pure (id :: ids)) := by
  rw [editChildren, editChild]
  by_cases empty : w.id.isEmpty = true
  · rw [if_pos empty, if_pos empty]
  · rw [if_neg empty, if_neg empty, bind_assoc]

theorem deleteWidget_eq (id : String) :
    deleteWidget id = require (·.hasWidget id) id (modify (·.removeWidgets (·.id == id))) := rfl

theorem editDashboard_eq (d : Dashboard) :
    editDashboard d = require (·.hasDashboard d.id) d.id (do
      modify (·.renameDashboard d.id d.name)
      modify (·.clearDashboard d.id)
      attempt (·.addPlacements (d.widgets.map (placement d.id)))) := rfl

theorem deleteDashboard_eq (id : String) :
    deleteDashboard id = require (·.hasDashboard id) id (modify (·.removeDashboard id)) := rfl

/-! ## Relations between stores -/

/-- Where a call leads from a store, and with which results. -/
structure Leads (R : Store → Store → Prop) (x : Writing α) (s : Store) (Q : α → Store → Prop) :
    Prop where
  store : R s (outcome x s).2
  result : ∀ a, (outcome x s).1 = .ok a → Q a (outcome x s).2

namespace Leads

variable {R : Store → Store → Prop} [IsPreorder Store R] {s : Store}
variable {Q : α → Store → Prop} {P : β → Store → Prop}

theorem pure {a : α} (holds : Q a s) : Leads R (pure a) s Q where
  store := refl_of R s
  result := by
    intro b same
    cases same
    exact holds

omit [IsPreorder Store R] in
theorem modify {f : Store → Store} {Q : Unit → Store → Prop} (step : R s (f s))
    (holds : Q () (f s)) : Leads R (modify f) s Q where
  store := step
  result := fun _ _ => holds

theorem bind {x : Writing α} {f : α → Writing β} (first : Leads R x s Q)
    (second : ∀ a s', R s s' → Q a s' → Leads R (f a) s' P) :
    Leads R (x >>= f) s P := by
  obtain ⟨store, result⟩ := first
  cases reached : outcome x s with
  | mk r s' =>
      rw [reached] at store result
      cases r with
      | error e =>
          have whole : outcome (x >>= f) s = (.error e, s') := by rw [outcome_bind, reached]
          refine ⟨by rw [whole]; exact store, fun b success => ?_⟩
          rw [whole] at success
          cases success
      | ok a =>
          have whole : outcome (x >>= f) s = outcome (f a) s' := by rw [outcome_bind, reached]
          obtain ⟨store', result'⟩ := second a s' store (result a rfl)
          rw [← whole] at store' result'
          exact ⟨trans_of R store store', result'⟩

theorem attempt {change : Store → Except Db.DbError Store} {Q : Unit → Store → Prop}
    (step : ∀ s', change s = .ok s' → R s s' ∧ Q () s') :
    Leads R (attempt change) s Q := by
  have whole := outcome_attempt change s
  cases changed : change s with
  | error e =>
      rw [changed] at whole
      refine ⟨by rw [whole]; exact refl_of R s, fun a success => ?_⟩
      rw [whole] at success
      cases success
  | ok s' =>
      rw [changed] at whole
      obtain ⟨store, result⟩ := step s' changed
      refine ⟨by rw [whole]; exact store, fun _ _ => ?_⟩
      rw [whole]
      exact result

/-- Stale children go as one change, or the store stays as it is. -/
theorem removeStale {parent : String} {kept : List String} {Q : Unit → Store → Prop}
    (step : R s (s.removeWidgets fun r => r.parent == some parent && !kept.contains r.id))
    (holds : Q () (s.removeWidgets fun r => r.parent == some parent && !kept.contains r.id)) :
    Leads R (removeStale parent kept) s Q := by
  cases count : Db.checkParamCount (staleDelete parent kept).tokens with
  | error e =>
      have whole := outcome_removeStale_refused (s := s) count
      refine ⟨by rw [whole]; exact refl_of R s, fun a success => ?_⟩
      rw [whole] at success
      cases success
  | ok =>
      obtain ⟨store, result⟩ : Leads R (Store.attempt (·.dropWidgets fun r =>
          r.parent == some parent && !kept.contains r.id)) s Q := by
        refine Leads.attempt fun s' success => ?_
        rw [dropWidgets_ok success]
        exact ⟨step, holds⟩
      rw [← outcome_removeStale_taken count] at store result
      exact ⟨store, result⟩

omit [IsPreorder Store R] in
theorem issue {supply : Nat → String} {Q : String → Store → Prop}
    (step : R s { s with issued := s.issued + 1 })
    (holds : Q (supply s.issued) { s with issued := s.issued + 1 }) :
    Leads R (issue supply) s Q where
  store := step
  result := by
    intro id same
    cases same
    exact holds

theorem require {stored : Store → Bool} {id : String} {rest : Writing α}
    (goesOn : stored s = true → Leads R rest s Q) : Leads R (require stored id rest) s Q := by
  have whole := outcome_require stored id rest s
  by_cases known : stored s = true
  · rw [if_pos known] at whole
    obtain ⟨store, result⟩ := goesOn known
    rw [← whole] at store result
    exact ⟨store, result⟩
  · rw [if_neg known] at whole
    refine ⟨by rw [whole]; exact refl_of R s, fun a success => ?_⟩
    rw [whole] at success
    cases success

end Leads

/-! ## Calls on widgets -/

/-- What has to hold of a relation for calls on widgets to keep to it. -/
structure WidgetSteps (R : Store → Store → Prop) : Prop where
  issue : ∀ s : Store, R s { s with issued := s.issued + 1 }
  add : ∀ (s s' : Store) (row : StoredWidget), s.addWidget row = .ok s' → R s s'
  change : ∀ (s : Store) (id : String) (change : StoredWidget → StoredWidget),
    R s (s.changeWidget id change)
  remove : ∀ (s : Store) (picked : StoredWidget → Bool), R s (s.removeWidgets picked)

namespace WidgetSteps

variable {supply : Nat → String} {R : Store → Store → Prop} [IsPreorder Store R]

mutual

theorem insertWidget (steps : WidgetSteps R) :
    (w : Widget) → (parent : Option String) → (s : Store) →
    Leads R (Store.insertWidget supply parent w) s fun _ _ => True
  | ⟨_, name, kind, children, props, query⟩, parent, s => by
      rw [Store.insertWidget]
      refine (Leads.issue (Q := fun _ _ => True) (steps.issue s) trivial).bind fun id s₁ _ _ => ?_
      refine Leads.bind (Leads.attempt (Q := fun _ _ => True) fun s₂ success =>
        ⟨steps.add s₁ s₂ _ success, trivial⟩) fun _ s₂ _ _ => ?_
      exact (insertChildren steps children id s₂).bind fun _ _ _ _ => Leads.pure trivial

theorem insertChildren (steps : WidgetSteps R) :
    (ws : List Widget) → (parent : String) → (s : Store) →
    Leads R (Store.insertChildren supply parent ws) s fun _ _ => True
  | [], parent, s => by
      rw [Store.insertChildren]
      exact Leads.pure trivial
  | w :: rest, parent, s => by
      rw [Store.insertChildren]
      exact (insertWidget steps w (some parent) s).bind fun _ s₁ _ _ =>
        insertChildren steps rest parent s₁

end

mutual

theorem editWidget (steps : WidgetSteps R) : (w : Widget) → (s : Store) →
    Leads R (Store.editWidget supply w) s fun _ _ => True
  | ⟨id, name, kind, children, props, query⟩, s => by
      rw [editWidget_eq]
      refine Leads.require fun _ => ?_
      refine (Leads.modify (Q := fun _ _ => True) (steps.change s id _) trivial).bind
        fun _ s₁ _ _ => ?_
      refine (editChildren steps children id s₁).bind fun kept s₂ _ _ => ?_
      exact Leads.removeStale (steps.remove s₂ _) trivial

theorem editChildren (steps : WidgetSteps R) :
    (ws : List Widget) → (parent : String) → (s : Store) →
    Leads R (Store.editChildren supply parent ws) s fun _ _ => True
  | [], parent, s => by
      rw [Store.editChildren]
      exact Leads.pure trivial
  | w :: rest, parent, s => by
      have first : Leads R (editChild supply parent w) s fun _ _ => True := by
        unfold editChild
        split
        · exact steps.insertWidget w (some parent) s
        · exact (editWidget steps w s).bind fun _ _ _ _ => Leads.pure trivial
      rw [editChildren_cons_eq]
      refine first.bind fun _ s₁ _ _ => ?_
      exact (editChildren steps rest parent s₁).bind fun _ _ _ _ => Leads.pure trivial

end

theorem deleteWidget (steps : WidgetSteps R) (id : String) (s : Store) :
    Leads R (Store.deleteWidget id) s fun _ _ => True := by
  rw [deleteWidget_eq]
  exact Leads.require fun _ => Leads.modify (steps.remove s _) trivial

end WidgetSteps

/-! ## Runs -/

inductive Call where
  | createWidget (w : Widget)
  | editWidget (w : Widget)
  | deleteWidget (id : String)
  | createDashboard (d : Dashboard)
  | editDashboard (d : Dashboard)
  | deleteDashboard (id : String)

/-- The store that a call leaves, whether it succeeds or fails. -/
def Call.after (supply : Nat → String) (s : Store) : Call → Store
  | .createWidget w => (outcome (Store.createWidget supply w) s).2
  | .editWidget w => (outcome (Store.editWidget supply w) s).2
  | .deleteWidget id => (outcome (Store.deleteWidget id) s).2
  | .createDashboard d => (outcome (Store.createDashboard supply d) s).2
  | .editDashboard d => (outcome (Store.editDashboard d) s).2
  | .deleteDashboard id => (outcome (Store.deleteDashboard id) s).2

def run (supply : Nat → String) (calls : List Call) : Store := calls.foldl (Call.after supply) {}

end QueryBoard.Store
