import QueryBoard.Proofs.Fallible
import QueryBoard.Source.Service
import Mathlib

/-!
# Sources do not see each other

Whatever is asked of a source, only the storage behind its connection can change.  So a source is
answered as if the requests to other storages had not been there, and the order of requests to
different storages makes no difference.  Two ids can lead to one storage, and then each sees what is
written through the other.
-/

set_option autoImplicit false

namespace QueryBoard.Sources

variable {s t : Sources} {id : String}

/-! ## Ids that lead to one storage -/

/-- Where the storage is that an id leads to. -/
def place? (s : Sources) (id : String) : Option Nat := (s.handles.lookup id).map (·.storage)

/-- Whether two ids are the same or lead to one storage. -/
def Near (s : Sources) (a b : String) : Prop :=
  a = b ∨ (s.place? a).isSome = true ∧ s.place? a = s.place? b

instance (s : Sources) (a b : String) : Decidable (s.Near a b) :=
  inferInstanceAs (Decidable (_ ∨ _))

/-- Whether no two ids lead to one storage. -/
def Apart (s : Sources) : Prop := ∀ a b, s.Near a b → a = b

theorem near_congr (same : t.handles = s.handles) (a b : String) : t.Near a b ↔ s.Near a b := by
  unfold Near place?
  rw [same]

theorem Near.place?_eq {a b : String} (near : s.Near a b) : s.place? a = s.place? b := by
  rcases near with same | ⟨_, same⟩
  · rw [same]
  · exact same

theorem exists_handle {i : Nat} (found : s.place? id = some i) :
    ∃ h, (id, h) ∈ s.handles ∧ h.storage = i := by
  obtain ⟨h, known, leads⟩ := Option.map_eq_some_iff.mp found
  obtain ⟨before, after, split, _⟩ := List.lookup_eq_some_iff.mp known
  exact ⟨h, by simp [split], leads⟩

theorem apart_of_nodup (distinct : (s.handles.map (·.2.storage)).Nodup) : s.Apart := by
  intro a b near
  rcases near with same | ⟨placed, same⟩
  · exact same
  · obtain ⟨i, placed⟩ := Option.isSome_iff_exists.mp placed
    obtain ⟨g, first, leads⟩ := exists_handle placed
    obtain ⟨h, second, leads'⟩ := exists_handle (same ▸ placed)
    have equal := List.inj_on_of_nodup_map distinct first second (leads.trans leads'.symm)
    exact congrArg Prod.fst equal

/-! ## Opening sources -/

theorem lookup_cons_eq (k j : String) (h : Handle) (l : List (String × Handle)) :
    List.lookup k ((j, h) :: l) = if k = j then some h else l.lookup k := by
  rw [List.lookup_cons]
  by_cases same : k = j
  · rw [if_pos same, same, beq_self_eq_true]
  · rw [if_neg same, beq_false_of_ne same]

theorem lookup_putSorted (id k : String) (h : Handle) (l : List (String × Handle)) :
    (putSorted id h l).lookup k = if k = id then some h else l.lookup k := by
  induction l with
  | nil => exact lookup_cons_eq k id h []
  | cons e rest ih =>
      obtain ⟨j, g⟩ := e
      rw [putSorted]
      split
      · next first =>
          subst first
          rw [lookup_cons_eq, lookup_cons_eq]
          split <;> rfl
      · next other =>
          split
          · rw [lookup_cons_eq]
          · rw [lookup_cons_eq, lookup_cons_eq, ih]
            by_cases first : k = j
            · rw [if_pos first, if_pos first, if_neg fun same => other (same.symm.trans first)]
            · rw [if_neg first, if_neg first]

theorem place?_put (s : Sources) (id k : String) (h : Handle) :
    (s.put id h).place? k = if k = id then some h.storage else s.place? k := by
  unfold place? put
  rw [lookup_putSorted]
  split <;> rfl

/-- A new connection leads to what others to the same target lead to, or else to a storage of its
own. -/
theorem connect_cases {disk : Disk} {name : String} {h : Handle}
    (success : s.connect disk name = .ok (h, t)) :
    ∃ a target, disk.target name = .ok (a, target) ∧
      (s.opened? target = some h.storage ∧ t = s ∨
        ∃ storage, s.opened? target = none ∧ h.storage = s.storages.length ∧
          t = { s with
            storages := s.storages ++ [storage]
            targets := (target, s.storages.length) :: s.targets }) := by
  obtain ⟨⟨a, target⟩, led, success⟩ := bind_eq_ok_iff.mp success
  refine ⟨a, target, led, ?_⟩
  dsimp only at success
  cases known : s.opened? target with
  | some i =>
      rw [known] at success
      cases success
      exact Or.inl ⟨rfl, rfl⟩
  | none =>
      rw [known] at success
      obtain ⟨storage, _, same⟩ := bind_eq_ok_iff.mp success
      cases same
      exact Or.inr ⟨storage, rfl, rfl, rfl⟩

theorem openPath_ok {disk : Disk} {path : String} (success : s.openPath disk id path = .ok t) :
    ∃ h s', s.connect disk path = .ok (h, s') ∧ t = s'.put id h := by
  unfold openPath at success
  split at success
  · next h s' connected =>
      cases success
      exact ⟨h, s', connected, rfl⟩
  · cases success

/-- Whether every connection leads to a storage that is there. -/
def Placed (s : Sources) : Prop := ∀ id i, s.place? id = some i → i < s.storages.length

/-- Sources stay apart when one is opened that no connection leads to yet. -/
theorem apart_openPath (placed : s.Placed) (apart : s.Apart) {disk : Disk} {path : String}
    (success : s.openPath disk id path = .ok t)
    (new : ∀ a target, disk.target path = .ok (a, target) → s.opened? target = none) :
    t.Placed ∧ t.Apart := by
  obtain ⟨h, s', connected, rfl⟩ := openPath_ok success
  obtain ⟨a, target, led, ⟨known, _⟩ | ⟨storage, _, fresh, same⟩⟩ := connect_cases connected
  · rw [new a target led] at known
    cases known
  · have place (k : String) : (s'.put id h).place? k =
        if k = id then some s.storages.length else s.place? k := by
      rw [place?_put, fresh, same]
      rfl
    have length : (s'.put id h).storages.length = s.storages.length + 1 := by
      rw [same]
      exact List.length_append
    have other {k : String} (found : s.place? k = some s.storages.length) : False :=
      Nat.lt_irrefl _ (placed k _ found)
    constructor
    · intro k i found
      rw [place] at found
      split at found
      · cases found
        omega
      · have := placed k i found
        omega
    · rintro c d (equal | ⟨known, equal⟩)
      · exact equal
      · rw [place, place] at equal
        rw [place] at known
        by_cases first : c = id
        · by_cases second : d = id
          · rw [first, second]
          · rw [if_pos first, if_neg second] at equal
            exact (other equal.symm).elim
        · rw [if_neg first] at equal known
          by_cases second : d = id
          · rw [if_pos second] at equal
            exact (other equal).elim
          · rw [if_neg second] at equal
            exact apart c d (Or.inr ⟨known, equal⟩)

theorem lookup_of_opened? {target : Disk.Target} {i : Nat} (known : s.opened? target = some i) :
    s.targets.lookup target = some i := by
  unfold opened? at known
  split at known
  · exact known
  · next found =>
      split at known
      · rw [found, known]
      · cases known
  · cases known
  · cases known

theorem opened?_of_lookup {target : Disk.Target} {i : Nat} (common : target ≠ .own)
    (found : s.targets.lookup target = some i) (held : s.place? id = some i) :
    s.opened? target = some i := by
  obtain ⟨h, member, leads⟩ := exists_handle held
  have some : s.handles.any (·.2.storage == i) = true :=
    List.any_eq_true.mpr ⟨_, member, by simpa using leads⟩
  unfold opened?
  rw [found]
  cases target with
  | file l => rfl
  | shared fileSystem path => simp [some]
  | own => exact absurd rfl common

/-- What a source has been opened at is found again, unless it is a database of its own. -/
theorem opened?_openPath {disk : Disk} {path : String} {a : Db.Address} {target : Disk.Target}
    (success : s.openPath disk id path = .ok t) (led : disk.target path = .ok (a, target))
    (common : target ≠ .own) : ∃ i, t.opened? target = some i ∧ t.place? id = some i := by
  obtain ⟨h, s', connected, rfl⟩ := openPath_ok success
  have own : (s'.put id h).place? id = some h.storage := by rw [place?_put, if_pos rfl]
  refine ⟨h.storage, opened?_of_lookup common ?_ own, own⟩
  obtain ⟨a', target', led', ⟨known, rfl⟩ | ⟨storage, _, fresh, rfl⟩⟩ := connect_cases connected
  · cases led.symm.trans led'
    exact lookup_of_opened? (s := s') known
  · cases led.symm.trans led'
    rw [fresh]
    exact List.lookup_cons_self

/-- Two ids that are opened at the same file, or at the same database in memory, are near. -/
theorem near_openPath {disk : Disk} {other path path' : String} {a a' : Db.Address}
    {target : Disk.Target} {u : Sources} (first : s.openPath disk id path = .ok t)
    (second : t.openPath disk other path' = .ok u) (led : disk.target path = .ok (a, target))
    (led' : disk.target path' = .ok (a', target)) (common : target ≠ .own) : u.Near id other := by
  obtain ⟨i, opened, held⟩ := opened?_openPath first led common
  obtain ⟨h, t', connected, rfl⟩ := openPath_ok second
  obtain ⟨b, target', led'', ⟨known, rfl⟩ | ⟨storage, unknown, _, _⟩⟩ := connect_cases connected
  · cases led'.symm.trans led''
    have same : h.storage = i := Option.some.inj (known.symm.trans opened)
    have leads : (t'.put other h).place? id = some i := by
      rw [place?_put, held, same, ite_self]
    have leads' : (t'.put other h).place? other = some i := by
      rw [place?_put, if_pos rfl, same]
    exact Or.inr ⟨by rw [leads]; rfl, leads.trans leads'.symm⟩
  · cases led'.symm.trans led''
    rw [opened] at unknown
    cases unknown

/-! ## One request -/

/-- Whether an id finds the same in two registries. -/
structure Agree (id : String) (s t : Sources) : Prop where
  handles : t.handles = s.handles
  storage : ∀ i, s.place? id = some i → t.storages[i]? = s.storages[i]?

theorem Agree.refl (id : String) (s : Sources) : Agree id s s := ⟨rfl, fun _ _ => rfl⟩

/-- A request to an id that is not registered is answered with that fault, and one to a registered
id with what its storage replies, which is all that can change. -/
theorem answer_cases (s : Sources) (r : Request) :
    s.handles.lookup r.source = none ∧ s.answer r = (.error (.sourceNotFound r.source), s) ∨
    ∃ h, s.handles.lookup r.source = some h ∧ s.answer r = (.ok ((s.reach h).serve r).1,
      { s with storages := s.storages.set h.storage ((s.reach h).serve r).2 }) := by
  unfold answer within handle
  cases known : s.handles.lookup r.source with
  | none => exact Or.inl ⟨rfl, rfl⟩
  | some h => exact Or.inr ⟨h, rfl, rfl⟩

theorem handles_answer (s : Sources) (r : Request) : (s.answer r).2.handles = s.handles := by
  rcases s.answer_cases r with ⟨_, answered⟩ | ⟨h, _, answered⟩ <;> rw [answered]

/-- A request to another storage leaves an id with what it found before. -/
theorem Agree.answer_left (agree : Agree id s t) {r : Request} (far : ¬ s.Near id r.source) :
    Agree id (s.answer r).2 t := by
  rcases s.answer_cases r with ⟨_, answered⟩ | ⟨h, known, answered⟩
  · rw [answered]
    exact agree
  · rw [answered]
    refine ⟨agree.handles, fun i placed => ?_⟩
    have placed : s.place? id = some i := placed
    have other : h.storage ≠ i := by
      rintro rfl
      refine far (Or.inr ⟨by rw [placed]; rfl, ?_⟩)
      rw [placed, place?, known]
      rfl
    rw [List.getElem?_set_ne other]
    exact agree.storage i placed

/-- A request to an id, or to another one that leads to the same storage, is answered by what the id
finds, and changes it in the same way. -/
theorem Agree.answer_both (agree : Agree id s t) {r : Request} (near : s.Near id r.source) :
    (t.answer r).1 = (s.answer r).1 ∧ Agree id (s.answer r).2 (t.answer r).2 := by
  rcases s.answer_cases r with ⟨unknown, answered⟩ | ⟨h, known, answered⟩
  · rcases t.answer_cases r with ⟨_, answered'⟩ | ⟨h', known', _⟩
    · rw [answered, answered']
      exact ⟨rfl, agree⟩
    · rw [agree.handles, unknown] at known'
      cases known'
  · rcases t.answer_cases r with ⟨unknown', _⟩ | ⟨h', known', answered'⟩
    · rw [agree.handles, known] at unknown'
      cases unknown'
    · rw [agree.handles, known] at known'
      cases known'
      have placed : s.place? id = some h.storage := by
        rw [near.place?_eq, place?, known]
        rfl
      have found := agree.storage _ placed
      have reached : t.reach h = s.reach h := by
        rw [reach, reach, List.getD_eq_getElem?_getD, List.getD_eq_getElem?_getD, found]
      rw [answered, answered', reached]
      refine ⟨rfl, agree.handles, fun i placed' => ?_⟩
      have same : i = h.storage := Option.some.inj (placed'.symm.trans placed)
      rw [same, List.getElem?_set_self', List.getElem?_set_self', found]

/-! ## Requests one after the other -/

theorem run_cons (s : Sources) (r : Request) (rest : List Request) :
    s.run (r :: rest) = (r, (s.answer r).1) :: (s.answer r).2.run rest := rfl

/-- What is answered to an id does not depend on the requests to other storages. -/
theorem Agree.filter_run (agree : Agree id s t) (rs : List Request) :
    (s.run rs).filter (fun e => s.Near id e.1.source) =
      t.run (rs.filter fun r => s.Near id r.source) := by
  induction rs generalizing s t with
  | nil => rfl
  | cons r rest ih =>
      -- No request changes where ids lead, so the same ids are near after it.
      have later : ∀ b, (s.answer r).2.Near id b ↔ s.Near id b :=
        near_congr (s.handles_answer r) id
      rw [run_cons]
      by_cases near : s.Near id r.source
      · obtain ⟨same, agree⟩ := agree.answer_both near
        have rest := ih agree
        simp only [later] at rest
        rw [List.filter_cons_of_pos (by simpa using near),
          List.filter_cons_of_pos (by simpa using near), run_cons, same, rest]
      · have rest := ih (agree.answer_left near)
        simp only [later] at rest
        rw [List.filter_cons_of_neg (by simpa using near),
          List.filter_cons_of_neg (by simpa using near), rest]

theorem lookup_eq_none_iff (s : Sources) (id : String) :
    s.handles.lookup id = none ↔ id ∉ s.ids := by
  rw [List.lookup_eq_none_iff, ids, List.mem_map]
  constructor
  · rintro other ⟨e, member, rfl⟩
    simpa using other e member
  · intro other e member
    rw [bne_iff_ne]
    rintro rfl
    exact other ⟨e, member, rfl⟩

/-- Only requests to ids that are not registered are left without a reply. -/
theorem refused_run {rs : List Request} {e : Request × Answer} (member : e ∈ s.run rs) :
    e.2 = .error (.sourceNotFound e.1.source) ↔ e.1.source ∉ s.ids := by
  induction rs generalizing s with
  | nil => cases member
  | cons r rest ih =>
      rw [run_cons, List.mem_cons] at member
      rcases member with rfl | member
      · rw [← lookup_eq_none_iff]
        rcases s.answer_cases r with ⟨unknown, answered⟩ | ⟨h, known, answered⟩
        · rw [answered, unknown]
          exact iff_of_true rfl rfl
        · rw [answered, known]
          simp
      · have same : (s.answer r).2.ids = s.ids := congrArg (List.map Prod.fst) (s.handles_answer r)
        rw [← same]
        exact ih member

/-! ## Isolation -/

/-- How far requests to different ids keep apart. -/
structure Isolated (s : Sources) : Prop where
  projected : ∀ id rs, (s.run rs).filter (fun e => s.Near id e.1.source) =
    s.run (rs.filter fun r => s.Near id r.source)
  reordered : ∀ rs rs', (∀ id, rs.filter (fun r => s.Near id r.source) =
      rs'.filter fun r => s.Near id r.source) →
    ∀ id, (s.run rs).filter (fun e => s.Near id e.1.source) =
      (s.run rs').filter fun e => s.Near id e.1.source
  unknown : ∀ r, r.source ∉ s.ids → s.answer r = (.error (.sourceNotFound r.source), s)
  refused : ∀ rs, ∀ e ∈ s.run rs,
    e.2 = .error (.sourceNotFound e.1.source) ↔ e.1.source ∉ s.ids
  alone : s.Apart → ∀ id rs, (s.run rs).filter (fun e => id = e.1.source) =
    s.run (rs.filter fun r => id = r.source)
  interleaved : s.Apart → ∀ rs rs', (∀ id, rs.filter (fun r => id = r.source) =
      rs'.filter fun r => id = r.source) →
    ∀ id, (s.run rs).filter (fun e => id = e.1.source) =
      (s.run rs').filter fun e => id = e.1.source

theorem Apart.near_iff (apart : s.Apart) (a b : String) : s.Near a b ↔ a = b :=
  ⟨apart a b, Or.inl⟩

/-- Every source is answered as if the requests to other storages were not there. -/
theorem sources_isolated (s : Sources) : s.Isolated := by
  have projected : ∀ id rs, (s.run rs).filter (fun e => s.Near id e.1.source) =
      s.run (rs.filter fun r => s.Near id r.source) :=
    fun id rs => (Agree.refl id s).filter_run rs
  have alone (apart : s.Apart) : ∀ id rs, (s.run rs).filter (fun e => id = e.1.source) =
      s.run (rs.filter fun r => id = r.source) := by
    simpa only [apart.near_iff] using projected
  refine ⟨projected, ?_, ?_, fun rs e => refused_run, alone, ?_⟩
  · intro rs rs' same id
    rw [projected, projected, same]
  · intro r unknown
    rcases s.answer_cases r with ⟨_, answered⟩ | ⟨h, known, _⟩
    · exact answered
    · rw [(s.lookup_eq_none_iff r.source).mpr unknown] at known
      cases known
  · intro apart rs rs' same id
    rw [alone apart, alone apart, same]

/-- A list of pets without any. -/
def kennel : Storage :=
  .database { tables := [{ name := "pets", columns := [{ name := "name", type := "TEXT" }] }] }

def newPet : Query where
  operation := .insert
  table := { key := ⟨"pets", 0⟩ }
  columns := [(ColumnRef.of ⟨"pets", 0⟩ "name").withValue (.str "Rex")]

def allPets : Query where
  operation := .select
  table := { key := ⟨"pets", 0⟩ }
  columns := [(ColumnRef.of ⟨"pets", 0⟩ "name").asPrimaryKey]

/-- Two sources with a storage each. -/
def twoKennels : Sources :=
  { storages := [kennel, kennel], handles := [("home", ⟨0, none⟩), ("shop", ⟨1, none⟩)] }

/-- What the shop is answered is the same with and without the requests to the other source, and in
whatever order these come. -/
theorem sources_isolated_twoKennels : twoKennels.Apart ∧
    (twoKennels.run [.execute "home" newPet, .execute "shop" allPets, .tables "yard"]).filter
        (fun e => "shop" = e.1.source) = twoKennels.run [.execute "shop" allPets] ∧
      (∀ id, (twoKennels.run [.execute "home" newPet, .execute "shop" allPets]).filter
          (fun e => id = e.1.source) =
        (twoKennels.run [.execute "shop" allPets, .execute "home" newPet]).filter
          fun e => id = e.1.source) ∧
      twoKennels.answer (.tables "yard") = (.error (.sourceNotFound "yard"), twoKennels) := by
  have isolated := sources_isolated twoKennels
  have apart : twoKennels.Apart := apart_of_nodup (by decide)
  refine ⟨apart, isolated.alone apart "shop" _, ?_, isolated.unknown (.tables "yard") (by decide)⟩
  refine isolated.interleaved apart _ _ fun id => ?_
  by_cases home : id = "home"
  · subst home
    rfl
  · simp [List.filter_cons, Request.source, home]

/-- One storage under two ids. -/
def sharedKennel : Sources :=
  { storages := [kennel], handles := [("back", ⟨0, none⟩), ("front", ⟨0, none⟩)] }

def Answer.total? : Answer → Option UInt64
  | .ok (.response r) => r.data.map (·.total)
  | _ => none

theorem total_alone : (sharedKennel.answer (.execute "back" allPets)).1.total? = some 0 := by
  cbv

theorem total_after : ((sharedKennel.answer (.execute "front" newPet)).2.answer
    (.execute "back" allPets)).1.total? = some 1 := by
  cbv

/-- What is written through one id is read through the other. -/
theorem sharedKennel_seen : ∃ rs id, (sharedKennel.run rs).filter (fun e => id = e.1.source) ≠
    sharedKennel.run (rs.filter fun r => id = r.source) := by
  refine ⟨[.execute "front" newPet, .execute "back" allPets], "back", fun same => ?_⟩
  rw [run_cons, run_cons, List.filter_cons_of_neg (by decide), List.filter_cons_of_pos (by decide),
    List.filter_cons_of_neg (by decide), List.filter_cons_of_pos (by decide), run_cons,
    List.cons.injEq, Prod.mk.injEq] at same
  have totals := total_after
  rw [same.1.2, total_alone] at totals
  cases totals

end QueryBoard.Sources
