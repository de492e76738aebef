import QueryBoard.Proofs.Json.Decode
import QueryBoard.Proofs.Json.Distinct
import QueryBoard.Response.Wire
import Mathlib.Data.String.Basic

/-!
# Responses are read as they are written

Rules are read back when they are in rising order of their keys, and a record when it has one entry
per key.  What is read as a response is so.
-/

set_option autoImplicit false

namespace QueryBoard

attribute [local simp] ok_bind pure_eq_ok map_ok

open Document (Yields ItemsYield)

/-! ## Rules -/

namespace Rules

/-- Whether keys rise from one entry to the next. -/
def Rising (r : Rules) : Prop := r.Pairwise fun e e' => e.1 < e'.1

theorem mem_put {key : String} {outputs : List String} {r : Rules} {e : String × List String}
    (member : e ∈ put key outputs r) : e = (key, outputs) ∨ e ∈ r := by
  induction r with
  | nil => exact Or.inl (List.mem_singleton.mp member)
  | cons first rest ih =>
      obtain ⟨k, old⟩ := first
      rw [put] at member
      split at member
      · next same =>
          rcases List.mem_cons.mp member with rfl | member
          · exact Or.inl (by rw [same])
          · exact Or.inr (List.mem_cons_of_mem _ member)
      · split at member
        · exact List.mem_cons.mp member
        · rcases List.mem_cons.mp member with rfl | member
          · exact Or.inr List.mem_cons_self
          · exact (ih member).imp_right (List.mem_cons_of_mem _)

theorem rising_put {r : Rules} (rising : r.Rising) (key : String) (outputs : List String) :
    (put key outputs r).Rising := by
  induction r with
  | nil => exact List.pairwise_singleton _ _
  | cons first rest ih =>
      obtain ⟨k, old⟩ := first
      obtain ⟨above, rising⟩ := List.pairwise_cons.mp rising
      rw [put]
      split
      · exact List.pairwise_cons.mpr ⟨above, rising⟩
      · next other =>
          split
          · next below =>
              refine List.pairwise_cons.mpr ⟨?_, List.pairwise_cons.mpr ⟨above, rising⟩⟩
              intro e member
              rcases List.mem_cons.mp member with rfl | member
              · exact below
              · exact lt_trans below (above e member)
          · next notBelow =>
              refine List.pairwise_cons.mpr ⟨?_, ih rising⟩
              intro e member
              rcases mem_put member with rfl | member
              · exact lt_of_le_of_ne (not_lt.mp notBelow) (Ne.symm other)
              · exact above e member

theorem put_of_above {r : Rules} {key : String} (above : ∀ e ∈ r, e.1 < key)
    (outputs : List String) : put key outputs r = r ++ [(key, outputs)] := by
  induction r with
  | nil => rfl
  | cons first rest ih =>
      obtain ⟨k, old⟩ := first
      have lower : k < key := above (k, old) List.mem_cons_self
      rw [put, if_neg lower.ne', if_neg lower.not_gt,
        ih fun e member => above e (List.mem_cons_of_mem _ member), List.cons_append]

theorem toList_ofTexts (texts : List String) :
    (Json.ofTexts texts).document.toList Document.toText = .ok texts :=
  Json.toList_arr fun s _ => Json.toText_str s

/-- The step of reading rules. -/
def readEntry (r : Rules) : Document.Entry → Decoded Rules
  | (some key, d) => do return r.put key (← d.toList Document.toText)
  | (none, _) => throw .malformed

theorem ofDocument_obj (entries : List Document.Entry) :
    ofDocument (.obj entries) = entries.foldlM readEntry [] := by
  have same : (fun (r : Rules) (entry : Document.Entry) => show Decoded Rules from do
      match entry with
      | (some key, d) => return r.put key (← d.toList Document.toText)
      | (none, _) => throw .malformed) = readEntry := by
    funext r entry
    obtain ⟨_ | key, d⟩ := entry <;> rfl
  exact congrArg (fun step => entries.foldlM step []) same

theorem foldlM_readEntry : ∀ (rest before : Rules), (before ++ rest).Rising →
    (rest.map fun e => (some e.1, (Json.ofTexts e.2).document)).foldlM readEntry before =
      .ok (before ++ rest)
  | [], before, _ => by
      rw [List.append_nil]
      rfl
  | e :: rest, before, rising => by
      have above : ∀ x ∈ before, x.1 < e.1 := fun x member =>
        (List.pairwise_append.mp rising).2.2 x member e List.mem_cons_self
      have later := foldlM_readEntry rest (before ++ [e]) (by simpa using rising)
      rw [List.map_cons, List.foldlM_cons, readEntry, toList_ofTexts, ok_bind, pure_eq_ok, ok_bind,
        put_of_above above]
      simpa using later

theorem ofDocument_toJson {r : Rules} (rising : r.Rising) : ofDocument r.toJson.document = .ok r := by
  have read := foldlM_readEntry r [] rising
  rw [toJson, Json.document_obj, ofDocument_obj, List.map_map]
  exact read

theorem yields_rising : Yields ofDocument Rising := by
  intro d range r success
  cases d with
  | obj entries =>
      rw [ofDocument_obj] at success
      refine Document.foldlM_yields ?_ range (List.Pairwise.nil : Rising []) success
      intro r r' rising e _ read
      obtain ⟨_ | key, d⟩ := e
      · cases read
      · obtain ⟨outputs, _, same⟩ := bind_eq_ok_iff.mp read
        cases same
        exact rising_put rising key outputs
  | _ => cases success

end Rules

/-! ## Records -/

/-- Whether a record has one entry per key, as everything in it has. -/
def PlainRecord (r : Record) : Prop := (r.map Prod.fst).Nodup ∧ ∀ e ∈ r, e.2.Distinct

theorem toRecord_obj {r : Record} (plain : PlainRecord r) :
    Document.toRecord (Json.obj r).document = .ok r := by
  have contents := (Json.distinctFields_iff r).mpr plain.2
  rw [Document.toRecord, Json.toJson_document, ok_bind]
  simp only [Json.dedupFields_of_distinct r contents, Json.upsertAll_of_nodup plain.1, pure_eq_ok]

theorem yields_plainRecord : Yields Document.toRecord PlainRecord := by
  intro d range r success
  unfold Document.toRecord at success
  obtain ⟨j, _, success⟩ := bind_eq_ok_iff.mp success
  split at success
  · next fields _ =>
      cases success
      have each := (Json.distinctFields_iff _).mp (Json.distinctFields_dedupFields fields)
      exact ⟨Json.nodup_upsertAll _, fun e member => each e (Json.mem_upsertAll member)⟩
  · cases success

/-! ## Responses -/

namespace SelectData

structure Plain (d : SelectData) : Prop where
  rules : d.rules.Rising
  data : ∀ r ∈ d.data, PlainRecord r

theorem ofDocument_toJson {d : SelectData} (plain : d.Plain) :
    ofDocument d.toJson.document = .ok d := by
  have rules := Rules.ofDocument_toJson plain.rules
  have data := Json.toList_arr fun r member => toRecord_obj (plain.data r member)
  simp [toJson, ofDocument, Slots.read, Slots.finish, rules, data]

/-- What the slots of a response's data have while it is read. -/
structure Slots.Plain (s : Slots) : Prop where
  rules : ∀ r ∈ s.rules, r.Rising
  data : ∀ rs ∈ s.data, ∀ r ∈ rs, PlainRecord r

theorem Slots.plain_read {s s' : Slots} (plain : s.Plain) {e : Document.Entry}
    (range : e.2.Representable) (success : s.read e = .ok s') : s'.Plain := by
  unfold Slots.read at success
  split at success
  · obtain ⟨_, filled, same⟩ := bind_eq_ok_iff.mp success
    cases same
    exact { plain with rules := Rules.yields_rising.fill range filled }
  · obtain ⟨_, filled, same⟩ := bind_eq_ok_iff.mp success
    cases same
    exact { plain with data := yields_plainRecord.toList.fill range filled }
  · obtain ⟨_, _, same⟩ := bind_eq_ok_iff.mp success
    cases same
    exact { plain with }
  · rw [Document.skip_eq_ok success]
    exact plain

theorem yields_plain : Yields ofDocument Plain := by
  intro d range data success
  unfold ofDocument at success
  split at success
  · next entries =>
      obtain ⟨s, read, success⟩ := bind_eq_ok_iff.mp success
      have plain := Document.foldlM_yields Slots.plain_read range
        (⟨by simp, by simp⟩ : Slots.Plain {}) read
      obtain ⟨rules, givenRules, success⟩ := bind_eq_ok_iff.mp success
      obtain ⟨records, givenData, success⟩ := bind_eq_ok_iff.mp success
      obtain ⟨total, _, same⟩ := bind_eq_ok_iff.mp success
      cases same
      exact ⟨plain.rules rules (Document.required_eq_ok givenRules),
        plain.data records (Document.required_eq_ok givenData)⟩
  · next items =>
      have yields : ItemsYield _ Plain :=
        Rules.yields_rising.item.bind fun rules rising =>
          yields_plainRecord.toList.item.bind fun data plain =>
            (Document.yields_true Document.toUInt64).item.bind fun total _ =>
              ItemsYield.pure (a := SelectData.mk rules data total) ⟨rising, plain⟩
      exact yields.allItems range success
  · cases success

end SelectData

namespace QueryResponse

def Plain (r : QueryResponse) : Prop := ∀ d ∈ r.data, d.Plain

theorem ofDocument_toJson {r : QueryResponse} (plain : r.Plain) :
    ofDocument r.toJson.document = .ok r := by
  obtain ⟨data, err, rawSql⟩ := r
  cases data with
  | none =>
      cases err <;> cases rawSql <;> simp [toJson, ofDocument, Slots.read, Slots.finish]
  | some d =>
      have read := Json.toOption_document (by simp [SelectData.toJson])
        (SelectData.ofDocument_toJson (plain d rfl))
      cases err <;> cases rawSql <;> simp [toJson, ofDocument, Slots.read, Slots.finish, read]

theorem Slots.plain_read {s s' : Slots} (plain : ∀ o ∈ s.data, ∀ d ∈ o, d.Plain)
    {e : Document.Entry} (range : e.2.Representable) (success : s.read e = .ok s') :
    ∀ o ∈ s'.data, ∀ d ∈ o, d.Plain := by
  unfold Slots.read at success
  split at success
  · obtain ⟨_, filled, same⟩ := bind_eq_ok_iff.mp success
    cases same
    exact SelectData.yields_plain.toOption.fill range filled
  · obtain ⟨_, _, same⟩ := bind_eq_ok_iff.mp success
    cases same
    exact plain
  · obtain ⟨_, _, same⟩ := bind_eq_ok_iff.mp success
    cases same
    exact plain
  · rw [Document.skip_eq_ok success]
    exact plain

theorem yields_plain : Yields ofDocument Plain := by
  intro d range r success
  unfold ofDocument at success
  split at success
  · next entries =>
      obtain ⟨s, read, same⟩ := bind_eq_ok_iff.mp success
      cases same
      have plain := Document.foldlM_yields Slots.plain_read range
        (by simp : ∀ o ∈ ({} : Slots).data, ∀ d ∈ o, d.Plain) read
      intro d given
      exact plain (some d) (Option.join_eq_some_iff.mp given) d rfl
  · next items =>
      have text := (Document.yields_true Document.toText).toOption
      have yields : ItemsYield _ Plain :=
        (SelectData.yields_plain.toOption.itemOr none (by simp)).bind fun data plain =>
          (text.itemOr none (by simp)).bind fun err _ =>
            (text.itemOr none (by simp)).bind fun rawSql _ =>
              ItemsYield.pure (a := QueryResponse.mk data err rawSql) plain
      exact yields.allItems range success
  · cases success

end QueryResponse

end QueryBoard
