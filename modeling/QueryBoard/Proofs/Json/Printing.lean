import QueryBoard.Json.Decode
import QueryBoard.Json.Printer

/-!
# Reading JSON that was written

A text is a print of a value when it is written as the grammar has it, with any blanks between its
parts.  The reader takes a print off the front of a text and finds the value, provided that there is
room for its containers.  Both the compact and the indented text of a value are prints of it.  Values
with numbers are left out here.
-/

set_option autoImplicit false

namespace QueryBoard.Json

/-! ## Strings -/

theorem hexValue?_hexDigit {n : Nat} (small : n < 16) : Text.hexValue? (Text.hexDigit n) = some n := by
  revert n
  decide

theorem hexUnit?_hexDigits {n : Nat} (small : n < 65536) (rest : List Char) :
    hexUnit? (Text.hexDigits 4 n ++ rest) = some (n, rest) := by
  have digit (m : Nat) : Text.hexValue? (Text.hexDigit m) = some (m % 16) := by
    have same : Text.hexDigit m = Text.hexDigit (m % 16) := by
      rw [Text.hexDigit, Text.hexDigit, Nat.mod_mod]
    rw [same, hexValue?_hexDigit (Nat.mod_lt m (by decide))]
  have value : ((n / 16 / 16 / 16 % 16 * 16 + n / 16 / 16 % 16) * 16 + n / 16 % 16) * 16 + n % 16 = n := by
    omega
  simp only [Text.hexDigits, List.nil_append, List.cons_append, hexUnit?, digit, bind, Option.bind,
    value]
  rfl

/-- A character is written in two characters, by its number, or as it is. -/
theorem escapeChar_cases (c : Char) :
    (∃ e, escapeChar c = ['\\', e] ∧ shortEscape? e = some c ∧ e ≠ 'u') ∨
      (c.toNat < 0x20 ∧ escapeChar c = '\\' :: 'u' :: Text.hexDigits 4 c.toNat) ∨
      (escapeChar c = [c] ∧ c ≠ '"' ∧ c ≠ '\\' ∧ ¬ c.toNat < 0x20) := by
  unfold escapeChar
  split
  · next same => exact Or.inl ⟨'"', rfl, by rw [same]; rfl, by decide⟩
  split
  · next same => exact Or.inl ⟨'\\', rfl, by rw [same]; rfl, by decide⟩
  split
  · next same => exact Or.inl ⟨'b', rfl, by rw [same]; rfl, by decide⟩
  split
  · next same => exact Or.inl ⟨'f', rfl, by rw [same]; rfl, by decide⟩
  split
  · next same => exact Or.inl ⟨'n', rfl, by rw [same]; rfl, by decide⟩
  split
  · next same => exact Or.inl ⟨'r', rfl, by rw [same]; rfl, by decide⟩
  split
  · next same => exact Or.inl ⟨'t', rfl, by rw [same]; rfl, by decide⟩
  split
  · next control => exact Or.inr (Or.inl ⟨control, rfl⟩)
  · next quote slash _ _ _ _ _ plain => exact Or.inr (Or.inr ⟨rfl, quote, slash, plain⟩)

theorem escape?_short {c e : Char} (short : shortEscape? e = some c) (other : e ≠ 'u')
    (rest : List Char) : escape? (e :: rest) = some (some c, rest) := by
  unfold escape?
  split
  · next same => exact absurd (List.cons.inj same).1 other
  · next same =>
    obtain ⟨rfl, rfl⟩ := List.cons.inj same
    rw [short]
    rfl
  · next same => cases same

theorem escape?_control {c : Char} (control : c.toNat < 0x20) (rest : List Char) :
    escape? ('u' :: (Text.hexDigits 4 c.toNat ++ rest)) = some (some c, rest) := by
  rw [escape?, hexUnit?_hexDigits (by omega)]
  simp only [bind, Option.bind]
  rw [if_pos (Or.inl (by omega)), Char.ofNat_toNat]
  rfl

/-- Reading takes a character off however it is written. -/
theorem readString?_escapeChar (c : Char) (bound : Nat) (acc rest : List Char) :
    readString? (bound + 1) (some acc) (escapeChar c ++ rest) =
      readString? bound (some (c :: acc)) rest := by
  rcases escapeChar_cases c with ⟨e, written, short, other⟩ | ⟨control, written⟩ |
    ⟨written, quote, slash, plain⟩
  · rw [written, List.cons_append, List.singleton_append, readString?, if_neg (by decide),
      if_pos rfl, escape?_short short other]
    rfl
  · rw [written, List.cons_append, List.cons_append, readString?, if_neg (by decide), if_pos rfl,
      escape?_control control]
    rfl
  · rw [written, List.singleton_append, readString?, if_neg quote, if_neg slash, if_neg plain]
    rfl

theorem readString?_flatMap (s acc rest : List Char) {bound : Nat} (enough : s.length < bound) :
    readString? bound (some acc) (s.flatMap escapeChar ++ '"' :: rest) =
      some (some (String.ofList (acc.reverse ++ s)), rest) := by
  induction s generalizing acc bound with
  | nil =>
      obtain ⟨bound, rfl⟩ := Nat.exists_eq_succ_of_ne_zero (Nat.ne_of_gt enough)
      rw [List.flatMap_nil, List.nil_append, readString?, if_pos rfl, List.append_nil]
      rfl
  | cons c s ih =>
      obtain ⟨bound, rfl⟩ := Nat.exists_eq_succ_of_ne_zero (Nat.ne_zero_of_lt enough)
      rw [List.length_cons] at enough
      rw [List.flatMap_cons, List.append_assoc, readString?_escapeChar,
        ih (c :: acc) (by omega), List.reverse_cons, List.append_assoc, List.singleton_append]

theorem toList_quote (s : String) :
    (quote s).toList = '"' :: (s.toList.flatMap escapeChar ++ ['"']) := by
  rw [quote, String.toList_ofList]

theorem length_le_flatMap_escapeChar (s : List Char) :
    s.length ≤ (s.flatMap escapeChar).length := by
  induction s with
  | nil => exact Nat.le_refl 0
  | cons c s ih =>
      have some : 0 < (escapeChar c).length := by
        rcases escapeChar_cases c with ⟨e, written, _⟩ | ⟨_, written⟩ | ⟨written, _⟩ <;>
          simp [written]
      rw [List.flatMap_cons, List.length_append, List.length_cons]
      omega

/-! ## Prints -/

/-- Whether characters only set parts of a text apart. -/
def Gap (cs : List Char) : Prop := ∀ c ∈ cs, isJsonBlank c = true

mutual

/-- The prints of a value that nests no deeper than `room` containers. -/
inductive Prints : Nat → Json → List Char → Prop
  | null {room : Nat} : Prints room .null ['n', 'u', 'l', 'l']
  | yes {room : Nat} : Prints room (.bool true) ['t', 'r', 'u', 'e']
  | no {room : Nat} : Prints room (.bool false) ['f', 'a', 'l', 's', 'e']
  | str {room : Nat} (s : String) : Prints room (.str s) (quote s).toList
  | emptyArr {room : Nat} : Prints (room + 1) (.arr []) ['[', ']']
  | arr {room : Nat} {items : List Json} {cs : List Char} (inner : PrintsItems room items cs) :
      Prints (room + 1) (.arr items) ('[' :: cs)
  | emptyObj {room : Nat} : Prints (room + 1) (.obj []) ['\x7b', '\x7d']
  | obj {room : Nat} {fields : List (String × Json)} {cs : List Char}
      (inner : PrintsFields room fields cs) : Prints (room + 1) (.obj fields) ('\x7b' :: cs)

/-- The prints of items with the bracket behind them. -/
inductive PrintsItems : Nat → List Json → List Char → Prop
  | last {room : Nat} {j : Json} {before cs after : List Char} (front : Gap before)
      (item : Prints room j cs) (back : Gap after) :
      PrintsItems room [j] (before ++ cs ++ (after ++ [']']))
  | more {room : Nat} {j : Json} {items : List Json} {before cs ds : List Char} (front : Gap before)
      (item : Prints room j cs) (others : PrintsItems room items ds) :
      PrintsItems room (j :: items) (before ++ cs ++ ',' :: ds)

/-- The prints of entries with the brace behind them. -/
inductive PrintsFields : Nat → List (String × Json) → List Char → Prop
  | last {room : Nat} (key : String) {j : Json} {before between cs after : List Char}
      (front : Gap before) (middle : Gap between) (value : Prints room j cs) (back : Gap after) :
      PrintsFields room [(key, j)]
        (before ++ (quote key).toList ++ ':' :: (between ++ cs ++ (after ++ ['\x7d'])))
  | more {room : Nat} (key : String) {j : Json} {fields : List (String × Json)}
      {before between cs ds : List Char} (front : Gap before) (middle : Gap between)
      (value : Prints room j cs) (others : PrintsFields room fields ds) :
      PrintsFields room ((key, j) :: fields)
        (before ++ (quote key).toList ++ ':' :: (between ++ cs ++ ',' :: ds))

end

theorem skipBlanks_gap {before : List Char} (gap : Gap before) (cs : List Char) :
    skipBlanks (before ++ cs) = skipBlanks cs := by
  induction before with
  | nil => rfl
  | cons c before ih =>
      have blank := gap c List.mem_cons_self
      rw [List.cons_append, skipBlanks, List.dropWhile_cons_of_pos blank, ← skipBlanks,
        ih fun d member => gap d (List.mem_cons_of_mem c member)]

theorem skipBlanks_cons {c : Char} (other : isJsonBlank c = false) (cs : List Char) :
    skipBlanks (c :: cs) = c :: cs :=
  List.dropWhile_cons_of_neg (by simp [other])

/-- A value starts with a character that is neither a blank nor closes an array. -/
theorem Prints.starts {room : Nat} {j : Json} {cs : List Char} (print : Prints room j cs) :
    ∃ c rest, cs = c :: rest ∧ isJsonBlank c = false ∧ c ≠ ']' := by
  cases print with
  | str s => exact ⟨_, _, toList_quote s, by decide, by decide⟩
  | _ => exact ⟨_, _, rfl, by decide, by decide⟩

theorem PrintsItems.starts {room : Nat} {items : List Json} {cs : List Char}
    (print : PrintsItems room items cs) (rest : List Char) :
    ∃ c tail, skipBlanks (cs ++ rest) = c :: tail ∧ c ≠ ']' := by
  cases print with
  | last front item _ | more front item _ =>
      obtain ⟨c, tail, rfl, other, apart⟩ := item.starts
      rw [List.append_assoc, List.append_assoc, skipBlanks_gap front, List.cons_append,
        skipBlanks_cons other]
      exact ⟨c, _, rfl, apart⟩

theorem PrintsFields.starts {room : Nat} {fields : List (String × Json)} {cs : List Char}
    (print : PrintsFields room fields cs) (rest : List Char) :
    ∃ tail, skipBlanks (cs ++ rest) = '"' :: tail := by
  cases print with
  | last _ front _ _ _ | more _ front _ _ _ =>
      rw [List.append_assoc, List.append_assoc, skipBlanks_gap front, toList_quote]
      exact ⟨_, skipBlanks_cons (by decide) _⟩

theorem readValue_gap {before : List Char} (gap : Gap before) (bound room : Nat) (cs : List Char) :
    readValue bound room (before ++ cs) = readValue bound room cs := by
  cases bound with
  | zero => rw [readValue, readValue]
  | succ bound => rw [readValue, readValue, skipBlanks_gap gap]

theorem readString?_quote (s : String) {bound : Nat} (enough : (quote s).toList.length ≤ bound)
    (rest : List Char) :
    readString? bound (some []) (s.toList.flatMap escapeChar ++ '"' :: rest) =
      some (some s, rest) := by
  have long := length_le_flatMap_escapeChar s.toList
  rw [toList_quote, List.length_cons, List.length_append] at enough
  rw [readString?_flatMap _ _ _ (by simp only [List.length_singleton] at enough; omega),
    List.reverse_nil, List.nil_append, String.ofList_toList]

theorem within_succ (room : Nat) (s : Step Document) : s.within (room + 1) = s := by
  obtain ⟨d, rest⟩ := s
  cases rest <;> rfl

mutual

/-- A print is taken off the front of a text as its value. -/
theorem Prints.read {room : Nat} {j : Json} {cs : List Char} (print : Prints room j cs)
    {bound : Nat} (enough : 2 * cs.length ≤ bound) (rest : List Char) :
    readValue bound room (cs ++ rest) = (j.document, some rest) := by
  obtain ⟨c, tail, starts, blank, _⟩ := print.starts
  obtain ⟨bound, rfl⟩ : ∃ b, bound = b + 1 :=
    Nat.exists_eq_succ_of_ne_zero (by rw [starts, List.length_cons] at enough; omega)
  have front : skipBlanks (cs ++ rest) = cs ++ rest := by
    rw [starts, List.cons_append, skipBlanks_cons blank]
  rw [readValue, front]
  cases print with
  | null | yes | no => rfl
  | str s =>
      have long : (quote s).toList.length ≤ bound := by
        rw [starts, List.length_cons] at enough ⊢
        omega
      rw [toList_quote, List.cons_append, List.append_assoc, List.singleton_append]
      simp only [readString?_quote s long]
      rfl
  | emptyArr => rfl
  | emptyObj => rfl
  | @arr room items cs inner =>
      rw [List.length_cons] at enough
      obtain ⟨c, tail, begins, other⟩ := inner.starts rest
      have read : readItems bound room (cs ++ rest) = _ := inner.read (by omega) rest
      rw [List.cons_append]
      simp only [within_succ, begins, Nat.add_sub_cancel, read]
      split
      · next same => exact absurd (List.cons.inj same).1 other
      · rfl
  | @obj room fields cs inner =>
      rw [List.length_cons] at enough
      obtain ⟨tail, begins⟩ := inner.starts rest
      have read : readEntries bound room (cs ++ rest) = _ := inner.read (by omega) rest
      rw [List.cons_append]
      simp only [within_succ, begins, Nat.add_sub_cancel, read]
      rfl

theorem PrintsItems.read {room : Nat} {items : List Json} {cs : List Char}
    (print : PrintsItems room items cs) {bound : Nat} (enough : 2 * cs.length < bound)
    (rest : List Char) : readItems bound room (cs ++ rest) = (documentItems items, some rest) := by
  obtain ⟨bound, rfl⟩ := Nat.exists_eq_succ_of_ne_zero (Nat.ne_zero_of_lt enough)
  cases print with
  | @last room j before cs after front item back =>
      simp only [List.length_append] at enough
      have first : readValue bound room (cs ++ (after ++ ([']'] ++ rest))) = _ :=
        item.read (by omega) _
      have behind := skipBlanks_gap back ([']'] ++ rest)
      rw [readItems, List.append_assoc, List.append_assoc, List.append_assoc, readValue_gap front]
      simp only [first, behind]
      rfl
  | @more room j items before cs ds front item others =>
      simp only [List.length_append, List.length_cons] at enough
      have first : readValue bound room (cs ++ ',' :: (ds ++ rest)) = _ := item.read (by omega) _
      have later : readItems bound room (ds ++ rest) = _ := others.read (by omega) rest
      have behind : skipBlanks (',' :: (ds ++ rest)) = ',' :: (ds ++ rest) :=
        skipBlanks_cons (by decide) _
      rw [readItems, List.append_assoc, List.append_assoc, List.cons_append, readValue_gap front]
      simp only [first, behind, later]
      rfl

theorem PrintsFields.read {room : Nat} {fields : List (String × Json)} {cs : List Char}
    (print : PrintsFields room fields cs) {bound : Nat} (enough : 2 * cs.length < bound)
    (rest : List Char) :
    readEntries bound room (cs ++ rest) = (documentFields fields, some rest) := by
  obtain ⟨bound, rfl⟩ := Nat.exists_eq_succ_of_ne_zero (Nat.ne_zero_of_lt enough)
  cases print with
  | @last room key j before between cs after front middle value back =>
      simp only [List.length_append, List.length_cons] at enough
      have first : readValue bound room (cs ++ (after ++ (['\x7d'] ++ rest))) = _ :=
        value.read (by omega) _
      have behind := skipBlanks_gap back (['\x7d'] ++ rest)
      have named := readString?_quote key (by omega : _ ≤ bound)
        (':' :: (between ++ (cs ++ (after ++ (['\x7d'] ++ rest)))))
      have colon := skipBlanks_cons (c := ':') (by decide)
        (between ++ (cs ++ (after ++ (['\x7d'] ++ rest))))
      rw [← readValue_gap middle] at first
      rw [readEntries, List.append_assoc, List.append_assoc, skipBlanks_gap front, toList_quote,
        List.cons_append, skipBlanks_cons (by decide), List.append_assoc, List.singleton_append,
        List.cons_append, List.append_assoc, List.append_assoc, List.append_assoc]
      simp only [named, colon, first, behind]
      rfl
  | @more room key j fields before between cs ds front middle value others =>
      simp only [List.length_append, List.length_cons] at enough
      have first : readValue bound room (cs ++ ',' :: (ds ++ rest)) = _ := value.read (by omega) _
      have later : readEntries bound room (ds ++ rest) = _ := others.read (by omega) rest
      have behind : skipBlanks (',' :: (ds ++ rest)) = ',' :: (ds ++ rest) :=
        skipBlanks_cons (by decide) _
      have named := readString?_quote key (by omega : _ ≤ bound)
        (':' :: (between ++ (cs ++ ',' :: (ds ++ rest))))
      have colon := skipBlanks_cons (c := ':') (by decide) (between ++ (cs ++ ',' :: (ds ++ rest)))
      rw [← readValue_gap middle] at first
      rw [readEntries, List.append_assoc, List.append_assoc, skipBlanks_gap front, toList_quote,
        List.cons_append, skipBlanks_cons (by decide), List.append_assoc, List.singleton_append,
        List.cons_append, List.append_assoc, List.append_assoc, List.cons_append]
      simp only [named, colon, first, behind, later]
      rfl

end

/-! ## Compact and indented texts -/

mutual

/-- Whether a value has no number in it and nests no deeper than `room` containers. -/
def Fits : Nat → Json → Prop
  | _, .null | _, .bool _ | _, .str _ => True
  | _, .int _ | _, .float _ => False
  | 0, .arr _ | 0, .obj _ => False
  | room + 1, .arr items => FitsItems room items
  | room + 1, .obj fields => FitsFields room fields

def FitsItems : Nat → List Json → Prop
  | _, [] => True
  | room, j :: rest => Fits room j ∧ FitsItems room rest

def FitsFields : Nat → List (String × Json) → Prop
  | _, [] => True
  | room, (_, j) :: rest => Fits room j ∧ FitsFields room rest

end

theorem fitsItems_iff {room : Nat} {items : List Json} :
    FitsItems room items ↔ ∀ j ∈ items, Fits room j := by
  induction items with
  | nil => simp [FitsItems]
  | cons j rest ih => rw [FitsItems, ih, List.forall_mem_cons]

theorem fitsFields_iff {room : Nat} {fields : List (String × Json)} :
    FitsFields room fields ↔ ∀ f ∈ fields, Fits room f.2 := by
  induction fields with
  | nil => simp [FitsFields]
  | cons f rest ih => rw [FitsFields, ih, List.forall_mem_cons]

section

variable {room : Nat} {write : Json → String} (gap : String) {after : List Char}
variable (front : Gap gap.toList) (back : Gap after)
include front back

/-- Items are printed one after the other, with commas between them. -/
theorem printsItems_intercalate {items : List Json} (some : items ≠ [])
    (each : ∀ j ∈ items, Prints room j (write j).toList) :
    PrintsItems room items (gap.toList ++ (("," ++ gap).intercalate (items.map write)).toList ++
      (after ++ [']'])) := by
  induction items with
  | nil => exact absurd rfl some
  | cons j rest ih =>
      have first := each j List.mem_cons_self
      cases rest with
      | nil => simpa using PrintsItems.last front first back
      | cons k rest =>
          have others := ih (by simp) fun i member => each i (List.mem_cons_of_mem j member)
          have whole := PrintsItems.more front first others
          simpa [String.intercalate_cons_cons, List.append_assoc] using whole

theorem printsFields_intercalate (colon : String) {between : List Char} (middle : Gap between)
    (sep : colon.toList = ':' :: between) {fields : List (String × Json)} (some : fields ≠ [])
    (each : ∀ f ∈ fields, Prints room f.2 (write f.2).toList) :
    PrintsFields room fields (gap.toList ++
      (("," ++ gap).intercalate (fields.map fun f => quote f.1 ++ colon ++ write f.2)).toList ++
        (after ++ ['\x7d'])) := by
  induction fields with
  | nil => exact absurd rfl some
  | cons f rest ih =>
      obtain ⟨key, j⟩ := f
      have first := each (key, j) List.mem_cons_self
      cases rest with
      | nil => simpa [sep] using PrintsFields.last key front middle first back
      | cons g rest =>
          have others := ih (by simp) fun i member => each i (List.mem_cons_of_mem _ member)
          have whole := PrintsFields.more key front middle first others
          simpa [String.intercalate_cons_cons, List.append_assoc, sep] using whole

end

theorem compactList_eq_map (items : List Json) : compactList items = items.map compact := by
  induction items with
  | nil => rfl
  | cons j rest ih => rw [compactList, ih, List.map_cons]

theorem compactFields_eq_map (fields : List (String × Json)) :
    compactFields fields = fields.map fun f => quote f.1 ++ ":" ++ compact f.2 := by
  induction fields with
  | nil => rfl
  | cons f rest ih => rw [compactFields, ih, List.map_cons]

theorem prettyList_eq_map (level : Nat) (items : List Json) :
    prettyList level items = items.map (prettyAt level) := by
  induction items with
  | nil => rfl
  | cons j rest ih => rw [prettyList, ih, List.map_cons]

theorem prettyFields_eq_map (level : Nat) (fields : List (String × Json)) :
    prettyFields level fields = fields.map fun f => quote f.1 ++ ": " ++ prettyAt level f.2 := by
  induction fields with
  | nil => rfl
  | cons f rest ih => rw [prettyFields, ih, List.map_cons]

theorem gap_nil : Gap [] := fun _ member => by cases member

theorem gap_lineStart (level : Nat) : Gap (lineStart level).toList := by
  have characters : (lineStart level).toList = '\n' :: List.replicate (2 * level) ' ' := by
    simp [lineStart]
  rw [characters]
  intro c member
  rcases List.mem_cons.mp member with rfl | member
  · rfl
  · rw [List.eq_of_mem_replicate member]
    rfl

/-- How values are written: what is in a container at a level stands behind the gap of this level, and
between a key and its value is the same text throughout. -/
structure Writing (write : Nat → Json → String) (gap : Nat → String) (sep : String) : Prop where
  gaps : ∀ level, Gap (gap level).toList
  colon : ∃ between, sep.toList = ':' :: between ∧ Gap between
  null : ∀ level, write level .null = "null"
  yes : ∀ level, write level (.bool true) = "true"
  no : ∀ level, write level (.bool false) = "false"
  str : ∀ level s, write level (.str s) = quote s
  emptyArr : ∀ level, write level (.arr []) = "[]"
  arr : ∀ level j rest, write level (.arr (j :: rest)) = "[" ++ gap (level + 1) ++
    ("," ++ gap (level + 1)).intercalate ((j :: rest).map (write (level + 1))) ++ gap level ++ "]"
  emptyObj : ∀ level, write level (.obj []) = "\x7b\x7d"
  obj : ∀ level f rest, write level (.obj (f :: rest)) = "\x7b" ++ gap (level + 1) ++
    ("," ++ gap (level + 1)).intercalate
      ((f :: rest).map fun f => quote f.1 ++ sep ++ write (level + 1) f.2) ++ gap level ++ "\x7d"

theorem writing_compact : Writing (fun _ => compact) (fun _ => "") ":" where
  gaps _ := gap_nil
  colon := ⟨[], rfl, gap_nil⟩
  null _ := rfl
  yes _ := rfl
  no _ := rfl
  str _ _ := rfl
  emptyArr _ := rfl
  arr _ j rest := by rw [compact, compactList_eq_map]; simp
  emptyObj _ := rfl
  obj _ f rest := by rw [compact, compactFields_eq_map]; simp

theorem writing_prettyAt : Writing prettyAt lineStart ": " where
  gaps := gap_lineStart
  colon := ⟨[' '], rfl, by simp [Gap, isJsonBlank]⟩
  null _ := by rw [prettyAt]
  yes _ := by rw [prettyAt]
  no _ := by rw [prettyAt]
  str _ _ := by rw [prettyAt]
  emptyArr _ := by rw [prettyAt]; rfl
  arr _ j rest := by rw [prettyAt, prettyList_eq_map, bracketed]; rfl
  emptyObj _ := by rw [prettyAt]; rfl
  obj _ f rest := by rw [prettyAt, prettyFields_eq_map, bracketed]; rfl

/-- However it is written, the text of a value is a print of it. -/
theorem Writing.prints {write : Nat → Json → String} {gap : Nat → String} {sep : String}
    (writing : Writing write gap sep) : (room level : Nat) → (j : Json) → Fits room j →
      Prints room j (write level j).toList
  | _, level, .null, _ => by rw [writing.null]; exact .null
  | _, level, .bool true, _ => by rw [writing.yes]; exact .yes
  | _, level, .bool false, _ => by rw [writing.no]; exact .no
  | _, level, .str s, _ => by rw [writing.str]; exact .str s
  | room + 1, level, .arr [], _ => by rw [writing.emptyArr]; exact .emptyArr
  | room + 1, level, .arr (j :: rest), fits => by
      have each : ∀ i ∈ j :: rest, Prints room i (write (level + 1) i).toList := fun i member =>
        writing.prints room (level + 1) i (fitsItems_iff.mp fits i member)
      have inner := printsItems_intercalate _ (writing.gaps (level + 1)) (writing.gaps level)
        (List.cons_ne_nil j rest) each
      rw [writing.arr]
      simpa using Prints.arr inner
  | room + 1, level, .obj [], _ => by rw [writing.emptyObj]; exact .emptyObj
  | room + 1, level, .obj (f :: rest), fits => by
      obtain ⟨between, split, middle⟩ := writing.colon
      have each : ∀ g ∈ f :: rest, Prints room g.2 (write (level + 1) g.2).toList :=
        fun g member => writing.prints room (level + 1) g.2 (fitsFields_iff.mp fits g member)
      have inner := printsFields_intercalate _ (writing.gaps (level + 1)) (writing.gaps level) sep
        middle split (List.cons_ne_nil f rest) each
      rw [writing.obj]
      simpa using Prints.obj inner

/-! ## Decoding -/

/-- Decoding a print gives what decoding the value gives. -/
theorem Prints.decodeText {α : Type} {decode : Document → Decoded α} {j : Json} {cs after : List Char}
    (print : Prints depthLimit j cs) (gap : Gap after) {s : String} (text : s.toList = cs ++ after) :
    Document.decodeText decode s = j.decode decode := by
  have read : Document.read s = (j.document, some after) := by
    rw [Document.read, text]
    exact print.read (by rw [List.length_append]; omega) after
  have nothing : skipBlanks after = [] := by
    have blanks := skipBlanks_gap gap []
    rwa [List.append_nil] at blanks
  rw [Document.decodeText, read, Json.decode]
  simp only [Option.any_some, nothing, List.isEmpty_nil, if_true]
  cases decode j.document <;> rfl

/-- A value without numbers is decoded from its compact text. -/
theorem decodeText_compact {α : Type} (decode : Document → Decoded α) {j : Json}
    (fits : Fits depthLimit j) : Document.decodeText decode j.compact = j.decode decode :=
  (writing_compact.prints depthLimit 0 j fits).decodeText gap_nil (List.append_nil _).symm

/-- A value without numbers is decoded from its indented text, of which the last line may be ended. -/
theorem decodeText_pretty {α : Type} (decode : Document → Decoded α) {j : Json}
    (fits : Fits depthLimit j) {ending : String} (gap : Gap ending.toList) :
    Document.decodeText decode (j.pretty ++ ending) = j.decode decode :=
  (writing_prettyAt.prints depthLimit 0 j fits).decodeText gap (by rw [pretty, String.toList_append])

end QueryBoard.Json
