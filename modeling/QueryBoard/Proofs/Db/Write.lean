import QueryBoard.Db.Write
import QueryBoard.Proofs.Db.Plan
import QueryBoard.Proofs.Sql.Parts
import QueryBoard.Proofs.Text.Utf8

/-!
# What statements that write do to a table

A statement that can be written and is bound goes to its table: an insertion puts its rows behind
all others, an update changes the rows that it is about in their places, and a deletion leaves the
others.  Texts are compared as they are, byte by byte.
-/

set_option autoImplicit false

namespace QueryBoard.Db

open Sql (Legible Part Token Tokens)

/-! ## Statements that can be written -/

/-- Whether a part of a statement does not break it off. -/
def IsWholePart : Part → Prop
  | .name s | .constant (.str s) => '\x00' ∉ s.toList
  | .function name => '\x00' ∉ (Text.upper name).toList
  | .constant (.int _) | .value _ => True

theorem mem_body {q c : Char} {cs : List Char} (member : c ∈ Text.Quoted.body q cs) :
    c = q ∨ c ∈ cs := by
  fun_induction Text.Quoted.body q cs with
  | case1 => cases member
  | case2 rest ih | case3 first rest other ih =>
      simp only [List.mem_cons] at member ⊢
      tauto

theorem not_mem_write {q : Char} (mark : q ≠ '\x00') {s : String} (whole : '\x00' ∉ s.toList) :
    '\x00' ∉ (Text.Quoted.write q s).toList := by
  intro member
  rw [Text.Quoted.write, String.toList_ofList] at member
  simp only [List.mem_cons, List.mem_append, List.not_mem_nil, or_false, mark.symm,
    false_or] at member
  exact (mem_body member).elim mark.symm whole

theorem exists_piece {words : String} {c : Char} (member : c ∈ words.toList) :
    c = ' ' ∨ ∃ piece ∈ Token.pieces words, c ∈ piece := by
  have joined : [' '].intercalate (words.toList.splitOn ' ') = words.toList :=
    List.intercalate_splitOn ' '
  rw [Token.pieces]
  generalize words.toList.splitOn ' ' = pieces at joined
  rw [← joined] at member
  clear joined
  induction pieces with
  | nil => cases member
  | cons first rest ih =>
      cases rest with
      | nil => exact Or.inr ⟨first, by simp, by simpa using member⟩
      | cons second rest =>
          rw [List.intercalate_cons_cons, List.mem_append, List.mem_append,
            List.mem_singleton] at member
          rcases member with (member | same) | member
          · exact Or.inr ⟨first, List.mem_cons_self, member⟩
          · exact Or.inl same
          · exact (ih member).imp_right fun ⟨piece, listed, inside⟩ =>
              ⟨piece, List.mem_cons_of_mem _ listed, inside⟩

theorem isWhole_keyword {words : String} (plain : Token.WordsOnly words) :
    IsWhole (.keyword words) := by
  intro member
  rcases exists_piece member with same | ⟨piece, listed, inside⟩
  · cases same
  · rcases plain piece listed with ⟨_, letters⟩ | rfl
    · exact absurd (letters _ inside) (by decide)
    · revert inside
      decide

/-- Tokens are written in full if their parts are. -/
theorem isWhole_of_parts {ts : Tokens} (legible : Legible ts)
    (parts : ∀ p ∈ ts.parts, IsWholePart p) : ∀ t ∈ ts, IsWhole t := by
  intro t member
  have part {p : Part} (is : t.part? = some p) : IsWholePart p :=
    parts p (List.mem_filterMap.mpr ⟨t, member, is⟩)
  cases t with
  | keyword words => exact isWhole_keyword (legible.keywords words member)
  | operator op => cases op <;> simp [IsWhole, Token.text, Sql.BinaryOp.text]
  | newline depth => simp [IsWhole, Token.text]
  | ident name => exact not_mem_write (by decide) (part (p := .name name) rfl)
  | function name => exact part (p := .function name) rfl
  | literal l =>
      cases l with
      | int n => exact isWhole_int n
      | str s => exact not_mem_write (by decide) (part (p := .constant (.str s)) rfl)
  | _ => simp [IsWhole, Token.text, Sql.Dialect.placeholder]

/-- Whether a part is a name that is written in full, or a value that can be bound. -/
def IsPlainPart : Part → Prop
  | .name s => '\x00' ∉ s.toList
  | .value v => v.isList = false
  | .function _ | .constant _ => False

section

variable {ts : Tokens} (legible : Legible ts) (plain : ∀ p ∈ ts.parts, IsPlainPart p)
  {filters : List Sql.Expr}
include legible plain

theorem isWhole_of_plain : ∀ t ∈ ts, IsWhole t := by
  refine isWhole_of_parts legible fun p member => ?_
  have is := plain p member
  cases p with
  | name s => exact is
  | value v => trivial
  | function name => exact is.elim
  | constant l => exact is.elim

/-- A statement of such parts is run if it keeps within the limits. -/
theorem accepted_of_parts (few : ts.params.length ≤ Limit.parameters.most)
    (shallow : ((Sql.Expr.conjunction filters).map levels).getD 0 ≤ Limit.depth.most) :
    checkText ts 1 filters = .ok () ∧ checkParams ts.params = .ok () := by
  have single : ts.params.any Value.isList = false := by
    rw [List.any_eq_false]
    intro v member
    rw [Sql.Tokens.params_eq_filterMap, List.mem_filterMap] at member
    obtain ⟨p, listed, is⟩ := member
    cases p with
    | value w =>
        cases is
        rw [plain (.value v) listed]
        exact Bool.false_ne_true
    | _ => cases is
  have whole := isWhole_of_plain legible plain
  refine ⟨checkText_eq_ok_iff.mpr ⟨whole, by decide, few, shallow⟩, ?_⟩
  rw [checkParams, single]
  rfl

/-- With too many values the statement is refused for their number. -/
theorem checkText_of_crowded {e : DbError} (crowded : checkParamCount ts = .error e) :
    checkText ts 1 filters = .error e := by
  rw [checkText, checkNames_eq_ok_iff.mpr (isWhole_of_plain legible plain), ok_bind,
    check_eq_ok_iff.mpr (by decide), ok_bind, crowded]
  rfl

end

/-! ### Statements of values -/

/-- The cell that a parameter is bound to. -/
def Cell.ofParam (v : Value) : Cell := (ofValue? v).getD .null

section

variable {table column : String} {key : Value}

theorem parts_params (vs : List Value) :
    (vs.map Sql.Expr.param).flatMap Sql.Expr.parts = vs.map .value := by
  rw [List.flatMap_map]
  exact List.flatMap_pure_eq_map ..

/-- An insertion of values is run. -/
theorem accepted_insert {columns : List String} {rows : List (List Value)}
    (names : ∀ c ∈ table :: columns, '\x00' ∉ c.toList)
    (single : ∀ v ∈ rows.flatten, v.isList = false)
    (few : rows.flatten.length ≤ Limit.parameters.most) :
    let s : Sql.Insert := { table, columns, rows := rows.map fun row => row.map .param }
    checkText s.tokens 1 [] = .ok () ∧ checkParams s.tokens.params = .ok () := by
  intro s
  have parts : s.tokens.parts = (table :: columns).map Part.name ++ rows.flatten.map .value := by
    rw [s.parts_tokens, Sql.Insert.parts, List.map_flatten, ← List.flatMap_def, List.flatMap_map]
    simp only [parts_params]
    rfl
  have params : s.tokens.params = rows.flatten := by
    have names : (table :: columns).filterMap (Part.value? ∘ Part.name) = [] :=
      List.filterMap_eq_nil_iff.mpr fun _ _ => rfl
    have values : rows.flatten.filterMap (Part.value? ∘ Part.value) = rows.flatten :=
      List.filterMap_some ..
    rw [Tokens.params_eq_filterMap, parts, List.filterMap_append, List.filterMap_map,
      List.filterMap_map, names, values, List.nil_append]
  refine accepted_of_parts s.legible ?_ (params ▸ few) (by decide)
  rw [parts]
  intro p member
  rcases List.mem_append.mp member with member | member
  · obtain ⟨c, listed, rfl⟩ := List.mem_map.mp member
    exact names c listed
  · obtain ⟨v, listed, rfl⟩ := List.mem_map.mp member
    exact single v listed

theorem shallow_equals (column : String) (key : Value) :
    ((Sql.Expr.conjunction [(Sql.Expr.col column).eq (.param key)]).map levels).getD 0 ≤
      Limit.depth.most := by
  have two : levels ((Sql.Expr.col column).eq (.param key)) = 2 := rfl
  exact two.trans_le (by decide)

/-- An update of the rows with a value in a column is run. -/
theorem accepted_update {given : List (String × Value)}
    (names : ∀ c ∈ table :: column :: given.map Prod.fst, '\x00' ∉ c.toList)
    (single : ∀ v ∈ key :: given.map Prod.snd, v.isList = false)
    (few : given.length < Limit.parameters.most) :
    let s : Sql.Update := { table, assignments := given.map fun g => (g.1, .param g.2)
                            filters := [(Sql.Expr.col column).eq (.param key)] }
    checkText s.tokens 1 s.filters = .ok () ∧ checkParams s.tokens.params = .ok () := by
  intro s
  have parts : s.tokens.parts = .name table ::
      ((given.flatMap fun g => [Part.name g.1, .value g.2]) ++ [.name column, .value key]) := by
    rw [s.parts_tokens, Sql.Update.parts, List.flatMap_map]
    rfl
  have params : s.tokens.params = given.map Prod.snd ++ [key] := by
    have values : (given.flatMap fun g => [Part.name g.1, .value g.2]).filterMap Part.value? =
        given.map Prod.snd := by
      rw [List.filterMap_flatMap]
      exact List.flatMap_pure_eq_map ..
    rw [Tokens.params_eq_filterMap, parts, List.filterMap_cons_none rfl, List.filterMap_append,
      values]
    rfl
  refine accepted_of_parts s.legible ?_ ?_ (shallow_equals column key)
  · simp only [List.forall_mem_cons, List.forall_mem_map] at names single
    rw [parts]
    simp only [List.forall_mem_cons, List.forall_mem_append, List.forall_mem_flatMap]
    exact ⟨names.1, fun g listed => ⟨names.2.2 g listed, single.2 g listed, by simp⟩, names.2.1,
      single.1, by simp⟩
  · rw [params, List.length_append, List.length_map]
    exact few

/-- A deletion of the rows with a value in a column is run. -/
theorem accepted_delete (names : ∀ c ∈ [table, column], '\x00' ∉ c.toList)
    (single : key.isList = false) :
    let s : Sql.Delete := { table, filters := [(Sql.Expr.col column).eq (.param key)] }
    checkText s.tokens 1 s.filters = .ok () ∧ checkParams s.tokens.params = .ok () := by
  intro s
  have parts : s.tokens.parts = [.name table, .name column, .value key] := s.parts_tokens
  refine accepted_of_parts s.legible ?_ ?_ (shallow_equals column key)
  · rw [List.forall_mem_cons, List.forall_mem_singleton] at names
    simp only [parts, List.forall_mem_cons]
    exact ⟨names.1, names.2, single, by simp⟩
  · rw [Tokens.params_eq_filterMap, parts]
    exact (by decide : 1 ≤ Limit.parameters.most)

end

/-! ## Texts -/

theorem compareBytes_eq_iff {a b : List UInt8} : compareBytes a b = .eq ↔ a = b := by
  induction a generalizing b with
  | nil => cases b <;> simp [compareBytes]
  | cons x a ih =>
      cases b with
      | nil => simp [compareBytes]
      | cons y b =>
          rw [compareBytes]
          split
          · next less => simp [(UInt8.ne_of_lt less)]
          · split
            · next _ greater => simp [(UInt8.ne_of_lt greater).symm]
            · next least greatest =>
              have same : x = y :=
                UInt8.le_antisymm (UInt8.not_lt.mp greatest) (UInt8.not_lt.mp least)
              simp [same, ih]

theorem compareBytes_eq_gt_iff {a b : List UInt8} : compareBytes a b = .gt ↔ b < a := by
  induction a generalizing b with
  | nil => cases b <;> simp [compareBytes]
  | cons x a ih =>
      cases b with
      | nil => simp [compareBytes]
      | cons y b =>
          rw [compareBytes, List.cons_lt_cons_iff]
          split
          · next less => simp [UInt8.not_lt.mpr (UInt8.le_of_lt less), (UInt8.ne_of_lt less).symm]
          · split
            · next _ greater => simp [greater]
            · next least greatest =>
              have same : y = x :=
                UInt8.le_antisymm (UInt8.not_lt.mp least) (UInt8.not_lt.mp greatest)
              simp [same, ih]

theorem compareBytes_ne_gt_iff {a b : List UInt8} : (compareBytes a b != .gt) = true ↔ a ≤ b := by
  rw [bne_iff_ne, ne_eq, compareBytes_eq_gt_iff, List.not_lt]

namespace Cell

/-- The cell of a text that may be missing. -/
def ofText (text : Option String) : Cell := (text.map ofString).getD .null

@[simp]
theorem ofText_some (s : String) : ofText (some s) = .ofString s := rfl

theorem compare_ofString {a b : String} :
    (ofString a).compare (ofString b) = .eq ↔ a = b := by
  rw [ofString, ofString, compare, compareBytes_eq_iff]
  constructor
  · intro same
    have texts := congrArg Text.Utf8.strict? same
    rwa [Text.Utf8.strict?_toUTF8, Text.Utf8.strict?_toUTF8, Option.some.injEq] at texts
  · exact fun same => same ▸ rfl

theorem ofString_inj {a b : String} : ofString a = ofString b ↔ a = b :=
  ⟨fun same => compare_ofString.mp (same ▸ compare_ofString.mpr rfl), congrArg _⟩

theorem ofText_inj {a b : Option String} : ofText a = ofText b ↔ a = b := by
  cases a with
  | none => cases b <;> simp [ofText, ofString]
  | some a =>
      cases b with
      | none => simp [ofText, ofString]
      | some b => rw [ofText_some, ofText_some, ofString_inj, Option.some.injEq]

end Cell

/-- A text column holds what is put into it. -/
theorem Affinity.store_text (text : Option String) :
    Affinity.store .text (.ofText text) = .ofText text := by
  cases text <;> rfl

/-- Texts are compared as texts unless numbers are asked for. -/
theorem compareCells_text {a : Affinity} (textual : a.isNumeric = false) (text : Option String)
    (s : String) : compareCells .eq a (.ofText text) (.ofString s) = text.map (· == s) := by
  cases text with
  | none => rfl
  | some t =>
      have same : satisfies .eq ((Cell.ofString t).compare (Cell.ofString s)) = (t == s) := by
        rw [Bool.eq_iff_iff]
        simp [satisfies, Cell.compare_ofString]
      rw [Option.map_some, ← same]
      cases a with
      | none => rfl
      | text => rfl
      | _ => cases textual

theorem compareCells_texts {a : Affinity} (textual : a.isNumeric = false) (x y : Option String) :
    compareCells .eq a (.ofText x) (.ofText y) = y.bind fun s => x.map (· == s) := by
  cases y with
  | none => cases x <;> rfl
  | some s => exact compareCells_text textual x s

theorem isMember_text (s : String) (items : List String) :
    isMember .text (.ofString s) (items.map .ofString) = some (items.contains s) := by
  have outcomes : (items.map Cell.ofString).map (compareCells .eq .text (.ofString s)) =
      items.map fun i => some (s == i) := by
    rw [List.map_map]
    exact List.map_congr_left fun i _ => compareCells_text rfl (some s) i
  rw [isMember, outcomes]
  by_cases listed : s ∈ items
  · simp [listed]
  · simp [listed]

/-! ## Rows in their places -/

namespace Table

variable {t : Table} {row : Row} {rows : List Row}

/-- Whether the rows of a table stand in the order of their ids. -/
def Ordered (t : Table) : Prop := (t.rows.map fun r => r.id).Pairwise (· < ·)

theorem place_last (last : ∀ r ∈ rows, r.id < row.id) : place row rows = rows ++ [row] := by
  induction rows with
  | nil => rfl
  | cons r rest ih =>
      rw [List.forall_mem_cons] at last
      rw [place, if_neg (Int64.lt_asymm last.1), ih last.2]
      rfl

theorem place_first (first : ∀ r ∈ rows, row.id < r.id) : place row rows = row :: rows := by
  cases rows with
  | nil => rfl
  | cons r rest => rw [place, if_pos (first r List.mem_cons_self)]

/-- A row that is taken out and put back with other cells stands where it stood. -/
theorem place_filter (ordered : (rows.map fun r => r.id).Pairwise (· < ·)) {old : Row}
    (member : old ∈ rows) (same : row.id = old.id) :
    place row (rows.filter (·.id != old.id)) =
      rows.map fun r => if r.id = old.id then row else r := by
  induction rows with
  | nil => cases member
  | cons r rest ih =>
      rw [List.map_cons, List.pairwise_cons] at ordered
      have after : ∀ x ∈ rest, r.id < x.id := fun x inside =>
        ordered.1 x.id (List.mem_map_of_mem inside)
      rcases List.mem_cons.mp member with rfl | member
      · have others : rest.filter (·.id != old.id) = rest := by
          rw [List.filter_eq_self]
          intro x inside
          simpa using (Int64.ne_of_lt (after x inside)).symm
        have kept : (rest.map fun x => if x.id = old.id then row else x) = rest := by
          refine (List.map_congr_left fun x inside => ?_).trans (List.map_id _)
          exact if_neg (Int64.ne_of_lt (after x inside)).symm
        rw [List.filter_cons_of_neg (by simp), others, List.map_cons, if_pos rfl, kept]
        exact place_first fun x inside => same ▸ after x inside
      · have apart : r.id ≠ old.id := Int64.ne_of_lt (after old member)
        rw [List.filter_cons_of_pos (by simpa using apart), List.map_cons, if_neg apart, place,
          if_neg (same ▸ Int64.lt_asymm (after old member)), ih ordered.2 member]

/-! ## Changes of a table -/

theorem withId_eq_self (plain : t.rowidColumn? = none) (row : Row) : t.withId row = row := by
  rw [withId, plain]

/-- Whether there are ids left for some more rows behind those of a table. -/
structure Room (t : Table) (n : Nat) : Prop where
  few : (n : Int) < Int.pow 2 63
  behind : ∀ r ∈ t.rows, r.id.toInt + n < Int.pow 2 63

/-- A new row gets the id after all others. -/
theorem exists_nextId (counted : t.autoincrement = false) (ordered : t.Ordered) {n : Nat}
    (room : t.Room (n + 1)) :
    ∃ id, t.nextId = .ok id ∧ (∀ r ∈ t.rows, r.id < id) ∧ id.toInt + n < Int.pow 2 63 := by
  cases rows : t.rows.getLast? with
  | none =>
      rw [List.getLast?_eq_none_iff] at rows
      refine ⟨1, ?_, by simp [rows], ?_⟩
      · simp only [nextId, counted, rows]
        rfl
      · have few := room.few
        have one : (1 : Int64).toInt = 1 := by decide
        omega
  | some last =>
      obtain ⟨before, split⟩ := List.getLast?_eq_some_iff.mp rows
      have least : ∀ r ∈ t.rows, r.id ≤ last.id := by
        rw [Ordered, split, List.map_append, List.pairwise_append] at ordered
        intro r member
        rw [split, List.mem_append, List.mem_singleton] at member
        rcases member with member | rfl
        · exact Int64.le_of_lt (ordered.2.2 r.id (List.mem_map_of_mem member) last.id (by simp))
        · exact Int64.le_refl _
      have small := room.behind last (List.mem_of_getLast? rows)
      have fits : last.id.toInt + 1 < Int.pow 2 63 := by omega
      have next : (Int64.ofInt (last.id.toInt + 1)).toInt = last.id.toInt + 1 :=
        Int64.toInt_ofInt_of_le
          (Int.le_trans last.id.le_toInt (Int.le_add_one (Int.le_refl _))) fits
      refine ⟨Int64.ofInt (last.id.toInt + 1), ?_, fun r member => ?_, by omega⟩
      · simp only [nextId, counted, rows]
        exact if_pos fits
      · have below := Int64.le_iff_toInt_le.mp (least r member)
        rw [Int64.lt_iff_toInt_lt, next]
        omega

theorem checkUnique_eq_ok {others : List Row} (apart : ∀ o ∈ others, o.id ≠ row.id)
    (differs : ∀ set ∈ t.uniques, ∀ o ∈ others, agree set o.cells row.cells = false) :
    t.checkUnique others row = .ok () := by
  have ids : others.any (fun o => o.id == row.id) = false := by
    rw [List.any_eq_false]
    intro o member
    simpa using apart o member
  have sets : (t.uniques.reverse.find? fun set => others.any fun o => agree set o.cells row.cells) =
      none := by
    rw [List.find?_eq_none]
    intro set listed
    rw [Bool.not_eq_true, List.any_eq_false]
    intro o member
    rw [differs set (List.mem_reverse.mp listed) o member]
    simp
  rw [checkUnique, if_neg (by simp [ids]), sets]

/-- A row that agrees with no other one is put behind all rows. -/
theorem insert_eq_ok (plain : t.rowidColumn? = none) (counted : t.autoincrement = false)
    (ordered : t.Ordered) {n : Nat} (room : t.Room (n + 1)) {given : List (Target × Cell)}
    (free : given.reverse.lookup .rowid = none)
    (full : t.checkNotNull (fun _ => true) (t.newCells given) = .ok ())
    (differs : ∀ set ∈ t.uniques, ∀ o ∈ t.rows, agree set o.cells (t.newCells given) = false) :
    ∃ id, t.insert given = .ok { t with rows := t.rows ++ [⟨id, t.newCells given⟩] } ∧
      (∀ r ∈ t.rows, r.id < id) ∧ id.toInt + n < Int.pow 2 63 := by
  obtain ⟨id, next, last, left⟩ := exists_nextId counted ordered room
  have unique : t.checkUnique t.rows ⟨id, t.newCells given⟩ = .ok () :=
    checkUnique_eq_ok (fun r member => Int64.ne_of_lt (last r member)) differs
  have chosen : t.newId given = .ok id := by
    rw [newId, free]
    exact next
  have placed : place ⟨id, t.newCells given⟩ t.rows = t.rows ++ [⟨id, t.newCells given⟩] :=
    place_last last
  refine ⟨id, ?_, last, left⟩
  simp only [insert, chosen, ok_bind, withId_eq_self plain, full, unique, counted, placed]
  rfl

/-- A row that agrees with another one is refused. -/
theorem insert_eq_error (plain : t.rowidColumn? = none) (counted : t.autoincrement = false)
    (ordered : t.Ordered) {n : Nat} (room : t.Room (n + 1)) {given : List (Target × Cell)}
    (free : given.reverse.lookup .rowid = none)
    (full : t.checkNotNull (fun _ => true) (t.newCells given) = .ok ())
    {set : List Nat} (only : t.uniques = [set]) {other : Row} (member : other ∈ t.rows)
    (same : agree set other.cells (t.newCells given) = true) :
    t.insert given = .error (.unique t.name (set.map t.columnName)) := by
  obtain ⟨id, next, last, -⟩ := exists_nextId counted ordered room
  have ids : t.rows.any (·.id == id) = false := by
    rw [List.any_eq_false]
    intro r inside
    simpa using Int64.ne_of_lt (last r inside)
  have found : t.rows.any (fun o => agree set o.cells (t.newCells given)) = true :=
    List.any_eq_true.mpr ⟨other, member, same⟩
  have refused : t.checkUnique t.rows ⟨id, t.newCells given⟩ =
      .error (.unique t.name (set.map t.columnName)) := by
    rw [checkUnique, if_neg (by simp [ids]), only, List.reverse_singleton, List.find?_cons, found]
  have chosen : t.newId given = .ok id := by
    rw [newId, free]
    exact next
  simp only [insert, chosen, ok_bind, withId_eq_self plain, full, refused]
  rfl

/-- The cells of a row after assignments. -/
def assigned (t : Table) (given : List (Target × Cell)) (cells : List Cell) : List Cell :=
  (t.columns.zip cells).zipIdx.map fun (e, i) =>
    match given.reverse.lookup (.column i) with
    | some c => e.1.affinity.store c
    | none => e.2

/-- A row that agrees with no other one is changed in its place. -/
theorem update_eq_ok (plain : t.rowidColumn? = none) (ordered : t.Ordered)
    {given : List (Target × Cell)} (free : given.reverse.lookup .rowid = none)
    (member : row ∈ t.rows)
    (full : t.checkNotNull (fun i => given.any (·.1 == .column i)) (t.assigned given row.cells) =
      .ok ())
    (differs : ∀ set ∈ t.uniques, ∀ o ∈ t.rows, o.id ≠ row.id →
      agree set o.cells (t.assigned given row.cells) = false) :
    t.update given row = .ok { t with rows := t.rows.map fun r =>
      if r.id = row.id then ⟨row.id, t.assigned given row.cells⟩ else r } := by
  have changed : t.changed given row = .ok ⟨row.id, t.assigned given row.cells⟩ := by
    rw [Table.changed, free]
    exact congrArg Except.ok (withId_eq_self plain _)
  have unique : t.checkUnique (t.rows.filter (·.id != row.id))
      ⟨row.id, t.assigned given row.cells⟩ = .ok () := by
    refine checkUnique_eq_ok ?_ fun set listed o inside => ?_
    · intro o inside
      simpa using (List.mem_filter.mp inside).2
    · obtain ⟨stored, apart⟩ := List.mem_filter.mp inside
      exact differs set listed o stored (by simpa using apart)
  have moved : place ⟨row.id, t.assigned given row.cells⟩ (t.rows.filter (·.id != row.id)) =
      t.rows.map fun r => if r.id = row.id then ⟨row.id, t.assigned given row.cells⟩ else r :=
    place_filter ordered member rfl
  simp only [update, changed, ok_bind, full, unique, moved]
  rfl

end Table

/-! ## Statements -/

namespace Database

variable {db : Database} {t : Table}

theorem table?_replace (db : Database) (t : Table) (name : String) :
    (db.replace t).table? name =
      (db.table? name).map fun u => if u.name = t.name then t else u := by
  have names : (fun u : Table => sameName name u.name) ∘
      (fun u => if u.name = t.name then t else u) = fun u => sameName name u.name := by
    funext u
    rw [Function.comp_apply]
    split
    · next same => rw [same]
    · rfl
  rw [table?, replace, List.find?_map, names]
  rfl

theorem writable_eq_ok {name : String} (found : db.table? name = some t) :
    db.writable name = .ok t := by
  rw [writable, found]

theorem checkChange_eq_ok (open' : db.refusal = none) : db.checkChange = .ok () := by
  rw [checkChange, open']

section

variable (free : db.refusal = none)
include free

/-- An insertion into a table of the database puts its rows there one after the other. -/
theorem insert_eq {s : Sql.Insert} (found : db.table? s.table = some t)
    (written : checkText s.tokens 1 [] = .ok ()) (bound : checkParams s.tokens.params = .ok ())
    {targets : List Target}
    (known : List.Forall₂ (fun c target => t.target? c = some target) s.columns targets)
    {rows : List (List Cell)} (constants : s.rows.mapM (fun row => row.mapM constant) = .ok rows) :
    db.insert s = (fun t => (db.replace t, rows.length)) <$>
      rows.foldlM (fun t cells => Table.insert t (targets.zip cells)) t := by
  rw [insert, written, ok_bind, writable_eq_ok found, ok_bind]
  refine (bind_of_eq_ok (mapM_eq_ok_iff.mpr (known.imp fun c target same => ?_))).trans ?_
  · rw [same]
  · rw [constants, ok_bind, bound, ok_bind, checkChange_eq_ok free, ok_bind, map_eq_pure_bind]

theorem update_eq {s : Sql.Update} (found : db.table? s.table = some t)
    (few : s.assignments.length ≤ Limit.assignments.most)
    (written : checkText s.tokens 1 s.filters = .ok ())
    (bound : checkParams s.tokens.params = .ok ()) {given : List (Target × Cell)}
    (known : List.Forall₂ (fun a g => constant a.2 = .ok g.2 ∧ t.target? a.1 = some g.1)
      s.assignments given)
    {filters : List Term} (named : resolveList t.names s.filters = .ok filters) :
    db.update s = (fun u => (db.replace u, (t.matching filters).length)) <$>
      (t.matching filters).foldlM (Table.update given) t := by
  rw [update, check_eq_ok_iff.mpr few, ok_bind, written, ok_bind, writable_eq_ok found, ok_bind]
  refine (bind_of_eq_ok (mapM_eq_ok_iff.mpr (known.imp fun a g same => ?_))).trans ?_
  · rw [same.1, ok_bind, same.2]
    rfl
  · rw [named, ok_bind, bound, ok_bind, checkChange_eq_ok free, ok_bind, map_eq_pure_bind]

theorem delete_eq {s : Sql.Delete} (found : db.table? s.table = some t)
    (written : checkText s.tokens 1 s.filters = .ok ())
    (bound : checkParams s.tokens.params = .ok ())
    {filters : List Term} (named : resolveList t.names s.filters = .ok filters) :
    db.delete s = .ok (db.replace { t with
        rows := t.rows.filter fun r => !filters.all (holds · [some r]) },
      (t.matching filters).length) := by
  have left : t.rows.filter (!(t.matching filters).contains ·) =
      t.rows.filter fun r => !filters.all (holds · [some r]) := by
    apply List.filter_congr
    intro r member
    rw [Table.matching, Bool.not_inj_iff, Bool.eq_iff_iff, List.contains_iff_mem, List.mem_filter]
    simp only [member, true_and]
  rw [delete, written, ok_bind, writable_eq_ok found, ok_bind, named, ok_bind, bound, ok_bind,
    checkChange_eq_ok free, ok_bind]
  dsimp only
  rw [left]
  rfl

end

end Database

end QueryBoard.Db
