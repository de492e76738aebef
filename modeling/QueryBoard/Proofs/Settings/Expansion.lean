import QueryBoard.Proofs.Fallible
import QueryBoard.Proofs.Text.Runs
import QueryBoard.Proofs.Text.Utf8
import QueryBoard.Settings.Basic

/-!
# Texts are expanded by a grammar

A text is cut into literal runs, references and lone dollar signs in exactly one way.  Its
expansion has in their places what they stand for, and fails with the first name that is not set to
a text.  Names are looked up in lines, so that a name with an equals sign in it may find the variable
which has the part before that sign as its name.
-/

set_option autoImplicit false

namespace QueryBoard

attribute [local simp] ok_bind pure_eq_ok map_ok

namespace Environment

def equalsSign : UInt8 := 61

/-- Whether a name is set to a value: the first line that starts with the name and an equals sign
goes on with the bytes of the value, and ends. -/
def Sets (env : Environment) (name value : String) : Prop :=
  name ≠ "" ∧ ∃ before after, env = before ++ line name value :: after ∧
    ∀ l ∈ before, ¬ line name "" <+: l

/-- The name of the variable in a line, or all of a line without an equals sign. -/
def nameIn (l : List UInt8) : List UInt8 := l.takeWhile (· ≠ equalsSign)

/-- The name and the value of the variable in a line. -/
def binding? (l : List UInt8) : Option (List UInt8 × List UInt8) :=
  if equalsSign ∈ l then some (nameIn l, (l.dropWhile (· ≠ equalsSign)).drop 1) else none

/-- The lines that can be found by a name. -/
def about (env : Environment) (name : String) : Environment :=
  env.filter fun l => nameIn l = nameIn name.toUTF8.toList

end Environment

namespace Expansion

inductive Segment where
  | literal (run : List Char)
  | braced (name : List Char) (closed : Bool)
  | bare (name : List Char)
  | lone
deriving DecidableEq, Repr

namespace Segment

/-- The slices that a segment takes out of the text. -/
def slices : Segment → List (List Char)
  | .literal run => [run]
  | .braced name true => [['$'], ['\x7b'], name, ['\x7d']]
  | .braced name false => [['$'], ['\x7b'], name]
  | .bare name => [['$'], name]
  | .lone => [['$']]

def text (s : Segment) : List Char := s.slices.flatten

/-- Whether a segment may stand before what is left of the text: a literal run goes as far as there
is no dollar sign, braces stay open only at the end of the text, a bare name is as long as it can
be, and a dollar sign is alone before what is neither a brace nor a name. -/
def Before : Segment → List Char → Prop
  | .literal run, rest => run ≠ [] ∧ '$' ∉ run ∧ ∀ c ∈ rest.head?, c = '$'
  | .braced name closed, rest => '\x7d' ∉ name ∧ (closed = false → rest = [])
  | .bare name, rest => name ≠ [] ∧ (∀ c ∈ name, isNameChar c) ∧ ∀ c ∈ rest.head?, ¬ isNameChar c
  | .lone, rest => ∀ c ∈ rest.head?, c ≠ '\x7b' ∧ ¬ isNameChar c

/-- The name that a reference is to. -/
def name? : Segment → Option String
  | .braced name _ | .bare name => some (String.ofList name)
  | .literal _ | .lone => none

/-- Whether a segment stands for a text: a reference for the value of its name, and every other
segment for itself. -/
def StandsFor (env : Environment) (s : Segment) (part : String) : Prop :=
  match s.name? with
  | some name => env.Sets name part
  | none => part = String.ofList s.text

def piece : Segment → Piece
  | .literal run => .literal run
  | .braced name _ | .bare name => .reference name
  | .lone => .literal ['$']

end Segment

/-- Whether segments are a cut of a text from left to right. -/
inductive Cuts : List Char → List Segment → Prop where
  | nil : Cuts [] []
  | cons {s : Segment} {rest : List Char} {segments : List Segment} :
      s.Before rest → Cuts rest segments → Cuts (s.text ++ rest) (s :: segments)

theorem isNameChar_brace : isNameChar '\x7b' = false := by decide +kernel

/-! ## The first segment -/

namespace Segment

theorem text_literal (run : List Char) : (literal run).text = run := by simp [text, slices]

theorem text_closed (name : List Char) :
    (braced name true).text = '$' :: '\x7b' :: (name ++ ['\x7d']) := by simp [text, slices]

theorem text_unclosed (name : List Char) : (braced name false).text = '$' :: '\x7b' :: name := by
  simp [text, slices]

theorem text_bare (name : List Char) : (bare name).text = '$' :: name := by simp [text, slices]

theorem text_lone : lone.text = ['$'] := rfl

end Segment

open Segment (text_literal text_closed text_unclosed text_bare text_lone)

theorem pieces_literal {run rest : List Char} (before : (Segment.literal run).Before rest) :
    pieces (run ++ rest) = .literal run :: pieces rest := by
  obtain ⟨some_, plain, stop⟩ := before
  obtain ⟨c, run, rfl⟩ := List.exists_cons_of_ne_nil some_
  obtain ⟨other, plain⟩ := List.ne_and_not_mem_of_not_mem_cons plain
  have all : ∀ c ∈ run, decide (c ≠ '$') = true := fun d member =>
    decide_eq_true (ne_of_mem_of_not_mem member plain)
  have stop : ∀ c ∈ rest.head?, decide (c ≠ '$') = false := by simpa using stop
  obtain ⟨taken, left⟩ := span_append all stop
  rw [List.cons_append, pieces.eq_def]
  simp only [if_pos (Ne.symm other), taken, left]

theorem pieces_braced (inner : List Char) : pieces ('$' :: '\x7b' :: inner) =
    .reference (inner.takeWhile (· ≠ '\x7d')) ::
      pieces ((inner.dropWhile (· ≠ '\x7d')).drop 1) := by
  rw [pieces, if_neg (by simp)]

theorem pieces_dollar {rest : List Char} (open_ : rest.head? ≠ some '\x7b') :
    pieces ('$' :: rest) =
      if (rest.takeWhile isNameChar).isEmpty then .literal ['$'] :: pieces rest
      else .reference (rest.takeWhile isNameChar) :: pieces (rest.dropWhile isNameChar) := by
  rw [pieces.eq_def]
  simp only [ne_eq, not_true_eq_false, if_false]
  split
  · exact absurd rfl open_
  · rfl

/-- A bare name does not begin with a brace. -/
theorem head?_ne_brace {name rest : List Char} (before : (Segment.bare name).Before rest) :
    (name ++ rest).head? ≠ some '\x7b' := by
  obtain ⟨some_, all, _⟩ := before
  obtain ⟨c, name, rfl⟩ := List.exists_cons_of_ne_nil some_
  intro brace
  obtain rfl : c = '\x7b' := Option.some.inj brace
  have nameChar := all _ List.mem_cons_self
  rw [isNameChar_brace] at nameChar
  cases nameChar

/-- The first piece is that of the segment in front. -/
theorem pieces_text {s : Segment} {rest : List Char} (before : s.Before rest) :
    pieces (s.text ++ rest) = s.piece :: pieces rest := by
  cases s with
  | literal run =>
      rw [text_literal, pieces_literal before]
      rfl
  | braced name closed =>
      have all : ∀ c ∈ name, decide (c ≠ '\x7d') = true := fun c member =>
        decide_eq_true (ne_of_mem_of_not_mem member before.1)
      cases closed with
      | true =>
          have stop : ∀ c ∈ ('\x7d' :: rest).head?, decide (c ≠ '\x7d') = false := by simp
          obtain ⟨taken, left⟩ := span_append all stop
          rw [text_closed, List.cons_append, List.cons_append, List.append_assoc,
            List.singleton_append, pieces_braced, taken, left]
          rfl
      | false =>
          have stop : ∀ c ∈ ([] : List Char).head?, decide (c ≠ '\x7d') = false := nofun
          obtain ⟨taken, left⟩ := span_append all stop
          rw [before.2 rfl, text_unclosed, List.cons_append, List.cons_append, pieces_braced, taken,
            left]
          rfl
  | bare name =>
      have stop : ∀ c ∈ rest.head?, isNameChar c = false := by simpa using before.2.2
      obtain ⟨taken, left⟩ := span_append before.2.1 stop
      rw [text_bare, List.cons_append, pieces_dollar (head?_ne_brace before), taken, left,
        if_neg (by simpa using before.1)]
      rfl
  | lone =>
      have open_ : rest.head? ≠ some '\x7b' := fun brace => (before _ brace).1 rfl
      have empty : rest.takeWhile isNameChar = [] := by
        cases rest with
        | nil => rfl
        | cons c rest => exact List.takeWhile_cons_of_neg (before c rfl).2
      rw [text_lone, List.singleton_append, pieces_dollar open_, empty]
      rfl

theorem Cuts.pieces_eq {cs : List Char} {segments : List Segment} (cuts : Cuts cs segments) :
    pieces cs = segments.map Segment.piece := by
  induction cuts with
  | nil => rw [pieces, List.map_nil]
  | cons before _ ih => rw [pieces_text before, ih, List.map_cons]

/-! ## Cuts -/

/-- Every text begins with a segment. -/
theorem exists_before {cs : List Char} (some_ : cs ≠ []) :
    ∃ (s : Segment) (rest : List Char), cs = s.text ++ rest ∧ s.Before rest := by
  obtain ⟨c, tail, rfl⟩ := List.exists_cons_of_ne_nil some_
  by_cases dollar : c = '$'
  · subst dollar
    by_cases brace : tail.head? = some '\x7b'
    · obtain ⟨inner, rfl⟩ := List.head?_eq_some_iff.mp brace
      obtain ⟨name, rest, rfl, all, stop⟩ := exists_span (· ≠ '\x7d') inner
      have inside : '\x7d' ∉ name := fun member => by simpa using all _ member
      cases rest with
      | nil => exact ⟨.braced name false, [], by rw [text_unclosed]; rfl, inside, fun _ => rfl⟩
      | cons d rest =>
          obtain rfl : d = '\x7d' := by simpa using stop d rfl
          exact ⟨.braced name true, rest, by rw [text_closed]; simp, inside, nofun⟩
    · obtain ⟨name, rest, rfl, all, stop⟩ := exists_span isNameChar tail
      have stop : ∀ c ∈ rest.head?, ¬ isNameChar c = true := by simpa using stop
      by_cases empty : name = []
      · subst empty
        refine ⟨.lone, rest, rfl, fun c head => ⟨?_, stop c head⟩⟩
        rintro rfl
        exact brace head
      · exact ⟨.bare name, rest, by rw [text_bare, List.cons_append], empty, all, stop⟩
  · obtain ⟨run, rest, same, all, stop⟩ := exists_span (· ≠ '$') (c :: tail)
    refine ⟨.literal run, rest, by rw [text_literal, same], ?_, fun member => ?_, ?_⟩
    · rintro rfl
      rw [List.nil_append] at same
      subst same
      exact dollar (by simpa using stop c rfl)
    · simpa using all _ member
    · simpa using stop

theorem Segment.text_ne_nil {s : Segment} {rest : List Char} (before : s.Before rest) :
    s.text ≠ [] := by
  cases s with
  | literal run =>
      rw [text_literal]
      exact before.1
  | braced name closed => cases closed <;> exact nofun
  | bare name => exact nofun
  | lone => exact nofun

theorem exists_cuts (cs : List Char) : ∃ segments, Cuts cs segments := by
  induction length : cs.length using Nat.strongRecOn generalizing cs with
  | _ n ih =>
      by_cases empty : cs = []
      · exact ⟨[], empty ▸ .nil⟩
      · obtain ⟨s, rest, rfl, before⟩ := exists_before empty
        have shorter : rest.length < n := by
          have := List.length_pos_iff.mpr (Segment.text_ne_nil before)
          rw [← length, List.length_append]
          omega
        obtain ⟨segments, cuts⟩ := ih rest.length shorter rest rfl
        exact ⟨s :: segments, .cons before cuts⟩

theorem closed_ne_unclosed (name rest : List Char) :
    (Segment.braced name true).text ++ rest ≠ (Segment.braced name false).text ++ [] := by
  intro same
  have length := congrArg List.length same
  simp [text_closed, text_unclosed] at length

theorem braced_ne_bare {name name' rest rest' : List Char} (closed : Bool)
    (before : (Segment.bare name').Before rest') :
    (Segment.braced name closed).text ++ rest ≠ (Segment.bare name').text ++ rest' := by
  intro same
  refine head?_ne_brace before ?_
  rw [text_bare] at same
  cases closed <;> exact (congrArg List.head? (List.cons.inj same).2).symm

/-- Only one segment can stand in front. -/
theorem Segment.eq_of_text_append {a b : Segment} {rest rest' : List Char} (before : a.Before rest)
    (before' : b.Before rest') (same : a.text ++ rest = b.text ++ rest') : a = b := by
  have pieces := pieces_text before'
  rw [← same, pieces_text before] at pieces
  have piece : a.piece = b.piece := (List.cons.inj pieces).1
  cases a with
  | literal run =>
      cases b with
      | literal run' => exact congrArg literal (Piece.literal.inj piece)
      | lone =>
          cases piece
          exact absurd List.mem_cons_self before.2.1
      | _ => cases piece
  | braced name closed =>
      cases b with
      | braced name' closed' =>
          cases piece
          cases closed with
          | true =>
              cases closed' with
              | true => rfl
              | false =>
                  rw [before'.2 rfl] at same
                  exact absurd same (closed_ne_unclosed name rest)
          | false =>
              cases closed' with
              | true =>
                  rw [before.2 rfl] at same
                  exact absurd same.symm (closed_ne_unclosed name rest')
              | false => rfl
      | bare name' => exact absurd same (braced_ne_bare closed before')
      | _ => cases piece
  | bare name =>
      cases b with
      | bare name' => exact congrArg bare (Piece.reference.inj piece)
      | braced name' closed' => exact absurd same.symm (braced_ne_bare closed' before)
      | _ => cases piece
  | lone =>
      cases b with
      | lone => rfl
      | literal run =>
          cases piece
          exact absurd List.mem_cons_self before'.2.1
      | _ => cases piece

theorem Cuts.cases_eq {cs : List Char} {other : List Segment} (cuts : Cuts cs other) :
    cs = [] ∧ other = [] ∨ ∃ s rest segments, cs = s.text ++ rest ∧ other = s :: segments ∧
      s.Before rest ∧ Cuts rest segments := by
  cases cuts with
  | nil => exact .inl ⟨rfl, rfl⟩
  | cons before cuts => exact .inr ⟨_, _, _, rfl, rfl, before, cuts⟩

theorem Cuts.unique {cs : List Char} {segments other : List Segment} (cuts : Cuts cs segments)
    (cuts' : Cuts cs other) : segments = other := by
  induction cuts generalizing other with
  | nil =>
      obtain ⟨_, same⟩ | ⟨s, rest, _, same, _, before, _⟩ := cuts'.cases_eq
      · exact same.symm
      · exact absurd (List.append_eq_nil_iff.mp same.symm).1 (Segment.text_ne_nil before)
  | @cons s rest segments before _ ih =>
      obtain ⟨same, _⟩ | ⟨s', rest', segments', same, rfl, before', cuts'⟩ := cuts'.cases_eq
      · exact absurd (List.append_eq_nil_iff.mp same).1 (Segment.text_ne_nil before)
      · obtain rfl := Segment.eq_of_text_append before before' same
        obtain rfl := List.append_cancel_left same
        rw [ih cuts']

theorem Cuts.flatten_eq {cs : List Char} {segments : List Segment} (cuts : Cuts cs segments) :
    (segments.flatMap Segment.slices).flatten = cs := by
  induction cuts with
  | nil => rfl
  | @cons s rest segments _ _ ih =>
      rw [List.flatMap_cons, List.flatten_append, ih]
      rfl

/-- Slices begin and end between characters. -/
theorem Cuts.isValid {text : String} {segments : List Segment} (cuts : Cuts text.toList segments)
    {before after : List (List Char)} (split : segments.flatMap Segment.slices = before ++ after) :
    (⟨(String.ofList before.flatten).utf8ByteSize⟩ : String.Pos.Raw).IsValid text := by
  refine String.Pos.Raw.isValid_iff_exists_append.mpr
    ⟨String.ofList before.flatten, String.ofList after.flatten, ?_, rfl⟩
  have whole := cuts.flatten_eq
  rw [split, List.flatten_append] at whole
  rw [← String.ofList_append, whole, String.ofList_toList]

end Expansion

/-! ## Names -/

namespace Environment

theorem line_eq (name value : String) :
    line name value = name.toUTF8.toList ++ equalsSign :: value.toUTF8.toList := by
  have sign : "=".toList.flatMap String.utf8EncodeChar = [equalsSign] := by decide
  simp only [line, Text.Utf8.toList_toUTF8, String.toList_append, List.flatMap_append, sign,
    List.append_assoc, List.singleton_append]

theorem toUTF8_empty : "".toUTF8.toList = [] := by
  rw [Text.Utf8.toList_toUTF8]
  rfl

theorem line_append (name value : String) :
    line name value = line name "" ++ value.toUTF8.toList := by
  rw [line_eq, line_eq, toUTF8_empty, List.append_assoc, List.singleton_append]

theorem restAfter?_eq_some_iff {start bytes rest : List UInt8} :
    restAfter? start bytes = some rest ↔ bytes = start ++ rest := by
  induction start generalizing bytes with
  | nil => exact ⟨Option.some.inj, congrArg some⟩
  | cons a start ih =>
      cases bytes with
      | nil => exact ⟨nofun, nofun⟩
      | cons b bytes =>
          rw [restAfter?, List.cons_append]
          split
          · next same => rw [ih, same, List.cons_inj_right]
          · next different =>
              exact ⟨nofun, fun same => absurd (List.cons.inj same).1.symm different⟩

theorem restAfter?_eq_none_iff {start bytes : List UInt8} :
    restAfter? start bytes = none ↔ ¬ start <+: bytes := by
  rw [Option.eq_none_iff_forall_ne_some, List.IsPrefix, not_exists]
  exact forall_congr' fun rest => not_congr (restAfter?_eq_some_iff.trans eq_comm)

theorem text?_eq_some_iff {env : Environment} {name value : String} :
    env.text? name = some value ↔ env.Sets name value := by
  rw [text?, Option.bind_eq_some_iff, Sets, get?]
  simp only [Text.Utf8.strict?_eq_some_iff, exists_eq_right]
  by_cases empty : name = ""
  · subst empty
    exact ⟨nofun, fun sets => absurd rfl sets.1⟩
  · rw [if_neg (by simpa using empty), List.findSome?_eq_some_iff]
    simp only [restAfter?_eq_some_iff, restAfter?_eq_none_iff, ← line_append]
    constructor
    · rintro ⟨before, _, after, rfl, rfl, earlier⟩
      exact ⟨empty, before, after, rfl, earlier⟩
    · rintro ⟨_, before, after, rfl, earlier⟩
      exact ⟨before, _, after, rfl, rfl, earlier⟩

theorem text?_eq_none_iff {env : Environment} {name : String} :
    env.text? name = none ↔ ∀ value, ¬ env.Sets name value := by
  rw [Option.eq_none_iff_forall_ne_some]
  exact forall_congr' fun value => not_congr text?_eq_some_iff

/-- A line has the same part before the first equals sign as the name in it. -/
theorem nameIn_of_head {name : String} {l : List UInt8} (found : line name "" <+: l) :
    nameIn l = nameIn name.toUTF8.toList := by
  obtain ⟨rest, rfl⟩ := found
  rw [line_eq, List.append_assoc]
  exact takeWhile_append_cons (by simp) name.toUTF8.toList _

/-- Only lines with the name's part before an equals sign as their name are found by the name. -/
theorem text?_about (env : Environment) (name : String) :
    (env.about name).text? name = env.text? name := by
  have found : (env.about name).findSome? (restAfter? (line name "")) =
      env.findSome? (restAfter? (line name "")) := by
    unfold about
    induction env with
    | nil => rfl
    | cons l env ih =>
        rw [List.filter_cons]
        split
        · rw [List.findSome?_cons, List.findSome?_cons, ih]
        · next other =>
            have unrelated : restAfter? (line name "") l = none :=
              restAfter?_eq_none_iff.mpr fun start => other (decide_eq_true (nameIn_of_head start))
            rw [List.findSome?_cons, unrelated, ih]
  rw [text?, text?, get?, get?, found]

theorem nameIn_of_not_mem {bytes : List UInt8} (plain : equalsSign ∉ bytes) :
    nameIn bytes = bytes := by
  have all : ∀ b ∈ bytes, decide (b ≠ equalsSign) = true := fun b member =>
    decide_eq_true (ne_of_mem_of_not_mem member plain)
  have stop : ∀ b ∈ ([] : List UInt8).head?, decide (b ≠ equalsSign) = false := nofun
  simpa only [nameIn, List.append_nil] using (span_append all stop).1

theorem equalsSign_not_mem {name : String} (plain : '=' ∉ name.toList) :
    equalsSign ∉ name.toUTF8.toList := by
  rw [Text.Utf8.mem_toUTF8_iff (by decide)]
  exact plain

/-- A name without an equals sign starts the lines of the variable with that name. -/
theorem binding?_eq_some_iff {bytes value l : List UInt8} (plain : equalsSign ∉ bytes) :
    binding? l = some (bytes, value) ↔ l = bytes ++ equalsSign :: value := by
  have all : ∀ b ∈ bytes, decide (b ≠ equalsSign) = true := fun b member =>
    decide_eq_true (ne_of_mem_of_not_mem member plain)
  have stop : ∀ b ∈ (equalsSign :: value).head?, decide (b ≠ equalsSign) = false := by simp
  obtain ⟨taken, left⟩ := span_append all stop
  unfold binding? nameIn
  constructor
  · intro found
    split at found
    · next member =>
        obtain ⟨name, rest⟩ := Prod.mk.inj (Option.some.inj found)
        obtain ⟨run, tail, rfl, all, stop⟩ := exists_span (· ≠ equalsSign) l
        obtain ⟨taken, left⟩ := span_append all stop
        rw [taken] at name
        rw [left] at rest
        subst name
        cases tail with
        | nil => simp [plain] at member
        | cons b tail =>
            obtain rfl : b = equalsSign := by simpa using stop b rfl
            rw [← rest]
            rfl
    · cases found
  · rintro rfl
    rw [if_pos (by simp), taken, left]
    rfl

theorem lookup_bindings {name : String} (plain : '=' ∉ name.toList) (env : Environment) :
    (env.filterMap binding?).lookup name.toUTF8.toList =
      env.findSome? (restAfter? (line name "")) := by
  have plain := equalsSign_not_mem plain
  have start (l rest : List UInt8) :
      restAfter? (line name "") l = some rest ↔ binding? l = some (name.toUTF8.toList, rest) := by
    rw [restAfter?_eq_some_iff, binding?_eq_some_iff plain, line_eq, toUTF8_empty,
      List.append_assoc, List.singleton_append]
  induction env with
  | nil => rfl
  | cons l env ih =>
      rw [List.findSome?_cons]
      cases found : restAfter? (line name "") l with
      | some rest =>
          rw [List.filterMap_cons_some ((start l rest).mp found), List.lookup_cons_self]
      | none =>
          cases bound : binding? l with
          | none => rw [List.filterMap_cons_none bound, ih]
          | some e =>
              have other : (name.toUTF8.toList == e.1) = false := by
                rw [beq_eq_false_iff_ne]
                rintro same
                have := (start l e.2).mpr (by rw [bound, same])
                cases found.symm.trans this
              rw [List.filterMap_cons_some bound, List.lookup_cons, other, ih]

/-- A name without an equals sign is set by the first variable with that name. -/
theorem sets_iff_lookup {name : String} (plain : '=' ∉ name.toList) (env : Environment)
    (value : String) : env.Sets name value ↔ name ≠ "" ∧
      (env.filterMap binding?).lookup name.toUTF8.toList = some value.toUTF8.toList := by
  rw [← text?_eq_some_iff, text?, get?, lookup_bindings plain]
  by_cases empty : name = ""
  · simp [empty]
  · simp [empty, Option.bind_eq_some_iff, Text.Utf8.strict?_eq_some_iff]

end Environment

/-! ## Expansion -/

namespace Expansion

section

variable {env : Environment} {s : Segment}

theorem value_of_itself (itself : s.name? = none) : s.piece.value env = .ok s.text := by
  cases s with
  | literal run => rw [Segment.text_literal, Segment.piece, Piece.value]
  | lone => rfl
  | _ => cases itself

theorem value_of_set {name value : String} (refers : s.name? = some name)
    (found : env.text? name = some value) : s.piece.value env = .ok value.toList := by
  cases s with
  | braced | bare =>
      cases refers
      rw [Segment.piece, Piece.value, found]
  | _ => cases refers

theorem value_of_unset {name : String} (refers : s.name? = some name)
    (unset : env.text? name = none) : s.piece.value env = .error name := by
  cases s with
  | braced | bare =>
      cases refers
      rw [Segment.piece, Piece.value, unset]
  | _ => cases refers

theorem value_eq_ok_iff {out : List Char} :
    s.piece.value env = .ok out ↔ s.StandsFor env (String.ofList out) := by
  unfold Segment.StandsFor
  split
  · next name refers =>
      rw [← Environment.text?_eq_some_iff]
      cases found : env.text? name with
      | some value =>
          rw [value_of_set refers found, Except.ok.injEq, Option.some.injEq, ← String.toList_inj,
            String.toList_ofList]
      | none =>
          rw [value_of_unset refers found]
          exact ⟨nofun, nofun⟩
  · next itself =>
      rw [value_of_itself itself, Except.ok.injEq, String.ofList_inj, eq_comm]

theorem failsWith_value (env : Environment) (s : Segment) : FailsWith (s.piece.value env)
    fun name => s.name? = some name ∧ ∀ value, ¬ env.Sets name value := by
  intro other
  simp only [← Environment.text?_eq_none_iff]
  cases refers : s.name? with
  | none =>
      rw [value_of_itself refers]
      exact ⟨nofun, nofun⟩
  | some name =>
      cases found : env.text? name with
      | some value =>
          rw [value_of_set refers found]
          refine ⟨nofun, fun ⟨same, unset⟩ => ?_⟩
          cases same
          cases found.symm.trans unset
      | none =>
          rw [value_of_unset refers found]
          constructor <;> intro same
          · cases same
            exact ⟨rfl, found⟩
          · cases same.1
            rfl

/-- The value of a reference is found among the variables about its name. -/
theorem value_congr {env' : Environment}
    (same : ∀ name ∈ s.name?, env'.about name = env.about name) :
    s.piece.value env' = s.piece.value env := by
  cases refers : s.name? with
  | none => rw [value_of_itself refers, value_of_itself refers]
  | some name =>
      have found : env'.text? name = env.text? name := by
        rw [← Environment.text?_about env', same name refers, Environment.text?_about]
      cases set_ : env.text? name with
      | some value => rw [value_of_set refers set_, value_of_set refers (found.trans set_)]
      | none => rw [value_of_unset refers set_, value_of_unset refers (found.trans set_)]

end

theorem join_map_ofList (outs : List (List Char)) :
    String.join (outs.map String.ofList) = String.ofList outs.flatten := by
  rw [← String.toList_inj, String.toList_join, String.toList_ofList, List.flatMap_map,
    List.flatten_eq_flatMap]
  simp

section

variable {text : String} {segments : List Segment} (cuts : Cuts text.toList segments)
include cuts

theorem expand_eq (env : Environment) : env.expand text =
    (fun outs => String.ofList outs.flatten) <$> segments.mapM fun s => s.piece.value env := by
  rw [Environment.expand, cuts.pieces_eq, List.mapM_map]
  rfl

theorem expand_eq_ok_iff {env : Environment} {t : String} : env.expand text = .ok t ↔
    ∃ parts, List.Forall₂ (Segment.StandsFor env) segments parts ∧ t = String.join parts := by
  rw [expand_eq cuts]
  constructor
  · intro success
    obtain ⟨outs, each, same⟩ := bind_eq_ok_iff.mp success
    cases same
    refine ⟨outs.map String.ofList, ?_, (join_map_ofList outs).symm⟩
    rw [List.forall₂_map_right_iff]
    exact (mapM_eq_ok_iff.mp each).imp fun _ _ => value_eq_ok_iff.mp
  · rintro ⟨parts, each, rfl⟩
    have outs : parts = (parts.map String.toList).map String.ofList := by simp
    rw [outs, List.forall₂_map_right_iff] at each
    rw [mapM_eq_ok_iff.mpr (each.imp fun _ _ => value_eq_ok_iff.mpr), map_ok, ← join_map_ofList,
      ← outs]

theorem failsWith_expand (env : Environment) : FailsWith (env.expand text)
    (First (fun s name => s.name? = some name ∧ ∀ value, ¬ env.Sets name value) segments) := by
  rw [expand_eq cuts]
  exact (FailsWith.mapM (failsWith_value env) segments).map _

theorem expand_congr {env env' : Environment}
    (same : ∀ s ∈ segments, ∀ name ∈ s.name?, env'.about name = env.about name) :
    env'.expand text = env.expand text := by
  rw [expand_eq cuts, expand_eq cuts, mapM_congr fun s member => value_congr (same s member)]

end

end Expansion

namespace Settings

open Expansion (Segment Cuts)

theorem expandPath_eq (env : Environment) (text : String) :
    expandPath env text = (env.expand text).mapError .undefinedVariable := by
  rw [expandPath]
  cases env.expand text <;> rfl

/-- Every text has one cut, made between characters.  A text is expanded exactly if every name that
it refers to is set to a text, to what its segments stand for, and otherwise the first name that is
not is reported.  Only the lines about the names referred to matter; for a name without an equals
sign these are the lines of the variable with that name, and the first one gives its value. -/
theorem expandPath_by_grammar (env : Environment) (text : String) :
    ∃ segments, (∀ other, Cuts text.toList other ↔ other = segments) ∧
      (∀ before after, segments.flatMap Segment.slices = before ++ after →
        (⟨(String.ofList before.flatten).utf8ByteSize⟩ : String.Pos.Raw).IsValid text) ∧
      ((∃ t, expandPath env text = .ok t) ↔
        ∀ s ∈ segments, ∀ name ∈ s.name?, ∃ value, env.Sets name value) ∧
      (∀ t, expandPath env text = .ok t ↔
        ∃ parts, List.Forall₂ (Segment.StandsFor env) segments parts ∧ t = String.join parts) ∧
      (∀ e, expandPath env text = .error e ↔ ∃ name, e = .undefinedVariable name ∧
        First (fun s name => s.name? = some name ∧ ∀ value, ¬ env.Sets name value) segments name) ∧
      (∀ env', (∀ s ∈ segments, ∀ name ∈ s.name?, env'.about name = env.about name) →
        expandPath env' text = expandPath env text) ∧
      ∀ name, '=' ∉ name.toList →
        env.about name = env.filter (Environment.nameIn · = name.toUTF8.toList) ∧
        ∀ value, env.Sets name value ↔ name ≠ "" ∧
          (env.filterMap Environment.binding?).lookup name.toUTF8.toList =
            some value.toUTF8.toList := by
  obtain ⟨segments, cuts⟩ := Expansion.exists_cuts text.toList
  refine ⟨segments, fun other => ⟨fun cuts' => cuts'.unique cuts, fun same => same ▸ cuts⟩,
    fun before after split => cuts.isValid split, ?_, ?_, ?_, ?_, ?_⟩
  · simp only [expandPath_eq, mapError_eq_ok_iff, (Expansion.failsWith_expand cuts env).ok_iff,
      none_first_iff]
    refine forall₂_congr fun s _ => ⟨fun clean name refers => ?_, fun each name unset => ?_⟩
    · by_contra unset
      exact clean name ⟨refers, not_exists.mp unset⟩
    · exact not_exists.mpr unset.2 (each name unset.1)
  · intro t
    rw [expandPath_eq, mapError_eq_ok_iff, Expansion.expand_eq_ok_iff cuts]
  · intro e
    rw [expandPath_eq]
    simp only [← Expansion.failsWith_expand cuts env _]
    cases env.expand text with
    | ok t => exact ⟨nofun, nofun⟩
    | error name =>
        constructor
        · intro same
          cases same
          exact ⟨name, rfl, rfl⟩
        · rintro ⟨other, rfl, same⟩
          cases same
          rfl
  · intro env' same
    rw [expandPath_eq, expandPath_eq, Expansion.expand_congr cuts same]
  · intro name plain
    refine ⟨?_, Environment.sets_iff_lookup plain env⟩
    rw [Environment.about, Environment.nameIn_of_not_mem (Environment.equalsSign_not_mem plain)]

/-- A value that is not UTF-8 is none. -/
example : expandPath [[65, 61, 0xFF]] "$\x7bA\x7d" = .error (.undefinedVariable "A") := by cbv

/-- A name with an equals sign in it is no variable's name, yet it is found in the line of one. -/
theorem expandPath_equals_sign :
    (∀ segments, Cuts "$\x7bA=B\x7d".toList segments ↔
      segments = [.braced ['A', '=', 'B'] true]) ∧
    [Environment.line "A" "B=C"].filterMap Environment.binding? =
      [("A".toUTF8.toList, "B=C".toUTF8.toList)] ∧
    expandPath [Environment.line "A" "B=C"] "$\x7bA=B\x7d" = .ok "C" ∧
    expandPath [] "$\x7bA=B\x7d" = .error (.undefinedVariable "A=B") := by
  have before : (Segment.braced ['A', '=', 'B'] true).Before [] := ⟨by decide, nofun⟩
  have cuts : Cuts "$\x7bA=B\x7d".toList [.braced ['A', '=', 'B'] true] := .cons before .nil
  have reads (env : Environment) := Expansion.expand_eq cuts env
  have only (segments : List Segment) := Iff.intro (fun cuts' : Cuts _ segments => cuts'.unique cuts)
    fun same => same ▸ cuts
  have plain : Environment.equalsSign ∉ "A".toUTF8.toList :=
    Environment.equalsSign_not_mem (by decide)
  have bound : Environment.binding? (Environment.line "A" "B=C") =
      some ("A".toUTF8.toList, "B=C".toUTF8.toList) :=
    (Environment.binding?_eq_some_iff plain).mpr (Environment.line_eq "A" "B=C")
  have sets : Environment.Sets [Environment.line "A" "B=C"] "A=B" "C" :=
    ⟨by decide, [], [], by rw [Environment.line, Environment.line]; rfl, nofun⟩
  refine ⟨only, by rw [List.filterMap_cons_some bound, List.filterMap_nil], ?_, ?_⟩
  · rw [expandPath_eq, reads, List.mapM_cons,
      Expansion.value_of_set rfl (Environment.text?_eq_some_iff.mpr sets)]
    rfl
  · rw [expandPath_eq, reads]
    rfl

end Settings

end QueryBoard
