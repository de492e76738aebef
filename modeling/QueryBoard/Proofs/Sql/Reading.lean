import QueryBoard.Compile.Basic
import QueryBoard.Proofs.Sql.Lexeme
import QueryBoard.Proofs.Sql.Spacing

/-!
# Statements are read back as they were written

Reading the text of legible tokens gives the tokens again: a name or a string comes back as it was
before quoting, whatever characters it has, and the placeholders stand where the parameters stood.
-/

set_option autoImplicit false

namespace QueryBoard.Sql

open Lexeme

/-- The placeholder that a dialect writes for the parameter at a position. -/
def Dialect.mark (d : Dialect) (position : Nat) : Lexeme :=
  match d with
  | .sqlite => .placeholder none
  | .postgres => .placeholder (some position)

namespace Token

/-- What a piece of a keyword is read as: a pair of brackets, or a word. -/
def pieceLexemes (piece : List Char) : List Lexeme :=
  if piece = ['(', ')'] then [.symbol "(", .symbol ")"] else [.word (String.ofList piece)]

/-- What a token is read as; `position` is the number of its placeholder if it is a parameter. -/
def lexemes (d : Dialect) (position : Nat) : Token → List Lexeme
  | .keyword words => (pieces words).flatMap pieceLexemes
  | .operator .and => [.word "AND"]
  | .operator op => [.symbol op.text]
  | .comma => [.symbol ","]
  | .dot => [.symbol "."]
  | .star => [.symbol "*"]
  | .lparen => [.symbol "("]
  | .rparen => [.symbol ")"]
  | .space => []
  | .newline _ => []
  | .ident name => [.quoted name]
  | .function name => [.word (Text.upper name)]
  | .literal (.int n) => [.integer n.toInt]
  | .literal (.str s) => [.text s]
  | .param _ => [d.mark position]

/-- Whether the name is a word if the token is that of a function. -/
def PlainName : Token → Prop
  | .function name => IsWord name.toList
  | _ => True

end Token

namespace Tokens

/-- What tokens are read as, their placeholders numbered on from `position`. -/
def lexemesFrom (d : Dialect) : Nat → Tokens → List Lexeme
  | _, [] => []
  | position, t :: rest =>
    t.lexemes d position ++ lexemesFrom d (if t.value?.isSome then position + 1 else position) rest

/-- What a statement is read as. -/
def lexemes (d : Dialect) (ts : Tokens) : List Lexeme := lexemesFrom d 1 ts

end Tokens

/-! ## One token -/

/-- Whether a text is read as some lexemes wherever a lexeme may end behind it. -/
def ReadsAs (cs : List Char) (ls : List Lexeme) : Prop :=
  ∀ rest, Ends rest → lex (cs ++ rest) = (lex rest).map (ls ++ ·)

theorem readsAs_of_step {cs : List Char} {l : Lexeme}
    (taken : ∀ rest, Ends rest → step (cs ++ rest) = some (some l, rest)) : ReadsAs cs [l] := by
  intro rest ends
  exact lex_of_step (taken rest ends)

theorem readsAs_nil : ReadsAs [] [] := by
  intro rest _
  simp

/-- Texts one after the other are read one after the other, when the second ends the lexemes of
the first. -/
theorem ReadsAs.append {as bs : List Char} {ls ms : List Lexeme} (left : ReadsAs as ls)
    (right : ReadsAs bs ms) (apart : ∀ rest, Ends (bs ++ rest)) : ReadsAs (as ++ bs) (ls ++ ms) := by
  intro rest ends
  rw [List.append_assoc, left (bs ++ rest) (apart rest), right rest ends, Option.map_map]
  congr 1
  funext more
  simp

theorem readsAs_word {cs : List Char} (word : IsWord cs) :
    ReadsAs cs [.word (String.ofList cs)] :=
  readsAs_of_step fun _ ends => step_word word.1 word.2 ends

theorem readsAs_mark {c : Char} (mark : c ∈ marks)
    (alone : (boundaries.all fun d => !isDoubleMark c d) = true) :
    ReadsAs [c] [.symbol (String.singleton c)] :=
  readsAs_of_step fun _ ends => step_mark mark (ends.stops alone)

theorem ends_cons {c : Char} (boundary : c ∈ boundaries) (rest : List Char) : Ends (c :: rest) := by
  intro d head
  cases head
  exact boundary

theorem readsAs_piece {piece : List Char} (plain : IsWord piece ∨ piece = ['(', ')']) :
    ReadsAs piece (Token.pieceLexemes piece) := by
  unfold Token.pieceLexemes
  split
  · next brackets =>
    rw [brackets]
    exact (readsAs_mark (c := '(') (by decide) (by decide)).append
      (readsAs_mark (c := ')') (by decide) (by decide)) (ends_cons (by decide))
  · next other => exact readsAs_word (plain.resolve_right other)

theorem ReadsAs.cons_blank {c : Char} {cs : List Char} {ls : List Lexeme} (blank : isBlank c = true)
    (read : ReadsAs cs ls) : ReadsAs (c :: cs) ls := by
  intro rest ends
  have first := lex_of_step (step_blank blank (cs ++ rest))
  rw [List.cons_append, first, read rest ends, Option.map_map]
  congr 1

theorem lex_blanks {cs : List Char} (blank : ∀ c ∈ cs, isBlank c = true) (rest : List Char) :
    lex (cs ++ rest) = (lex rest).map ([] ++ ·) := by
  induction cs with
  | nil => simp
  | cons c cs ih =>
      rw [List.cons_append, lex_of_step (step_blank (blank c (by simp)) (cs ++ rest)),
        ih fun d member => blank d (by simp [member])]
      simp

theorem readsAs_pieces : ∀ pieces : List (List Char),
    (∀ piece ∈ pieces, IsWord piece ∨ piece = ['(', ')']) →
      ReadsAs ([' '].intercalate pieces) (pieces.flatMap Token.pieceLexemes) := by
  intro pieces
  induction pieces with
  | nil => intro _; exact readsAs_nil
  | cons piece more ih =>
      intro plain
      have first := readsAs_piece (plain piece (by simp))
      have others := ih fun p member => plain p (by simp [member])
      cases more with
      | nil => simpa using first
      | cons second more =>
        rw [List.flatMap_cons, List.intercalate_cons_cons, List.append_assoc]
        exact first.append (others.cons_blank (c := ' ') rfl) (fun _ => ends_cons (by decide) _)

theorem readsAs_keyword {words : String} (plain : Token.WordsOnly words) :
    ReadsAs words.toList ((Token.pieces words).flatMap Token.pieceLexemes) := by
  have joined : [' '].intercalate (Token.pieces words) = words.toList :=
    List.intercalate_splitOn ' '
  have read := readsAs_pieces (Token.pieces words) plain
  rwa [joined] at read

theorem readsAs_operator (op : BinaryOp) (d : Dialect) (position : Nat) :
    ReadsAs op.text.toList ((Token.operator op).lexemes d position) := by
  cases op with
  | eq => exact readsAs_mark (c := '=') (by decide) (by decide)
  | lt => exact readsAs_mark (c := '<') (by decide) (by decide)
  | gt => exact readsAs_mark (c := '>') (by decide) (by decide)
  | ne => exact readsAs_of_step fun rest _ => step_doubleMark (by decide) rest
  | le => exact readsAs_of_step fun rest _ => step_doubleMark (by decide) rest
  | ge => exact readsAs_of_step fun rest _ => step_doubleMark (by decide) rest
  | and =>
      have word : IsWord "AND".toList := by decide
      exact readsAs_word word

/-- The upper case of a letter of ASCII is one letter of ASCII. -/
theorem upperChar_letter {c : Char} (letter : c.isAlpha = true) :
    ∃ u : Char, Text.upperChar c = [u] ∧ u.isAlpha = true := by
  have below : c.toNat < 128 := by
    have code := toNat_of_isAlpha letter
    omega
  exact ⟨c.toUpper, by rw [Text.upperChar, if_pos below],
    ascii_of_codes (P := fun c => c.isAlpha = true → c.toUpper.isAlpha = true) (by decide) below
      letter⟩

theorem isWord_upper {name : String} (plain : IsWord name.toList) :
    IsWord (Text.upper name).toList := by
  have letters : ∀ c ∈ name.toList.flatMap Text.upperChar, c.isAlpha = true := by
    intro c member
    obtain ⟨d, inName, image⟩ := List.mem_flatMap.mp member
    obtain ⟨u, upper, letter⟩ := upperChar_letter (plain.2 d inName)
    rw [upper, List.mem_singleton] at image
    rw [image]
    exact letter
  have nonempty : name.toList.flatMap Text.upperChar ≠ [] := by
    obtain ⟨d, rest, same⟩ := List.exists_cons_of_ne_nil plain.1
    obtain ⟨u, upper, _⟩ := upperChar_letter (plain.2 d (by simp [same]))
    simp [same, upper]
  rw [Text.upper, String.toList_ofList]
  exact ⟨nonempty, letters⟩

theorem toDigits_digits (n : Nat) :
    Nat.toDigits 10 n ≠ [] ∧ ∀ c ∈ Nat.toDigits 10 n, c.isDigit = true :=
  ⟨Nat.toDigits_ne_nil, fun _ member => Nat.isDigit_of_mem_toDigits (by decide) (by decide) member⟩

theorem readsAs_int (n : Int) : ReadsAs (toString n).toList [.integer n] := by
  rw [Int.toString_eq_repr, Int.repr_eq_if]
  split
  · next nonneg =>
    obtain ⟨nonempty, digits⟩ := toDigits_digits n.toNat
    rw [Nat.toList_repr]
    apply readsAs_of_step
    intro rest ends
    rw [step_digits nonempty digits ends, Nat.ofDigitChars_ten_toDigits, Int.toNat_of_nonneg nonneg]
  · next negative =>
    obtain ⟨nonempty, digits⟩ := toDigits_digits (-n).toNat
    rw [String.toList_append, Nat.toList_repr]
    apply readsAs_of_step
    intro rest ends
    have same : -((-n).toNat : Int) = n := by omega
    have read := step_negative nonempty digits ends
    rw [Nat.ofDigitChars_ten_toDigits, same] at read
    exact read

theorem readsAs_placeholder (d : Dialect) (position : Nat) :
    ReadsAs (d.placeholder position).toList [d.mark position] := by
  cases d with
  | sqlite =>
      rw [Dialect.placeholder]
      exact readsAs_of_step fun _ ends => step_anonymous ends
  | postgres =>
      obtain ⟨nonempty, digits⟩ := toDigits_digits position
      rw [Dialect.placeholder, String.toList_append, Nat.toString_eq_repr, Nat.toList_repr]
      apply readsAs_of_step
      intro rest ends
      have read := step_numbered nonempty digits ends
      rw [Nat.ofDigitChars_ten_toDigits] at read
      exact read

/-! ## Tokens -/

theorem separators_alone : ∀ c ∈ [',', '.', '*', '(', ')'],
    c ∈ marks ∧ c ∈ boundaries ∧ ∀ b, isDoubleMark c b = false := by
  simp [marks, boundaries, isDoubleMark]

namespace Token

theorem isGlue_cases {t : Token} (glue : t.isGlue = true) :
    (∃ c ∈ [',', '.', '*', '(', ')'], ∀ d position,
      (t.text d position).toList = [c] ∧ t.lexemes d position = [.symbol (String.singleton c)]) ∨
    (∃ c cs, c ∈ boundaries ∧ (∀ b ∈ c :: cs, isBlank b = true) ∧ ∀ d position,
      (t.text d position).toList = c :: cs ∧ t.lexemes d position = []) := by
  cases t with
  | comma => exact Or.inl ⟨',', by decide, fun _ _ => ⟨by rw [text]; rfl, rfl⟩⟩
  | dot => exact Or.inl ⟨'.', by decide, fun _ _ => ⟨by rw [text]; rfl, rfl⟩⟩
  | star => exact Or.inl ⟨'*', by decide, fun _ _ => ⟨by rw [text]; rfl, rfl⟩⟩
  | lparen => exact Or.inl ⟨'(', by decide, fun _ _ => ⟨by rw [text]; rfl, rfl⟩⟩
  | rparen => exact Or.inl ⟨')', by decide, fun _ _ => ⟨by rw [text]; rfl, rfl⟩⟩
  | space =>
      exact Or.inr ⟨' ', [], by decide, by simp [isBlank], fun _ _ => ⟨by rw [text]; rfl, rfl⟩⟩
  | newline depth =>
      refine Or.inr ⟨'\n', List.replicate (2 * depth) ' ', by decide, ?_, ?_⟩
      · intro b member
        rcases List.mem_cons.mp member with rfl | member
        · rfl
        · rw [List.eq_of_mem_replicate member]
          rfl
      · intro d position
        refine ⟨?_, rfl⟩
        simp only [text, String.toList_append, String.toList_ofList]
        rfl
  | _ => cases glue

/-- A separating token is read whatever follows it. -/
theorem lex_glue {t : Token} (glue : t.isGlue = true) (d : Dialect) (position : Nat)
    (rest : List Char) :
    lex ((t.text d position).toList ++ rest) = (lex rest).map (t.lexemes d position ++ ·) := by
  rcases isGlue_cases glue with ⟨c, mark, same⟩ | ⟨c, cs, _, blank, same⟩
  · obtain ⟨listed, _, alone⟩ := separators_alone c mark
    rw [(same d position).1, (same d position).2]
    exact lex_of_step (step_mark listed fun b _ => alone b)
  · rw [(same d position).1, (same d position).2]
    exact lex_blanks blank rest

/-- The text of a separating token ends the lexeme before it. -/
theorem ends_text {t : Token} (glue : t.isGlue = true) (d : Dialect) (position : Nat)
    (rest : List Char) : Ends ((t.text d position).toList ++ rest) := by
  rcases isGlue_cases glue with ⟨c, mark, same⟩ | ⟨c, cs, blank, _, same⟩
  · rw [(same d position).1]
    exact ends_cons (separators_alone c mark).2.1 _
  · rw [(same d position).1]
    exact ends_cons blank _

/-- Whether the name is read as a word if the token is that of a function. -/
def NameReads : Token → Prop
  | .function name => ReadsAs (Text.upper name).toList [.word (Text.upper name)]
  | _ => True

theorem PlainName.nameReads {t : Token} (plain : t.PlainName) : t.NameReads := by
  cases t with
  | function name =>
      have read := readsAs_word (isWord_upper plain)
      rwa [String.ofList_toList] at read
  | _ => trivial

/-- Every token is read as its lexemes where one may end behind it. -/
theorem readsAs (d : Dialect) (position : Nat) {t : Token} (name : t.NameReads)
    (words : ∀ w, t = .keyword w → WordsOnly w) :
    ReadsAs (t.text d position).toList (t.lexemes d position) := by
  by_cases glue : t.isGlue = true
  · intro rest _
    exact lex_glue glue d position rest
  · cases t with
    | keyword w => exact readsAs_keyword (words w rfl)
    | operator op => exact readsAs_operator op d position
    | ident s => exact readsAs_of_step fun _ ends => step_quoted s ends
    | function s => exact name
    | literal l =>
        cases l with
        | int n => exact readsAs_int n.toInt
        | str s => exact readsAs_of_step fun _ ends => step_text s ends
    | param v => exact readsAs_placeholder d position
    | _ => exact absurd rfl glue

end Token

/-! ## A sequence of tokens -/

namespace Tokens

theorem toList_textFrom_cons (d : Dialect) (position : Nat) (t : Token) (rest : Tokens) :
    (textFrom d position (t :: rest)).toList = (t.text d position).toList ++
      (textFrom d (if t.value?.isSome then position + 1 else position) rest).toList := by
  rw [textFrom, String.toList_append]

theorem ends_textFrom {ts : Tokens} (glue : ∀ t ∈ ts.head?, t.isGlue = true) (d : Dialect)
    (position : Nat) : Ends (textFrom d position ts).toList := by
  cases ts with
  | nil =>
      intro c head
      simp [textFrom] at head
  | cons t rest =>
      rw [toList_textFrom_cons]
      exact Token.ends_text (glue t rfl) d position _

end Tokens

/-- Legible tokens whose functions have names that are words are read one by one. -/
theorem Legible.lex_of_nameReads (d : Dialect) : ∀ (ts : Tokens) (position : Nat), Legible ts →
    (∀ t ∈ ts, t.NameReads) →
      lex (Tokens.textFrom d position ts).toList = some (Tokens.lexemesFrom d position ts) := by
  intro ts
  induction ts with
  | nil => intro position _ _; simp [Tokens.textFrom, Tokens.lexemesFrom, lex_nil]
  | cons t rest ih =>
      intro position legible names
      obtain ⟨apart, spaced⟩ := List.isChain_cons.mp legible.spaced
      have tail : Legible rest := ⟨spaced, fun w member => legible.keywords w (by simp [member])⟩
      have words : ∀ w, t = .keyword w → Token.WordsOnly w := by
        intro w same
        exact legible.keywords w (by simp [same])
      have read := ih (if t.value?.isSome then position + 1 else position) tail
        fun u member => names u (by simp [member])
      rw [Tokens.toList_textFrom_cons, Tokens.lexemesFrom]
      by_cases glue : t.isGlue = true
      · rw [Token.lex_glue glue, read, Option.map_some]
      · -- A token that does not separate is followed by one that does.
        have next : ∀ u ∈ rest.head?, u.isGlue = true := by
          intro u head
          exact (apart u head).resolve_left glue
        have first := Token.readsAs d position (names t (by simp)) words
        rw [first _ (Tokens.ends_textFrom next d _), read, Option.map_some]

theorem Legible.lex_textFrom (d : Dialect) (ts : Tokens) (position : Nat) (legible : Legible ts)
    (plain : ∀ t ∈ ts, t.PlainName) :
    lex (Tokens.textFrom d position ts).toList = some (Tokens.lexemesFrom d position ts) :=
  legible.lex_of_nameReads d ts position fun t member => (plain t member).nameReads

end QueryBoard.Sql
