import QueryBoard.Proofs.Sql.Conditions
import QueryBoard.Proofs.Sql.Meaning

/-!
# The text of an expression is read from left to right

A reader that takes operands, comparisons and memberships off the front of symbols, and evaluates
them as it goes, finds the `reading` of the expression whose symbols they are.  So two expressions
with the same text and parameters have the same reading, and the same value where both are grouped
as they are read.  Others need not have: there are no parentheses that would keep an operand
together.

Operands and what follows them take turns, so that a function may have the name of any operator.
-/

set_option autoImplicit false

namespace QueryBoard.Sql

open QueryBoard.Sql.Symbol
open Lexeme (isNameChar)

/-! ## Names of functions -/

/-- A word of ASCII: letters, digits and underscores, and no digit first. -/
def IsName (cs : List Char) : Prop :=
  ∃ c rest, cs = c :: rest ∧ (c.isAlpha = true ∨ c = '_') ∧ ∀ d ∈ rest, isNameChar d = true

theorem upperChar_start {c : Char} (first : c.isAlpha = true ∨ c = '_') :
    ∃ u : Char, Text.upperChar c = [u] ∧ (u.isAlpha = true ∨ u = '_') := by
  rcases first with letter | rfl
  · obtain ⟨u, upper, letter⟩ := upperChar_letter letter
    exact ⟨u, upper, Or.inl letter⟩
  · exact ⟨'_', by decide, Or.inr rfl⟩

theorem upperChar_name {c : Char} (inName : isNameChar c = true) :
    ∃ u : Char, Text.upperChar c = [u] ∧ isNameChar u = true := by
  have below : c.toNat < 128 := by
    simp only [isNameChar, Char.isAlphanum, Bool.or_eq_true, decide_eq_true_eq] at inName
    rcases inName with (letter | digit) | rfl
    · have code := Lexeme.toNat_of_isAlpha letter
      omega
    · have code := Char.isDigit_iff_toNat.mp digit
      change 48 ≤ c.toNat ∧ c.toNat ≤ 57 at code
      omega
    · decide
  exact ⟨c.toUpper, by rw [Text.upperChar, if_pos below],
    Lexeme.ascii_of_codes (P := fun c => isNameChar c = true → isNameChar c.toUpper = true)
      (by decide) below inName⟩

/-- The functions that an expression calls have names that are words. -/
def Expr.Named (e : Expr) : Prop := ∀ name, Token.function name ∈ e.tokens → IsName name.toList

theorem nameReads_of_isName {name : String} (named : IsName name.toList) :
    (Token.function name).NameReads := by
  obtain ⟨c, rest, split, first, others⟩ := named
  obtain ⟨u, upper, start⟩ := upperChar_start first
  have image : ∀ d ∈ rest.flatMap Text.upperChar, isNameChar d = true := by
    intro d member
    obtain ⟨b, inName, image⟩ := List.mem_flatMap.mp member
    obtain ⟨v, upper, inName⟩ := upperChar_name (others b inName)
    rw [upper, List.mem_singleton] at image
    rw [image]
    exact inName
  have whole : (Text.upper name).toList = u :: rest.flatMap Text.upperChar := by
    rw [Text.upper, String.toList_ofList, split, List.flatMap_cons, upper]
    rfl
  have read : ReadsAs (Text.upper name).toList [.word (String.ofList (Text.upper name).toList)] := by
    rw [whole]
    exact readsAs_of_step fun _ ends => Lexeme.step_name start image ends
  rwa [String.ofList_toList] at read

/-- The text and the parameters of an expression show its symbols. -/
theorem Expr.symbols_of_text {d : Dialect} {e e' : Expr} (named : e.Named) (named' : e'.Named)
    (text : e.tokens.text d = e'.tokens.text d) (params : e.tokens.params = e'.tokens.params) :
    e.symbols = e'.symbols := by
  have reads (e : Expr) (named : e.Named) :
      Lexeme.lex (e.tokens.text d).toList = some (e.tokens.lexemes d) := by
    refine e.legible.lex_of_nameReads d e.tokens 1 fun t member => ?_
    cases t with
    | function name => exact nameReads_of_isName (named name member)
    | _ => trivial
  have lexemes : e.tokens.lexemes d = e'.tokens.lexemes d := by
    have first := reads e named
    rw [text, reads e' named'] at first
    exact (Option.some.inj first).symm
  have first := Tokens.bind_lexemesFrom d e.tokens 1
  have second := Tokens.bind_lexemesFrom d e'.tokens 1
  rw [← Tokens.lexemes] at first second
  rw [lexemes, params, second] at first
  exact (Option.some.inj first).symm

/-! ## More symbols -/

namespace Expr

@[simp]
theorem symbols_literal_int (n : Int64) :
    (Expr.literal (.int n)).symbols = [.lexeme (.integer n.toInt)] := by
  rw [symbols, tokens]
  rfl

@[simp]
theorem symbols_literal_str (s : String) :
    (Expr.literal (.str s)).symbols = [.lexeme (.text s)] := by
  rw [symbols, tokens]
  rfl

@[simp]
theorem symbols_star : Expr.star.symbols = [mark "*"] := by
  rw [symbols, tokens]
  rfl

@[simp]
theorem symbols_over (e : Expr) :
    (Expr.over e).symbols = e.symbols ++ [word "OVER", mark "(", mark ")"] := by
  have blank : Token.symbols .space = [] := rfl
  have keyword : Token.symbols (.keyword "OVER ()") = [word "OVER", mark "(", mark ")"] := rfl
  simp [symbols, tokens, blank, keyword]

end Expr

/-! ## The reader -/

section

variable {γ : Type} (m : Meaning γ) (item : Reader γ)

/-- The arguments of a function, of which there may be none. -/
def readArgs (ss : List Symbol) : Option (List γ × List Symbol) :=
  match ss.dropPrefix? [mark "(", mark ")"] with
  | some ss => some ([], ss)
  | none => readParens item ss

/-- One operand.  A word with a parenthesis behind it is a function, any other is a truth value. -/
def readTerm : Reader γ
  | .value v :: ss => some (m.param v, ss)
  | .lexeme (.integer n) :: ss => some (m.literal (.int (Int64.ofInt n)), ss)
  | .lexeme (.text s) :: ss => some (m.literal (.str s), ss)
  | .lexeme (.symbol "*") :: ss => some (m.star, ss)
  | .lexeme (.word w) :: ss =>
    if ss.head? = some (mark "(") then do
      let (args, ss) ← readArgs item ss
      some (m.call w args, ss)
    else some (m.truth (w == "TRUE"), ss)
  | ss => do
    let (column, ss) ← readColumn ss
    some (column.eval m, ss)

def operator? (s : Symbol) : Option BinaryOp :=
  [BinaryOp.eq, .ne, .lt, .gt, .le, .ge, .and].find? fun op => (Token.operator op).symbols = [s]

def readMember (negated : Bool) (p : Progress γ) (ss : List Symbol) :
    Option (Progress γ × List Symbol) := do
  let ss ← ss.dropPrefix? (Expr.memberWords negated)
  let (items, ss) ← readParens item ss
  some (p.within m negated items, ss)

/-- What an expression goes on with: an operator and an operand, a membership, or a window. -/
def readLink (p : Progress γ) (ss : List Symbol) : Option (Progress γ × List Symbol) :=
  match ss.head?.bind operator? with
  | some op => do
    let (v, ss) ← readTerm m item ss.tail
    some (p.push m op v, ss)
  | none => readMember m item false p ss <|> readMember m item true p ss <|> do
    let ss ← ss.dropPrefix? [word "OVER", mark "(", mark ")"]
    some (p.window m, ss)

/-- Goes on as long as there is something to go on with, up to a number of times. -/
def readLinks : Nat → Progress γ → List Symbol → Progress γ × List Symbol
  | 0, p, ss => (p, ss)
  | bound + 1, p, ss =>
    match readLink m item p ss with
    | some r => readLinks bound r.1 r.2
    | none => (p, ss)

/-- An operand behind other text, and what follows it. -/
def readFrom (bound : Nat) (attach : γ → Progress γ) (ss : List Symbol) :
    Option (Progress γ × List Symbol) := do
  let (v, ss) ← readTerm m item ss
  some (readLinks m item bound (attach v) ss)

end

/-- A whole expression, with parentheses up to a depth. -/
def readExpr {γ : Type} (m : Meaning γ) : Nat → Reader γ
  | 0, _ => none
  | depth + 1, ss => do
    let (p, ss) ← readFrom m (readExpr m depth) ss.length (Progress.mk none) ss
    some (p.close m, ss)

/-! ## Expressions are read as they are written -/

namespace Expr

/-- The expressions between the parentheses of an expression. -/
def inner : Expr → List Expr
  | .binary _ left right => left.inner ++ right.inner
  | .call _ args => args
  | .member _ e (i :: is) => e.inner ++ i :: is
  | .over e => e.inner
  | _ => []

/-- An expression starts with its first operand, and with no parenthesis. -/
theorem exists_symbols_eq_cons : (e : Expr) → ∃ s ss, e.symbols = s :: ss ∧ s ≠ mark ")"
  | .column (some table) name => ⟨_, _, symbols_tableCol table name, by simp [quoted, mark]⟩
  | .column none name => ⟨_, _, symbols_col name, by simp [quoted, mark]⟩
  | .literal (.int n) => ⟨_, _, symbols_literal_int n, by simp [mark]⟩
  | .literal (.str s) => ⟨_, _, symbols_literal_str s, by simp [mark]⟩
  | .param v => ⟨_, _, symbols_param v, by simp [mark]⟩
  | .star => ⟨_, _, symbols_star, by decide⟩
  | .call name args => ⟨_, _, symbols_call name args, by simp [word, mark]⟩
  | .member negated e [] => ⟨_, _, symbols_member_empty negated e, by simp [word, mark]⟩
  | .binary op left right => by
      obtain ⟨s, ss, split, other⟩ := exists_symbols_eq_cons left
      exact ⟨s, _, by rw [symbols_binary, split]; rfl, other⟩
  | .member negated e (i :: is) => by
      obtain ⟨s, ss, split, other⟩ := exists_symbols_eq_cons e
      exact ⟨s, _, by rw [symbols_member_list, split]; rfl, other⟩
  | .over e => by
      obtain ⟨s, ss, split, other⟩ := exists_symbols_eq_cons e
      exact ⟨s, _, by rw [symbols_over, split]; rfl, other⟩

/-- How often an expression goes on behind its first operand. -/
def links : Expr → Nat
  | .binary _ left right => right.links + 1 + left.links
  | .member _ e (_ :: _) => 1 + e.links
  | .over e => 1 + e.links
  | _ => 0

end Expr

/-- Symbols that no operand goes on with. -/
structure Apart (after : List Symbol) : Prop where
  point : after.head? ≠ some (mark ".")
  paren : after.head? ≠ some (mark "(")

theorem Apart.cons {s : Symbol} (point : s ≠ mark ".") (paren : s ≠ mark "(") (ss : List Symbol) :
    Apart (s :: ss) :=
  ⟨fun same => point (Option.some.inj same), fun same => paren (Option.some.inj same)⟩

theorem Apart.memberWords (negated : Bool) (ss : List Symbol) :
    Apart (Expr.memberWords negated ++ ss) := by
  cases negated <;> exact .cons (by decide) (by decide) _

theorem operator?_symbols (op : BinaryOp) : ∃ s, (Token.operator op).symbols = [s] ∧
    operator? s = some op ∧ s ≠ mark "." ∧ s ≠ mark "(" := by
  cases op <;> exact ⟨_, rfl, by decide, by decide, by decide⟩

section

variable {γ : Type} (m : Meaning γ) {item : Reader γ}

/-- Whether a reader of items takes an expression off the front of what is between parentheses. -/
def ReadsWithin (item : Reader γ) (e : Expr) : Prop :=
  ∀ after, after.head? = some (mark ")") ∨ after.head? = some (mark ",") →
    item (e.symbols ++ after) = some (e.reading m, after)

theorem readParens_symbols {items : List Expr} (some_ : items ≠ [])
    (each : ∀ i ∈ items, ReadsWithin m item i) (rest : List Symbol) :
    readParens item
        (mark "(" :: (joined (mark ",") (items.map Expr.symbols) ++ mark ")" :: rest)) =
      some (items.map (Expr.reading m), rest) :=
  readParens_joined item Expr.symbols (Expr.reading m) some_ each rest

theorem readArgs_symbols {args : List Expr} (each : ∀ a ∈ args, ReadsWithin m item a)
    (rest : List Symbol) :
    readArgs item
        (mark "(" :: (joined (mark ",") (args.map Expr.symbols) ++ mark ")" :: rest)) =
      some (args.map (Expr.reading m), rest) := by
  cases args with
  | nil => simp [readArgs, joined, List.dropPrefix?]
  | cons a args =>
      have list := readParens_symbols m (List.cons_ne_nil a args) each rest
      obtain ⟨s, ss, split, other⟩ := a.exists_symbols_eq_cons
      have some_ : ∀ more, (mark "(" :: (joined (mark ",") ((a :: args).map Expr.symbols) ++
          more)).dropPrefix? [mark "(", mark ")"] = none := by
        simp [joined, split, List.dropPrefix?, other]
      rw [readArgs, some_]
      exact list

/-- Behind an operator an operand is attached to what has been read. -/
theorem readLinks_operator {op : BinaryOp} {s : Symbol} (operator : operator? s = some op)
    {bound : Nat} {p : Progress γ} {ss : List Symbol} {r : Progress γ × List Symbol}
    (read : readFrom m item bound (p.push m op) ss = some r) :
    readLinks m item (bound + 1) p (s :: ss) = r := by
  obtain ⟨⟨v, rest⟩, term, same⟩ := Option.bind_eq_some_iff.mp read
  rw [readLinks, readLink]
  simp only [List.head?_cons, Option.bind_some, operator, List.tail_cons, term]
  exact Option.some.inj same

theorem readLinks_member (negated : Bool) {items : List Expr} (some_ : items ≠ [])
    (each : ∀ i ∈ items, ReadsWithin m item i) (bound : Nat) (p : Progress γ)
    (after : List Symbol) :
    readLinks m item (bound + 1) p (Expr.memberWords negated ++ mark "(" ::
        (joined (mark ",") (items.map Expr.symbols) ++ mark ")" :: after)) =
      readLinks m item bound (p.within m negated (items.map (Expr.reading m))) after := by
  have list := readParens_symbols m some_ each after
  have noOperator : ∀ w ∈ ["IN", "NOT"], operator? (word w) = none := by decide
  have noIn : (word "NOT" == word "IN") = false := by decide
  rw [readLinks, readLink]
  cases negated <;>
    simp [readMember, Expr.memberWords, noOperator, List.dropPrefix?, list, noIn]

theorem readLinks_over (bound : Nat) (p : Progress γ) (after : List Symbol) :
    readLinks m item (bound + 1) p (word "OVER" :: mark "(" :: mark ")" :: after) =
      readLinks m item bound (p.window m) after := by
  have noOperator : operator? (word "OVER") = none := by decide
  have noIn : (word "OVER" == word "IN") = false := by decide
  have noNot : (word "OVER" == word "NOT") = false := by decide
  rw [readLinks, readLink]
  simp [readMember, Expr.memberWords, noOperator, List.dropPrefix?, noIn, noNot]

/-- Where an expression ends, nothing goes on. -/
theorem readLinks_end {after : List Symbol}
    (ends : after = [] ∨ after.head? = some (mark ")") ∨ after.head? = some (mark ","))
    (bound : Nat) (p : Progress γ) : readLinks m item bound p after = (p, after) := by
  have closed (s : Symbol) (mark_ : s = mark ")" ∨ s = mark ",") : operator? s = none ∧
      s ≠ word "IN" ∧ s ≠ word "NOT" ∧ s ≠ word "OVER" := by
    rcases mark_ with rfl | rfl <;> decide
  cases bound with
  | zero => rfl
  | succ bound =>
      have none : readLink m item p after = none := by
        cases after with
        | nil => rfl
        | cons s rest =>
            simp only [List.head?_cons, Option.some.injEq, reduceCtorEq, false_or] at ends
            obtain ⟨noOperator, noIn, noNot, noOver⟩ := closed s ends
            simp [readLink, readMember, Expr.memberWords, noOperator, List.dropPrefix?, noIn, noNot,
              noOver]
      rw [readLinks, none]

/-- An expression behind other text is read as its reading behind that text. -/
theorem readFrom_symbols : (e : Expr) → (∀ x ∈ e.inner, ReadsWithin m item x) →
    ∀ (attach : γ → Progress γ) (bound : Nat) (after : List Symbol), Apart after →
      readFrom m item (bound + e.links) attach (e.symbols ++ after) =
        some (readLinks m item bound (e.readBehind m attach) after)
  | .column table name, _, attach, bound, after, apart => by
      have read := readColumn_symbols table name after apart.point
      cases table with
      | none =>
          rw [Expr.symbols_col, List.singleton_append, quoted] at read ⊢
          simp [readFrom, readTerm, read, Expr.eval, Expr.readBehind, Expr.links]
      | some table =>
          rw [Expr.symbols_tableCol, List.cons_append, quoted] at read ⊢
          simp only [readFrom, readTerm, read, Expr.readBehind, Expr.links]
          rfl
  | .literal (.int n), _, attach, bound, after, _ => by
      simp [readFrom, readTerm, Expr.readBehind, Expr.links]
  | .literal (.str s), _, attach, bound, after, _ => by
      simp [readFrom, readTerm, Expr.readBehind, Expr.links]
  | .param v, _, attach, bound, after, _ => by
      simp [readFrom, readTerm, Expr.readBehind, Expr.links]
  | .star, _, attach, bound, after, _ => by
      simp [readFrom, readTerm, Expr.readBehind, Expr.links, mark]
  | .call name args, each, attach, bound, after, _ => by
      have list := readArgs_symbols m each after
      rw [Expr.symbols_call, List.append_assoc, List.cons_append, List.singleton_append, word]
      rw [Expr.inner] at list
      simp only [List.cons_append, readFrom, readTerm, List.head?_cons, if_true, list,
        Expr.links, Expr.readBehind, Expr.readings_eq, Nat.add_zero]
      rfl
  | .member negated e [], _, attach, bound, after, apart => by
      rw [Expr.symbols_member_empty]
      cases negated <;> simp [readFrom, readTerm, Expr.readBehind, Expr.links, word, apart.paren]
  | .binary op left right, each, attach, bound, after, apart => by
      -- The right operand is attached to all that has been read up to the operator.
      obtain ⟨s, symbol, operator, point, paren⟩ := operator?_symbols op
      have second := readFrom_symbols right (fun x member => each x (by simp [Expr.inner, member]))
        (Progress.push m op (left.readBehind m attach)) bound after apart
      have first := readFrom_symbols left (fun x member => each x (by simp [Expr.inner, member]))
        attach (bound + right.links + 1) (s :: (right.symbols ++ after)) (.cons point paren _)
      rw [readLinks_operator m operator second] at first
      rw [Expr.symbols_binary, symbol, List.append_assoc, List.append_assoc, List.singleton_append,
        Expr.links, Expr.readBehind, ← Nat.add_assoc, ← Nat.add_assoc]
      exact first
  | .member negated e (i :: is), each, attach, bound, after, apart => by
      have list := readLinks_member m negated (List.cons_ne_nil i is)
        (fun x member => each x (List.mem_append_right _ member)) bound (e.readBehind m attach) after
      have first := readFrom_symbols e (fun x member => each x (List.mem_append_left _ member))
        attach (bound + 1) (Expr.memberWords negated ++ mark "(" ::
          (joined (mark ",") ((i :: is).map Expr.symbols) ++ mark ")" :: after))
        (.memberWords negated _)
      rw [list] at first
      rw [Expr.symbols_member_list, Expr.links, ← Nat.add_assoc, Expr.readBehind, Expr.readings_eq]
      simp only [List.append_assoc, List.cons_append, List.nil_append] at first ⊢
      exact first
  | .over e, each, attach, bound, after, apart => by
      have first := readFrom_symbols e each attach (bound + 1)
        (word "OVER" :: mark "(" :: mark ")" :: after) (.cons (by decide) (by decide) _)
      rw [readLinks_over] at first
      rw [Expr.symbols_over, List.append_assoc, Expr.links, Expr.readBehind, ← Nat.add_assoc]
      exact first

end

/-! ## Whole expressions -/

namespace Expr

theorem length_operator (op : BinaryOp) : (Token.operator op).symbols.length = 1 := by
  cases op <;> rfl

/-- Behind the first operand there is a symbol at least each time that an expression goes on. -/
theorem links_lt_length : (e : Expr) → e.links < e.symbols.length
  | .column (some table) name => by simp [links]
  | .column none name => by simp [links]
  | .literal (.int n) => by simp [links]
  | .literal (.str s) => by simp [links]
  | .param v => by simp [links]
  | .star => by simp [links]
  | .call name args => by simp [links]
  | .member negated e [] => by simp [links, symbols_member_empty]
  | .binary op left right => by
      have first := links_lt_length left
      have second := links_lt_length right
      rw [links, symbols_binary, List.length_append, List.length_append, length_operator]
      omega
  | .member negated e (i :: is) => by
      have first := links_lt_length e
      rw [links, symbols_member_list]
      simp only [List.length_append, List.length_cons]
      omega
  | .over e => by
      have first := links_lt_length e
      rw [links, symbols_over, List.length_append]
      simp only [List.length_cons]
      omega

theorem length_le_length_joined {items : List Expr} {x : Expr} (member : x ∈ items) :
    x.symbols.length ≤ (joined (mark ",") (items.map symbols)).length := by
  cases items with
  | nil => cases member
  | cons i is =>
      rw [List.map_cons, joined, List.length_append, List.flatMap_map]
      rcases List.mem_cons.mp member with rfl | member
      · omega
      · obtain ⟨before, after, split⟩ := List.append_of_mem member
        rw [split, List.flatMap_append, List.flatMap_cons, List.length_append, List.length_append,
          List.length_cons]
        omega

/-- What is between parentheses is shorter than the whole. -/
theorem length_inner : (e : Expr) → ∀ x ∈ e.inner, x.symbols.length < e.symbols.length
  | .column _ _, _, listed | .literal _, _, listed | .param _, _, listed | .star, _, listed
  | .member _ _ [], _, listed => by cases listed
  | .call name args, x, listed => by
      rw [inner] at listed
      have inside := length_le_length_joined listed
      rw [symbols_call]
      simp only [List.length_cons, List.length_append, List.length_nil]
      omega
  | .binary op left right, x, listed => by
      rw [symbols_binary, List.length_append, List.length_append]
      rcases List.mem_append.mp listed with listed | listed
      · have inside := length_inner left x listed
        omega
      · have inside := length_inner right x listed
        omega
  | .member negated e (i :: is), x, listed => by
      rw [symbols_member_list]
      simp only [List.length_append, List.length_cons]
      rcases List.mem_append.mp listed with listed | listed
      · have inside := length_inner e x listed
        omega
      · have inside := length_le_length_joined listed
        omega
  | .over e, x, listed => by
      have inside := length_inner e x listed
      rw [symbols_over, List.length_append]
      omega

end Expr

/-- The symbols of an expression are read as its reading, where the expression ends behind them. -/
theorem readExpr_symbols {γ : Type} (m : Meaning γ) (depth : Nat) (e : Expr)
    (deep : e.symbols.length ≤ depth) (after : List Symbol)
    (ends : after = [] ∨ after.head? = some (mark ")") ∨ after.head? = some (mark ",")) :
    readExpr m depth (e.symbols ++ after) = some (e.reading m, after) := by
  induction depth generalizing e after with
  | zero =>
      have some_ := e.links_lt_length
      omega
  | succ depth ih =>
      have inner : ∀ x ∈ e.inner, ReadsWithin m (readExpr m depth) x := by
        intro x member after ends
        have shorter := e.length_inner x member
        exact ih x (by omega) after (Or.inr ends)
      have apart : Apart after := by
        rcases ends with rfl | close | comma
        · exact ⟨by simp, by simp⟩
        · exact ⟨by simp [close, mark], by simp [close, mark]⟩
        · exact ⟨by simp [comma, mark], by simp [comma, mark]⟩
      have many : e.links ≤ (e.symbols ++ after).length := by
        have := e.links_lt_length
        rw [List.length_append]
        omega
      obtain ⟨bound, length⟩ := Nat.exists_eq_add_of_le' many
      have read := readFrom_symbols m e inner (Progress.mk none) bound after apart
      rw [readLinks_end m ends] at read
      rw [readExpr, length, read]
      rfl

/-- What a text and parameters say does not depend on the expression that they were written from. -/
theorem Expr.reading_of_text {d : Dialect} {e e' : Expr} (named : e.Named) (named' : e'.Named)
    (text : e.tokens.text d = e'.tokens.text d) (params : e.tokens.params = e'.tokens.params)
    {γ : Type} (m : Meaning γ) : e.reading m = e'.reading m := by
  have symbols := Expr.symbols_of_text named named' text params
  have first := readExpr_symbols m e'.symbols.length e (by rw [symbols]) [] (Or.inl rfl)
  have second := readExpr_symbols m e'.symbols.length e' (Nat.le_refl _) [] (Or.inl rfl)
  rw [symbols, second] at first
  exact (congrArg Prod.fst (Option.some.inj first)).symm

end QueryBoard.Sql
