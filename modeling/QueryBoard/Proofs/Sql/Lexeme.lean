import QueryBoard.Proofs.Text.Runs
import QueryBoard.Text.Quoted

/-!
# Lexemes of SQL text

A lexer for SQL text that knows nothing of the tokens a statement is written from.  It reads names
between double quotes and texts between single quotes, a doubled quote standing for the quote
itself, bare words, signed integers, placeholders, and marks.  Blanks and both kinds of comments
are skipped.  A character that starts none of these, and a quote that is never closed, end the
reading without a result.
-/

set_option autoImplicit false

namespace QueryBoard.Sql

inductive Lexeme where
  /-- A keyword, or the name of a function. -/
  | word (letters : String)
  /-- A name between double quotes, as it was before quoting. -/
  | quoted (name : String)
  /-- A text between single quotes, as it was before quoting. -/
  | text (s : String)
  | integer (n : Int)
  /-- A comparison, a bracket or another mark. -/
  | symbol (mark : String)
  /-- `?` or `$`, with the number after it if there is one. -/
  | placeholder (number : Option Nat)
deriving DecidableEq, Repr

namespace Lexeme

def isBlank (c : Char) : Bool := c = ' ' || c = '\n' || c = '\t' || c = '\r' || c = '\x0c'

def startsWord (c : Char) : Bool := c.isAlpha || c = '_' || 128 ≤ c.toNat

def continuesWord (c : Char) : Bool := startsWord c || c.isDigit || c = '$'

def isDoubleMark (c d : Char) : Bool :=
  (c = '<' && (d = '>' || d = '=')) || (c = '>' && d = '=') || (c = '!' && d = '=') ||
    (c = '|' && d = '|')

def isMark (c : Char) : Bool := ",.*()=<>;+-/%".toList.contains c

/-- What follows the end of a comment between slashes and stars. -/
def afterComment : List Char → Option (List Char)
  | [] => none
  | c :: rest =>
    if c = '*' ∧ rest.head? = some '/' then some rest.tail else afterComment rest

def number (cs : List Char) : Nat := Nat.ofDigitChars 10 (cs.takeWhile Char.isDigit) 0

/-- Takes a mark, a comment or a negative integer off the front of a text. -/
def stepMark (c : Char) (rest : List Char) : Option (Option Lexeme × List Char) :=
  match rest with
  | [] => if isMark c then some (some (.symbol (String.singleton c)), []) else none
  | d :: after =>
    if c = '-' ∧ d = '-' then some (none, after.dropWhile (· ≠ '\n'))
    else if c = '/' ∧ d = '*' then (afterComment after).map fun r => (none, r)
    else if c = '-' ∧ d.isDigit then
      some (some (.integer (-(number (d :: after) : Int))), (d :: after).dropWhile Char.isDigit)
    else if isDoubleMark c d then some (some (.symbol (String.ofList [c, d])), after)
    else if isMark c then some (some (.symbol (String.singleton c)), d :: after)
    else none

/-- Takes a lexeme, a blank or a comment off the front of a text. -/
def step : List Char → Option (Option Lexeme × List Char)
  | [] => none
  | c :: rest =>
    if isBlank c then some (none, rest)
    else if c = '"' then
      (Text.Quoted.readBody '"' rest).map fun p => (some (.quoted (String.ofList p.1)), p.2)
    else if c = '\'' then
      (Text.Quoted.readBody '\'' rest).map fun p => (some (.text (String.ofList p.1)), p.2)
    else if c = '?' ∨ c = '$' then
      if (rest.takeWhile Char.isDigit).isEmpty then
        if c = '?' then some (some (.placeholder none), rest) else none
      else some (some (.placeholder (some (number rest))), rest.dropWhile Char.isDigit)
    else if c.isDigit then
      some (some (.integer (number (c :: rest))), rest.dropWhile Char.isDigit)
    else if startsWord c then
      some (some (.word (String.ofList (c :: rest.takeWhile continuesWord))),
        rest.dropWhile continuesWord)
    else stepMark c rest

/-! ## Every step takes something off -/

theorem length_dropWhile_le (p : Char → Bool) (cs : List Char) :
    (cs.dropWhile p).length ≤ cs.length :=
  (List.dropWhile_suffix p).length_le

theorem length_readBody (q : Char) : ∀ (cs : List Char) (read rest : List Char),
    Text.Quoted.readBody q cs = some (read, rest) → rest.length < cs.length := by
  intro cs
  fun_induction Text.Quoted.readBody q cs with
  | case1 => intro read rest success; simp at success
  | case2 => intro read rest success; simp_all
  | case3 => intro read rest success; simp at success
  | case4 after ih =>
      intro read rest success
      obtain ⟨⟨read', rest'⟩, readRest, same⟩ := Option.map_eq_some_iff.mp success
      cases same
      have := ih read' rest' readRest
      simp only [List.length_cons]
      omega
  | case5 d after _ =>
      intro read rest success
      cases success
      simp
  | case6 c d after _ ih =>
      intro read rest success
      obtain ⟨⟨read', rest'⟩, readRest, same⟩ := Option.map_eq_some_iff.mp success
      cases same
      have := ih read' rest' readRest
      simp only [List.length_cons] at this ⊢
      omega

theorem length_afterComment : ∀ (cs rest : List Char),
    afterComment cs = some rest → rest.length ≤ cs.length := by
  intro cs
  induction cs with
  | nil => intro rest success; simp [afterComment] at success
  | cons c cs ih =>
      intro rest success
      rw [afterComment] at success
      split at success
      · cases success
        simp only [List.length_tail, List.length_cons]
        omega
      · have := ih rest success
        simp only [List.length_cons]
        omega

theorem length_stepMark {c : Char} {rest after : List Char} {l : Option Lexeme}
    (success : stepMark c rest = some (l, after)) : after.length ≤ rest.length := by
  unfold stepMark at success
  split at success
  · split at success <;> simp_all
  · next d tail =>
    have dropped := length_dropWhile_le
    split at success
    · cases success
      have := dropped (· ≠ '\n') tail
      simp only [List.length_cons]
      omega
    · split at success
      · obtain ⟨r, read, same⟩ := Option.map_eq_some_iff.mp success
        cases same
        have := length_afterComment tail after read
        simp only [List.length_cons]
        omega
      · split at success
        · cases success
          exact dropped Char.isDigit (d :: tail)
        · split at success
          · cases success; simp
          · split at success
            · cases success; simp
            · simp at success

theorem length_step {cs after : List Char} {l : Option Lexeme}
    (success : step cs = some (l, after)) : after.length < cs.length := by
  cases cs with
  | nil => simp [step] at success
  | cons c rest =>
    have dropped := length_dropWhile_le
    simp only [List.length_cons, Nat.lt_succ_iff]
    rw [step] at success
    split at success
    · cases success; exact Nat.le_refl _
    · split at success
      · obtain ⟨⟨read, r⟩, readRest, same⟩ := Option.map_eq_some_iff.mp success
        cases same
        exact Nat.le_of_lt (length_readBody '"' rest read _ readRest)
      · split at success
        · obtain ⟨⟨read, r⟩, readRest, same⟩ := Option.map_eq_some_iff.mp success
          cases same
          exact Nat.le_of_lt (length_readBody '\'' rest read _ readRest)
        · split at success
          · split at success
            · split at success
              · cases success; exact Nat.le_refl _
              · simp at success
            · cases success; exact dropped Char.isDigit rest
          · split at success
            · cases success; exact dropped Char.isDigit rest
            · split at success
              · cases success; exact dropped continuesWord rest
              · exact length_stepMark success

/-- The lexemes of a whole text. -/
def lex (cs : List Char) : Option (List Lexeme) :=
  match cs with
  | [] => some []
  | c :: rest =>
    match _h : step (c :: rest) with
    | none => none
    | some (l, after) => (lex after).map (l.toList ++ ·)
termination_by cs.length
decreasing_by exact length_step _h

theorem lex_nil : lex [] = some [] := by rw [lex]

/-- Reading goes on behind what a step takes off. -/
theorem lex_of_step {cs after : List Char} {l : Option Lexeme}
    (taken : step cs = some (l, after)) : lex cs = (lex after).map (l.toList ++ ·) := by
  cases cs with
  | nil => simp [step] at taken
  | cons c rest =>
    rw [lex]
    split
    · next failed => rw [taken] at failed; cases failed
    · next l' after' taken' =>
      rw [taken] at taken'
      cases taken'
      rfl

/-! ## What each kind of text is read as

A lexeme ends where a blank, a separating mark or nothing follows it. -/

/-- The characters that no lexeme before them goes on with. -/
def boundaries : List Char := [' ', '\n', '\t', '\r', '\x0c', ',', '.', '*', '(', ')']

/-- Whether every lexeme has ended before a text. -/
def Ends (rest : List Char) : Prop := ∀ c ∈ rest.head?, c ∈ boundaries

/-- What holds of no boundary character does not hold where a lexeme ends. -/
theorem Ends.stops {rest : List Char} (ends : Ends rest) {p : Char → Bool}
    (none : (boundaries.all fun c => !p c) = true) : ∀ c ∈ rest.head?, p c = false := by
  intro c head
  have held := List.all_eq_true.mp none c (ends c head)
  rwa [Bool.not_eq_true'] at held

theorem step_blank {c : Char} (blank : isBlank c = true) (rest : List Char) :
    step (c :: rest) = some (none, rest) := by
  simp [step, blank]

theorem step_quoted (name : String) {rest : List Char} (ends : Ends rest) :
    step ((Text.Quoted.write '"' name).toList ++ rest) = some (some (.quoted name), rest) := by
  have next : rest.head? ≠ some '"' := by
    intro same
    exact absurd (ends '"' same) (by decide)
  simp [step, Text.Quoted.write, Text.Quoted.readBody_body '"' name.toList rest next, isBlank]

theorem step_text (s : String) {rest : List Char} (ends : Ends rest) :
    step ((Text.Quoted.write '\'' s).toList ++ rest) = some (some (.text s), rest) := by
  have next : rest.head? ≠ some '\'' := by
    intro same
    exact absurd (ends '\'' same) (by decide)
  simp [step, Text.Quoted.write, Text.Quoted.readBody_body '\'' s.toList rest next, isBlank]

/-- What holds of the codes of ASCII, one by one, holds of its characters. -/
theorem ascii_of_codes {P : Char → Prop} (codes : ∀ n < 128, P (Char.ofNat n)) {c : Char}
    (below : c.toNat < 128) : P c := by
  have holds := codes c.toNat below
  rwa [Char.ofNat_toNat] at holds

theorem toNat_of_isAlpha {c : Char} (letter : c.isAlpha = true) :
    (65 ≤ c.toNat ∧ c.toNat ≤ 90) ∨ (97 ≤ c.toNat ∧ c.toNat ≤ 122) := by
  have cases : c.isUpper = true ∨ c.isLower = true := (Bool.or_eq_true _ _).mp letter
  rcases cases with upper | lower
  · obtain ⟨low, high⟩ := of_decide_eq_true upper
    exact Or.inl ⟨UInt32.le_iff_toNat_le.mp low, UInt32.le_iff_toNat_le.mp high⟩
  · obtain ⟨low, high⟩ := (Bool.and_eq_true _ _).mp lower
    exact Or.inr ⟨UInt32.le_iff_toNat_le.mp (of_decide_eq_true low),
      UInt32.le_iff_toNat_le.mp (of_decide_eq_true high)⟩

/-- Whether a name may go on with a character: a letter or digit of ASCII, or an underscore. -/
def isNameChar (c : Char) : Bool := c.isAlphanum || c = '_'

theorem step_letter {c : Char} (first : c.isAlpha = true ∨ c = '_') (rest : List Char) :
    step (c :: rest) =
      some (some (.word (String.ofList (c :: rest.takeWhile continuesWord))),
        rest.dropWhile continuesWord) := by
  have starts : startsWord c = true := by simpa [startsWord, or_assoc] using Or.inl first
  have apart : ∀ d : Char, d.isAlpha = false → d ≠ '_' → c ≠ d := by
    rintro d noLetter other rfl
    rcases first with letter | underscore
    · rw [noLetter] at letter
      cases letter
    · exact other underscore
  have noDigit : c.isDigit = false := by
    rcases first with letter | rfl
    · have code := toNat_of_isAlpha letter
      rw [← Bool.not_eq_true, Char.isDigit_iff_toNat]
      change ¬ (48 ≤ c.toNat ∧ c.toNat ≤ 57)
      omega
    · decide
  simp [step, isBlank, apart, noDigit, starts]

theorem continuesWord_of_isNameChar {c : Char} (inName : isNameChar c = true) :
    continuesWord c = true := by
  simp only [isNameChar, Char.isAlphanum, Bool.or_eq_true, decide_eq_true_eq] at inName
  rcases inName with (letter | digit) | underscore
  · simp [continuesWord, startsWord, letter]
  · simp [continuesWord, digit]
  · simp [continuesWord, startsWord, underscore]

theorem step_name {c : Char} {cs rest : List Char} (first : c.isAlpha = true ∨ c = '_')
    (others : ∀ d ∈ cs, isNameChar d = true) (ends : Ends rest) :
    step (c :: cs ++ rest) = some (some (.word (String.ofList (c :: cs))), rest) := by
  obtain ⟨taken, left⟩ := span_append
    (fun d member => continuesWord_of_isNameChar (others d member))
    (ends.stops (p := continuesWord) (by decide))
  rw [List.cons_append, step_letter first, taken, left]

theorem step_word {cs rest : List Char} (nonempty : cs ≠ []) (letters : ∀ c ∈ cs, c.isAlpha = true)
    (ends : Ends rest) : step (cs ++ rest) = some (some (.word (String.ofList cs)), rest) := by
  cases cs with
  | nil => exact absurd rfl nonempty
  | cons c cs =>
    refine step_name (Or.inl (letters c (by simp))) (fun d member => ?_) ends
    simp [isNameChar, Char.isAlphanum, letters d (by simp [member])]

theorem step_digits {cs rest : List Char} (nonempty : cs ≠ [])
    (digits : ∀ c ∈ cs, c.isDigit = true) (ends : Ends rest) :
    step (cs ++ rest) = some (some (.integer (Nat.ofDigitChars 10 cs 0)), rest) := by
  obtain ⟨taken, left⟩ := span_append digits (ends.stops (p := Char.isDigit) (by decide))
  cases cs with
  | nil => exact absurd rfl nonempty
  | cons c cs =>
    have digit := digits c (by simp)
    have apart : ∀ d : Char, d.isDigit = false → c ≠ d := by
      intro d noDigit same
      rw [same, noDigit] at digit
      cases digit
    simp only [List.cons_append] at taken left ⊢
    rw [List.dropWhile_cons_of_pos digit] at left
    simp [step, isBlank, apart, digit, number, taken, left]

theorem step_negative {cs rest : List Char} (nonempty : cs ≠ [])
    (digits : ∀ c ∈ cs, c.isDigit = true) (ends : Ends rest) :
    step ('-' :: (cs ++ rest)) = some (some (.integer (-(Nat.ofDigitChars 10 cs 0 : Int))), rest) := by
  obtain ⟨taken, left⟩ := span_append digits (ends.stops (p := Char.isDigit) (by decide))
  cases cs with
  | nil => exact absurd rfl nonempty
  | cons c cs =>
    have digit := digits c (by simp)
    have noMinus : c ≠ '-' := by
      rintro rfl
      simp [Char.isDigit] at digit
    simp only [List.cons_append] at taken left ⊢
    simp [step, stepMark, isBlank, startsWord, noMinus, digit, number, taken, left]

theorem step_anonymous {rest : List Char} (ends : Ends rest) :
    step ('?' :: rest) = some (some (.placeholder none), rest) := by
  have noDigit : ([] ++ rest).takeWhile Char.isDigit = [] :=
    (span_append (by simp) (ends.stops (p := Char.isDigit) (by decide))).1
  rw [List.nil_append] at noDigit
  simp [step, isBlank, noDigit]

theorem step_numbered {cs rest : List Char} (nonempty : cs ≠ [])
    (digits : ∀ c ∈ cs, c.isDigit = true) (ends : Ends rest) :
    step ('$' :: (cs ++ rest)) =
      some (some (.placeholder (some (Nat.ofDigitChars 10 cs 0))), rest) := by
  obtain ⟨taken, left⟩ := span_append digits (ends.stops (p := Char.isDigit) (by decide))
  simp [step, isBlank, number, taken, left, nonempty]

def marks : List Char := [',', '.', '*', '(', ')', '=', '<', '>']

theorem marks_plain : ∀ c ∈ marks, isMark c = true ∧ isBlank c = false ∧ c.isDigit = false ∧
    startsWord c = false ∧ c ∉ ['"', '\'', '?', '$', '-', '/'] := by
  have checked : (marks.all fun c => decide (isMark c = true ∧ isBlank c = false ∧
      c.isDigit = false ∧ startsWord c = false ∧ c ∉ ['"', '\'', '?', '$', '-', '/'])) = true := by
    decide
  intro c listed
  exact of_decide_eq_true (List.all_eq_true.mp checked c listed)

/-- A mark is read by itself when it makes no longer mark with what follows. -/
theorem step_mark {c : Char} (mark : c ∈ marks) {rest : List Char}
    (alone : ∀ d ∈ rest.head?, isDoubleMark c d = false) :
    step (c :: rest) = some (some (.symbol (String.singleton c)), rest) := by
  obtain ⟨listed, noBlank, noDigit, noLetter, others⟩ := marks_plain c mark
  simp only [List.mem_cons, List.not_mem_nil, or_false, not_or] at others
  obtain ⟨noQuote, noApostrophe, noQuestion, noDollar, noMinus, noSlash⟩ := others
  cases rest with
  | nil => simp [step, stepMark, *]
  | cons d after =>
    have single : isDoubleMark c d = false := alone d rfl
    simp [step, stepMark, *]

theorem step_doubleMark {c d : Char} (mark : [c, d] ∈ [['<', '>'], ['<', '='], ['>', '=']])
    (rest : List Char) :
    step (c :: d :: rest) = some (some (.symbol (String.ofList [c, d])), rest) := by
  simp only [List.mem_cons, List.cons.injEq, List.not_mem_nil, or_false, and_true] at mark
  rcases mark with ⟨rfl, rfl⟩ | ⟨rfl, rfl⟩ | ⟨rfl, rfl⟩ <;>
    simp [step, stepMark, isBlank, startsWord, isDoubleMark]

end Lexeme

end QueryBoard.Sql
