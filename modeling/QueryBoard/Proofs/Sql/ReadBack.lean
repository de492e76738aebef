import QueryBoard.Proofs.Sql.PlainNames

/-!
# What reading a statement's text gives back

The text of a statement is read as its tokens, in either dialect: names and strings come back as
they were, and the placeholders stand where the parameters stood, numbered in their order.  Other
names and strings in their places are read as just that, so none of them can change what the rest
of the statement means.
-/

set_option autoImplicit false

namespace QueryBoard.Sql

/-! ## Names, strings and placeholders -/

namespace Token

def name? : Token → Option String
  | .ident name => some name
  | _ => none

def string? : Token → Option String
  | .literal (.str s) => some s
  | _ => none

/-- The token with another name or another string in its place. -/
def rename (onName onString : String → String) : Token → Token
  | .ident name => .ident (onName name)
  | .literal (.str s) => .literal (.str (onString s))
  | t => t

end Token

namespace Lexeme

def name? : Lexeme → Option String
  | .quoted name => some name
  | _ => none

def string? : Lexeme → Option String
  | .text s => some s
  | _ => none

def isPlaceholder : Lexeme → Bool
  | .placeholder _ => true
  | _ => false

def rename (onName onString : String → String) : Lexeme → Lexeme
  | .quoted name => .quoted (onName name)
  | .text s => .text (onString s)
  | l => l

end Lexeme

def Tokens.rename (onName onString : String → String) (ts : Tokens) : Tokens :=
  ts.map (Token.rename onName onString)

/-- What reading the text of tokens gives. -/
structure ReadBack (d : Dialect) (ts : Tokens) : Prop where
  /-- The text is read as the tokens, one after the other. -/
  lexed : Lexeme.lex (ts.text d).toList = some (ts.lexemes d)
  names : (ts.lexemes d).filterMap Lexeme.name? = ts.filterMap Token.name?
  strings : (ts.lexemes d).filterMap Lexeme.string? = ts.filterMap Token.string?
  /-- There are as many placeholders as parameters, and they are numbered from one. -/
  placeholders :
    (ts.lexemes d).filter Lexeme.isPlaceholder = (List.range' 1 ts.params.length).map d.mark
  /-- The placeholder of a parameter stands where the parameter stood. -/
  places : ∀ (before after : Tokens) (v : Value), ts = before ++ .param v :: after →
    ts.params[before.params.length]? = some v ∧
      ts.lexemes d = before.lexemes d ++ d.mark (before.params.length + 1) ::
        Tokens.lexemesFrom d (before.params.length + 2) after
  /-- Other names and strings change nothing but the names and strings that are read. -/
  renamed : ∀ onName onString : String → String,
    Lexeme.lex ((ts.rename onName onString).text d).toList =
      some ((ts.lexemes d).map (Lexeme.rename onName onString))

/-! ## The lexemes of one token -/

namespace Token

theorem mem_keyword_lexemes {words : String} {l : Lexeme}
    (member : l ∈ (pieces words).flatMap pieceLexemes) :
    (∃ w, l = .word w) ∨ ∃ m, l = .symbol m := by
  obtain ⟨piece, _, inPiece⟩ := List.mem_flatMap.mp member
  unfold pieceLexemes at inPiece
  split at inPiece
  · simp only [List.mem_cons, List.not_mem_nil, or_false] at inPiece
    rcases inPiece with rfl | rfl
    · exact Or.inr ⟨_, rfl⟩
    · exact Or.inr ⟨_, rfl⟩
  · exact Or.inl ⟨_, List.mem_singleton.mp inPiece⟩

/-- What no word and no mark has, no keyword has. -/
theorem filterMap_keyword_lexemes {α : Type} {part : Lexeme → Option α} (words : String)
    (noWord : ∀ w, part (.word w) = none) (noMark : ∀ m, part (.symbol m) = none) :
    ((pieces words).flatMap pieceLexemes).filterMap part = [] := by
  rw [List.filterMap_eq_nil_iff]
  intro l member
  rcases mem_keyword_lexemes member with ⟨w, rfl⟩ | ⟨m, rfl⟩
  · exact noWord w
  · exact noMark m

theorem filterMap_name_lexemes (d : Dialect) (position : Nat) (t : Token) :
    (t.lexemes d position).filterMap Lexeme.name? = t.name?.toList := by
  cases t with
  | keyword words => exact filterMap_keyword_lexemes words (fun _ => rfl) fun _ => rfl
  | operator op => cases op <;> rfl
  | literal l => cases l <;> rfl
  | param v => cases d <;> rfl
  | _ => rfl

theorem filterMap_string_lexemes (d : Dialect) (position : Nat) (t : Token) :
    (t.lexemes d position).filterMap Lexeme.string? = t.string?.toList := by
  cases t with
  | keyword words => exact filterMap_keyword_lexemes words (fun _ => rfl) fun _ => rfl
  | operator op => cases op <;> rfl
  | literal l => cases l <;> rfl
  | param v => cases d <;> rfl
  | _ => rfl

theorem filter_isPlaceholder_lexemes (d : Dialect) (position : Nat) (t : Token) :
    (t.lexemes d position).filter Lexeme.isPlaceholder =
      if t.value?.isSome then [d.mark position] else [] := by
  cases t with
  | keyword words =>
      refine List.filter_eq_nil_iff.mpr ?_
      intro l member
      rcases mem_keyword_lexemes member with ⟨w, rfl⟩ | ⟨m, rfl⟩ <;> simp [Lexeme.isPlaceholder]
  | operator op => cases op <;> rfl
  | literal l => cases l <;> rfl
  | param v => cases d <;> rfl
  | _ => rfl

theorem lexemes_rename (onName onString : String → String) (d : Dialect) (position : Nat)
    (t : Token) :
    (t.rename onName onString).lexemes d position =
      (t.lexemes d position).map (Lexeme.rename onName onString) := by
  cases t with
  | keyword words =>
      have kept : ∀ l ∈ (pieces words).flatMap pieceLexemes,
          Lexeme.rename onName onString l = id l := by
        intro l member
        rcases mem_keyword_lexemes member with ⟨w, rfl⟩ | ⟨m, rfl⟩ <;> rfl
      exact ((List.map_congr_left kept).trans (List.map_id _)).symm
  | operator op => cases op <;> rfl
  | literal l => cases l <;> rfl
  | param v => cases d <;> rfl
  | _ => rfl

theorem value?_rename (onName onString : String → String) (t : Token) :
    (t.rename onName onString).value? = t.value? := by
  cases t with
  | literal l => cases l <;> rfl
  | _ => rfl

theorem isGlue_rename (onName onString : String → String) (t : Token) :
    (t.rename onName onString).isGlue = t.isGlue := by
  cases t with
  | literal l => cases l <;> rfl
  | _ => rfl

theorem rename_eq_keyword {onName onString : String → String} {t : Token} {words : String}
    (same : t.rename onName onString = .keyword words) : t = .keyword words := by
  cases t with
  | literal l => cases l <;> cases same
  | keyword _ => exact same
  | _ => cases same

theorem PlainName.rename {t : Token} (plain : t.PlainName) (onName onString : String → String) :
    (t.rename onName onString).PlainName := by
  cases t with
  | literal l => cases l <;> trivial
  | function name => exact plain
  | _ => trivial

end Token

/-! ## The lexemes of a sequence of tokens -/

namespace Tokens

theorem lexemesFrom_append (d : Dialect) (before after : Tokens) (position : Nat) :
    lexemesFrom d position (before ++ after) =
      lexemesFrom d position before ++ lexemesFrom d (position + before.params.length) after := by
  induction before generalizing position with
  | nil => simp [lexemesFrom, params]
  | cons t rest ih =>
      rw [List.cons_append, lexemesFrom, ih, lexemesFrom, List.append_assoc]
      cases value : t.value? with
      | none => simp [params, value]
      | some v =>
        have moved : position + 1 + (params rest).length = position + (params (t :: rest)).length := by
          simp only [params, List.filterMap_cons, value, List.length_cons]
          omega
        simp only [Option.isSome_some, if_true, moved]

theorem filterMap_lexemesFrom {α : Type} {part : Lexeme → Option α} {part' : Token → Option α}
    (d : Dialect)
    (each : ∀ (t : Token) (position : Nat),
      (t.lexemes d position).filterMap part = (part' t).toList)
    (ts : Tokens) (position : Nat) :
    (lexemesFrom d position ts).filterMap part = ts.filterMap part' := by
  induction ts generalizing position with
  | nil => rfl
  | cons t rest ih =>
      rw [lexemesFrom, List.filterMap_append, each, ih]
      cases same : part' t with
      | none => simp [same]
      | some a => simp [same]

theorem filter_isPlaceholder_lexemesFrom (d : Dialect) (ts : Tokens) (position : Nat) :
    (lexemesFrom d position ts).filter Lexeme.isPlaceholder =
      (List.range' position ts.params.length).map d.mark := by
  induction ts generalizing position with
  | nil => rfl
  | cons t rest ih =>
      rw [lexemesFrom, List.filter_append, Token.filter_isPlaceholder_lexemes, ih]
      cases value : t.value? with
      | none => simp [params, value]
      | some v =>
        have more : (params (t :: rest)).length = (params rest).length + 1 := by
          simp [params, value]
        rw [more, List.range'_succ]
        simp

theorem lexemesFrom_rename (onName onString : String → String) (d : Dialect) (ts : Tokens)
    (position : Nat) :
    lexemesFrom d position (ts.rename onName onString) =
      (lexemesFrom d position ts).map (Lexeme.rename onName onString) := by
  induction ts generalizing position with
  | nil => rfl
  | cons t rest ih =>
      rw [lexemesFrom, List.map_append, ← Token.lexemes_rename, ← ih, rename, List.map_cons,
        lexemesFrom, Token.value?_rename]
      rfl

theorem params_append (before after : Tokens) :
    (before ++ after).params = before.params ++ after.params :=
  List.filterMap_append

end Tokens

theorem Legible.rename {ts : Tokens} (legible : Legible ts) (onName onString : String → String) :
    Legible (ts.rename onName onString) := by
  constructor
  · refine List.isChain_map_of_isChain (Token.rename onName onString) ?_ legible.spaced
    intro a b apart
    rw [Token.isGlue_rename, Token.isGlue_rename]
    exact apart
  · intro words member
    obtain ⟨t, inside, same⟩ := List.mem_map.mp member
    rw [Token.rename_eq_keyword same] at inside
    exact legible.keywords words inside

theorem Legible.readBack {ts : Tokens} (legible : Legible ts) (plain : ts.PlainNames)
    (d : Dialect) : ReadBack d ts where
  lexed := legible.lex_textFrom d ts 1 plain
  names := Tokens.filterMap_lexemesFrom d (fun t p => t.filterMap_name_lexemes d p) ts 1
  strings := Tokens.filterMap_lexemesFrom d (fun t p => t.filterMap_string_lexemes d p) ts 1
  placeholders := Tokens.filter_isPlaceholder_lexemesFrom d ts 1
  places := by
    intro before after v split
    subst split
    constructor
    · rw [Tokens.params_append]
      simp [Tokens.params, Token.value?]
    · unfold Tokens.lexemes
      rw [Tokens.lexemesFrom_append, Tokens.lexemesFrom, Nat.add_comm 1]
      rfl
  renamed := by
    intro onName onString
    have plain' : (ts.rename onName onString).PlainNames := by
      intro t member
      obtain ⟨u, inside, same⟩ := List.mem_map.mp member
      rw [← same]
      exact (plain u inside).rename onName onString
    rw [Tokens.lexemes, ← Tokens.lexemesFrom_rename]
    exact (legible.rename onName onString).lex_textFrom d _ 1 plain'

/-! ## Statements -/

inductive Built where
  | query (q : Query)
  | insert (i : Insert)
  | update (u : Update)
  | delete (d : Delete)

namespace Built

def tokens : Built → Tokens
  | .query q => q.tokens
  | .insert i => i.tokens
  | .update u => u.tokens
  | .delete d => d.tokens

theorem legible (b : Built) : Legible b.tokens := by
  cases b with
  | query q => exact q.legible
  | insert i => exact i.legible
  | update u => exact u.legible
  | delete d => exact d.legible

end Built

end QueryBoard.Sql
