import QueryBoard.Db.Error
import QueryBoard.Sql.Write

/-!
# How a statement may be written

A statement ends where a NUL character stands in it, and then the name with that character breaks
off.  A statement that is too large is refused before any of its names is looked up.  Counts that
depend on the tables are checked once these are known, and the number of tables last of all.
-/

set_option autoImplicit false

namespace QueryBoard.Db

def Limit.most : Limit → Nat
  | .depth | .cascade => 1000
  | .parameters => 32766
  | .sources => 200
  | .joined => 64
  | .resultColumns | .assignments | .orderTerms | .groupTerms => 2000

def Limit.check (l : Limit) (n : Nat) : Except DbError Unit :=
  if n ≤ l.most then .ok () else .error (.limit l none)

mutual

/-- The number of levels of an expression.  A column of a table has two, and membership in a list of
one item counts as a comparison with an item one level deeper. -/
def levels : Sql.Expr → Nat
  | .column (some _) _ => 2
  | .column none _ | .literal _ | .param _ | .star | .member _ _ [] => 1
  | .binary _ l r => max (levels l) (levels r) + 1
  | .call _ args => mostLevels args + 1
  | .member negated e [i] => max (levels e) (levels i + 1) + (if negated then 2 else 1)
  | .member negated e (i :: is) =>
    max (levels e) (max (levels i) (mostLevels is)) + (if negated then 2 else 1)
  | .over e => levels e

def mostLevels : List Sql.Expr → Nat
  | [] => 0
  | e :: rest => max (levels e) (mostLevels rest)

end

/-- The number of bytes before the parameter that `n` others stand before. -/
def paramOffset (n : Nat) : Sql.Tokens → Nat
  | [] => 0
  | t :: rest =>
    if t.value?.isNone then (t.text .sqlite 1).utf8ByteSize + paramOffset n rest
    else
      match n with
      | 0 => 0
      | n + 1 => (t.text .sqlite 1).utf8ByteSize + paramOffset n rest

/-- Refuses a statement with too many parameters; the first one above the limit is at fault. -/
def checkParamCount (statement : Sql.Tokens) : Except DbError Unit :=
  let most := Limit.parameters.most
  if (Sql.Tokens.params statement).length ≤ most then .ok ()
  else .error (.limit .parameters (some (paramOffset most statement)))

/-- The first token that breaks off, with the number of bytes before it. -/
def brokenToken? : Sql.Tokens → Option (String × Nat)
  | [] => none
  | t :: rest =>
    let text := t.text .sqlite 1
    if text.contains '\x00' then some (String.ofList (text.toList.takeWhile (· ≠ '\x00')), 0)
    else (brokenToken? rest).map fun e => (e.1, text.utf8ByteSize + e.2)

def checkNames (statement : Sql.Tokens) : Except DbError Unit :=
  match brokenToken? statement with
  | some (written, offset) => .error (.brokenName written offset)
  | none => .ok ()

def checkText (statement : Sql.Tokens) (sources : Nat) (filters : List Sql.Expr) :
    Except DbError Unit := do
  checkNames statement
  Limit.sources.check sources
  checkParamCount statement
  Limit.depth.check (((Sql.Expr.conjunction filters).map levels).getD 0)

end QueryBoard.Db
