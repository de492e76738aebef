import QueryBoard.Json.Reader

/-!
# Decoding JSON

What the decoders of all documents share.  A document type decodes from an object whose entries
are read in the order of the document: an unknown entry is skipped, a known one that comes a
second time is an error, and only after the last entry are missing fields reported, in the order
in which the type declares them.  Most types also decode from an array of their fields in that
same order.  Whatever is wrong with the text itself comes up where a decoder meets it; an entry
that is skipped may lack a value, but it must be well written.
-/

set_option autoImplicit false

namespace QueryBoard

inductive Vocabulary where
  | operation
  | join
  | aggregate
deriving DecidableEq, Repr

structure UnknownWord where
  vocabulary : Vocabulary
  word : String
deriving DecidableEq, Repr

def UnknownWord.message (e : UnknownWord) : String :=
  match e.vocabulary with
  | .operation => "unknown operation kind: " ++ e.word
  | .join => "unknown join kind: " ++ e.word
  | .aggregate => "unknown aggregate function: " ++ e.word

/-- Why a document does not decode: it is no JSON text, it uses an unknown word, it lacks a field,
or something in it has a wrong shape. -/
inductive DecodeError where
  | malformed
  | unknownWord (e : UnknownWord)
  | missingField (name : String)
  | wrongShape
deriving DecidableEq, Repr

/-- The text of an error; only unknown words and missing fields have one. -/
def DecodeError.message : DecodeError → String
  | .unknownWord e => e.message
  | .missingField name => "missing field `" ++ name ++ "`"
  | .malformed | .wrongShape => ""

abbrev Decoded (α : Type) := Except DecodeError α

namespace Document

def toJson (d : Document) : Decoded Json :=
  match d.json? with
  | some j => .ok j
  | none => .error .malformed

def toText : Document → Decoded String
  | .str s => .ok s
  | _ => .error .wrongShape

def toBool : Document → Decoded Bool
  | .bool b => .ok b
  | _ => .error .wrongShape

def toNatBelow (bound : Nat) : Document → Decoded Nat
  | .int n => if 0 ≤ n ∧ n < bound then .ok n.toNat else .error .wrongShape
  | _ => .error .wrongShape

def toUInt8 (d : Document) : Decoded UInt8 := UInt8.ofNat <$> d.toNatBelow UInt8.size

def toUInt32 (d : Document) : Decoded UInt32 := UInt32.ofNat <$> d.toNatBelow UInt32.size

def toUInt64 (d : Document) : Decoded UInt64 := UInt64.ofNat <$> d.toNatBelow UInt64.size

/-- `null`, or a value of another kind. -/
def toOption {α : Type} (read : Document → Decoded α) : Document → Decoded (Option α)
  | .null => .ok none
  | d => some <$> read d

def toList {α : Type} (read : Document → Decoded α) : Document → Decoded (List α)
  | .arr items => items.mapM read
  | _ => .error .wrongShape

/-- Any value that is not `null`, with one entry per key. -/
def toAny (d : Document) : Decoded (Option Json) := do
  match ← d.toJson with
  | .null => return none
  | j => return some j.dedup

/-- An object as a list of entries with one entry per key. -/
def toRecord (d : Document) : Decoded (List (String × Json)) := do
  match ← d.toJson with
  | .obj fields => return Json.upsertAll (Json.dedupFields fields)
  | _ => throw .wrongShape

/-- Leaves out an entry that nothing is known of. -/
def skip {α : Type} (a : α) (entry : Entry) : Decoded α :=
  if entry.1.isSome && entry.2.isUnbroken then .ok a else .error .malformed

/-- Leaves an entry to a later reading, for which it must have a value. -/
def keep {α : Type} (a : α) (entry : Entry) : Decoded α :=
  if entry.1.isSome && entry.2.json?.isSome then .ok a else .error .malformed

/-- Reads an entry into the slot of its field, which must still be empty. -/
def fill {α : Type} (slot : Option α) (read : Document → Decoded α) (d : Document) :
    Decoded (Option α) :=
  match slot with
  | none => some <$> read d
  | some _ => .error .wrongShape

def required {α : Type} (name : String) : Option α → Decoded α
  | some a => .ok a
  | none => .error (.missingField name)

/-- Reading of an array that stands for an object: takes fields off its front. -/
abbrev Items := StateT (List Document) (Except DecodeError)

def item {α : Type} (read : Document → Decoded α) : Items α := do
  match ← get with
  | [] => throw .wrongShape
  | d :: rest =>
    set rest
    read d

/-- The next item, or a default after the last one. -/
def itemOr {α : Type} (default : α) (read : Document → Decoded α) : Items α := do
  match ← get with
  | [] => return default
  | d :: rest =>
    set rest
    read d

/-- Runs a reading that must use up every item. -/
def allItems {α : Type} (reading : Items α) (items : List Document) : Decoded α := do
  let (a, rest) ← reading.run items
  if rest.isEmpty then return a else throw .wrongShape

/-- Decodes a text.  Errors of the document come before anything that is wrong after it. -/
def decodeText {α : Type} (decode : Document → Decoded α) (s : String) : Decoded α := do
  let (d, rest) := read s
  let a ← decode d
  if rest.any fun rest => (Json.skipBlanks rest).isEmpty then return a else throw .malformed

end Document

def Json.decode {α : Type} (decode : Document → Decoded α) (j : Json) : Decoded α :=
  decode j.document

end QueryBoard
