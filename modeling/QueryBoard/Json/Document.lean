import QueryBoard.Json.Basic

/-!
# JSON texts as they are read

A text is read from left to right and may stop being JSON on the way; what stands before that place
is known all the same.  A string, a number or a container may also be written as the grammar wants
it and still have no value.  `Document` keeps both kinds of faults where they are, so that whoever
looks through a document meets them in their order, and `toJson` is its value if it has none of
them.  Every value is a document without faults.
-/

set_option autoImplicit false

namespace QueryBoard

inductive Document where
  | null
  | bool (b : Bool)
  | int (n : Int)
  | float (x : Binary64)
  | str (s : String)
  /-- Something that is well written but has no value. -/
  | valueless
  /-- The place from which on the text is no JSON. -/
  | broken
  | arr (items : List Document)
  /-- Entries in their order, with no key where the key has no value. -/
  | obj (entries : List (Option String × Document))
deriving Repr, Inhabited

namespace Document

abbrev Entry := Option String × Document

mutual

/-- Whether the text goes on to the end of the document. -/
def isUnbroken : Document → Bool
  | .broken => false
  | .arr items => allUnbroken items
  | .obj entries => entriesUnbroken entries
  | .null | .bool _ | .int _ | .float _ | .str _ | .valueless => true

def allUnbroken : List Document → Bool
  | [] => true
  | d :: rest => isUnbroken d && allUnbroken rest

def entriesUnbroken : List (Option String × Document) → Bool
  | [] => true
  | (_, d) :: rest => isUnbroken d && entriesUnbroken rest

end

mutual

def json? : Document → Option Json
  | .null => some .null
  | .bool b => some (.bool b)
  | .int n => some (.int n)
  | .float x => some (.float x)
  | .str s => some (.str s)
  | .valueless | .broken => none
  | .arr items => (jsonItems? items).map .arr
  | .obj entries => (jsonFields? entries).map .obj

def jsonItems? : List Document → Option (List Json)
  | [] => some []
  | d :: rest => do
    let j ← json? d
    let js ← jsonItems? rest
    return j :: js

def jsonFields? : List (Option String × Document) → Option (List (String × Json))
  | [] => some []
  | (key, d) :: rest => do
    let key ← key
    let j ← json? d
    let fields ← jsonFields? rest
    return (key, j) :: fields

end

end Document

namespace Json

mutual

def document : Json → Document
  | .null => .null
  | .bool b => .bool b
  | .int n => .int n
  | .float x => .float x
  | .str s => .str s
  | .arr items => .arr (documentItems items)
  | .obj fields => .obj (documentFields fields)

def documentItems : List Json → List Document
  | [] => []
  | j :: rest => document j :: documentItems rest

def documentFields : List (String × Json) → List (Option String × Document)
  | [] => []
  | (key, j) :: rest => (some key, document j) :: documentFields rest

end

mutual

theorem json?_document : (j : Json) → j.document.json? = some j
  | .null | .bool _ | .int _ | .float _ | .str _ => rfl
  | .arr items => by simp [document, Document.json?, jsonItems?_documentItems items]
  | .obj fields => by simp [document, Document.json?, jsonFields?_documentFields fields]

theorem jsonItems?_documentItems : (items : List Json) →
    Document.jsonItems? (documentItems items) = some items
  | [] => rfl
  | j :: rest => by
    simp [documentItems, Document.jsonItems?, json?_document j, jsonItems?_documentItems rest]

theorem jsonFields?_documentFields : (fields : List (String × Json)) →
    Document.jsonFields? (documentFields fields) = some fields
  | [] => rfl
  | (key, j) :: rest => by
    simp [documentFields, Document.jsonFields?, json?_document j, jsonFields?_documentFields rest]

end

end Json

end QueryBoard
