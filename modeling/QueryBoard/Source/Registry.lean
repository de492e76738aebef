import QueryBoard.Settings.Basic
import QueryBoard.Source.Disk

/-!
# Registered sources

Connections are registered under ids, and requests name the id.  Two ids may lead to one storage:
they may have the connection in common, or each has one to the same file.  What is written through
the one is then read through the other.  A request to an id that is not registered reaches no
storage at all.
-/

set_option autoImplicit false

namespace QueryBoard

inductive RegistryError where
  | sourceNotFound (id : String)
  | notOpened (id : String) (e : QueryError)
deriving DecidableEq, Repr

def RegistryError.message : RegistryError → String
  | .sourceNotFound id => "source not found: " ++ id
  | .notOpened id e => "failed to open source " ++ id ++ ": " ++ e.message

/-- A connection: where its storage is, and why it refuses every change, if it does. -/
structure Handle where
  storage : Nat
  refusal : Option Db.DbError := none
deriving DecidableEq, Repr

structure Sources where
  /-- Every storage that there has been a connection to. -/
  storages : List Storage := []
  /-- The connection of each id, in the order of ids. -/
  handles : List (String × Handle) := []
  /-- Where the storages are that other connections may lead to. -/
  targets : List (Disk.Target × Nat) := []

namespace Sources

def putSorted (id : String) (h : Handle) : List (String × Handle) → List (String × Handle)
  | [] => [(id, h)]
  | (k, g) :: rest =>
    if id = k then (id, h) :: rest
    else if id < k then (id, h) :: (k, g) :: rest
    else (k, g) :: putSorted id h rest

/-- Takes in a storage without registering it. -/
def add (s : Sources) (storage : Storage) : Handle × Sources :=
  (⟨s.storages.length, storage.refusal⟩, { s with storages := s.storages ++ [storage] })

def handle (s : Sources) (id : String) : Except RegistryError Handle :=
  match s.handles.lookup id with
  | some h => .ok h
  | none => .error (.sourceNotFound id)

/-- Registers a connection under an id, in the place of an earlier one. -/
def put (s : Sources) (id : String) (h : Handle) : Sources :=
  { s with handles := putSorted id h s.handles }

/-- The storage that connections to a target have in common.  A file stays when it is left; what is
in memory is gone with the last connection to it. -/
def opened? (s : Sources) (t : Disk.Target) : Option Nat :=
  match t, s.targets.lookup t with
  | .file _, found => found
  | .shared _ _, some i => if s.handles.any (·.2.storage == i) then some i else none
  | .shared _ _, none | .own, _ => none

/-- Opens a connection to what a name leads to. -/
def connect (s : Sources) (disk : Disk) (name : String) : Except Db.DbError (Handle × Sources) := do
  let (a, t) ← disk.target name
  match s.opened? t with
  | some i => return (⟨i, Disk.refusal? a t⟩, s)
  | none =>
    let (h, s) := s.add (← disk.find name a t)
    return (h, { s with targets := (t, h.storage) :: s.targets })

def openPath (s : Sources) (disk : Disk) (id path : String) : Except RegistryError Sources :=
  match s.connect disk path with
  | .ok (h, s) => .ok (s.put id h)
  | .error e => .error (.notOpened id (.connect e))

def remove (s : Sources) (id : String) : Sources :=
  { s with handles := s.handles.filter (·.1 != id) }

def ids (s : Sources) : List String := s.handles.map (·.1)

def isRegistered (s : Sources) (id : String) : Bool := s.ids.contains id

/-- What is behind a connection. -/
def reach (s : Sources) (h : Handle) : Storage :=
  (s.storages.getD h.storage .other).withRefusal h.refusal

def storage (s : Sources) (id : String) : Except RegistryError Storage := do
  return s.reach (← s.handle id)

/-- Uses the connection of an id, which may change what is behind it. -/
def within {α : Type} (s : Sources) (id : String) (use : Storage → α × Storage) :
    Except RegistryError (α × Sources) := do
  let h ← s.handle id
  let (a, storage) := use (s.reach h)
  return (a, { s with storages := s.storages.set h.storage storage })

def execute (s : Sources) (id : String) (q : Query) : Except RegistryError (Outcome × Sources) :=
  s.within id (·.execute q)

def executeText (s : Sources) (id text : String) : Except RegistryError (Outcome × Sources) :=
  s.within id (·.executeText text)

def request (s : Sources) (r : SourceQuery) : Except RegistryError (Outcome × Sources) :=
  s.execute r.sourceId r.query

/-- The sources of settings that can be opened; the others are left out. -/
def ofSettings (env : Environment) (disk : Disk) (settings : Settings) : Sources :=
  settings.sources.foldl (fun s (id, source) =>
    match source.connection env with
    | .ok c => (s.openPath disk id c.path).toOption.getD s
    | .error _ => s) {}

end Sources

end QueryBoard
